import ODataQuery.CommandLine.Consult

/-!
What a computation looks at. Which files and variables these are may depend on what it has found before; and what it
comes to depends on nothing else.
-/

namespace ODataQuery

/-- A file, a variable of the environment, or where the user keeps settings. -/
inductive Look where
  | file (path : String)
  | environment (name : String)
  | settingsDirectory
  deriving DecidableEq

/-- What is looked at is the same in one world and in another. -/
def Look.Same (w w' : Surroundings) : Look → Prop
  | file path => w'.files path = w.files path
  | environment name => w'.values name = w.values name
  | settingsDirectory => w'.settingsDirectory = w.settingsDirectory

namespace Consult

variable {α β : Type} (w w' : Surroundings)

/-- All that a computation looks at, in order. -/
def looks : Consult α → List Look
  | done _ => []
  | file path next => .file path :: (next (w.files path)).looks
  | .environment name next => .environment name :: (next (w.values name)).looks
  | settingsDirectory next => .settingsDirectory :: (next w.settingsDirectory).looks

@[simp]
theorem answer_pure (a : α) : (pure a : Consult α).answer w = a := rfl

@[simp]
theorem looks_pure (a : α) : (pure a : Consult α).looks w = [] := rfl

@[simp]
theorem answer_fileAt (path : String) : (fileAt path).answer w = w.files path := rfl

@[simp]
theorem looks_fileAt (path : String) : (fileAt path).looks w = [.file path] := rfl

@[simp]
theorem answer_valueOf (name : String) : (valueOf name).answer w = w.values name := rfl

@[simp]
theorem looks_valueOf (name : String) : (valueOf name).looks w = [.environment name] := rfl

@[simp]
theorem answer_userDirectory : userDirectory.answer w = w.settingsDirectory := rfl

@[simp]
theorem looks_userDirectory : userDirectory.looks w = [.settingsDirectory] := rfl

@[simp]
theorem answer_bind (c : Consult α) (f : α → Consult β) : (c >>= f).answer w = (f (c.answer w)).answer w := by
  show (c.bind f).answer w = _
  induction c with
  | done a => rfl
  | file path next ih => exact ih (w.files path)
  | environment name next ih => exact ih (w.values name)
  | settingsDirectory next ih => exact ih w.settingsDirectory

@[simp]
theorem looks_bind (c : Consult α) (f : α → Consult β) :
    (c >>= f).looks w = c.looks w ++ (f (c.answer w)).looks w := by
  show (c.bind f).looks w = _
  induction c with
  | done a => rfl
  | file path next ih => exact congrArg (Look.file path :: ·) (ih (w.files path))
  | environment name next ih => exact congrArg (Look.environment name :: ·) (ih (w.values name))
  | settingsDirectory next ih => exact congrArg (Look.settingsDirectory :: ·) (ih w.settingsDirectory)

@[simp]
theorem answer_valuesOf (names : List String) :
    (valuesOf names).answer w = names.map fun name => (name, w.values name) := by
  induction names with
  | nil => rfl
  | cons name names ih =>
      rw [valuesOf, answer_bind, answer_bind, ih]
      rfl

variable {w w'}

/-- A computation comes to the same wherever it finds the same. -/
theorem answer_congr {c : Consult α} (h : ∀ look ∈ c.looks w, look.Same w w') : c.answer w' = c.answer w := by
  induction c with
  | done a => rfl
  | file path next ih =>
      obtain ⟨hpath, hnext⟩ := List.forall_mem_cons.mp h
      have hsame : w'.files path = w.files path := hpath
      rw [answer, answer, hsame]
      exact ih _ hnext
  | environment name next ih =>
      obtain ⟨hname, hnext⟩ := List.forall_mem_cons.mp h
      have hsame : w'.values name = w.values name := hname
      rw [answer, answer, hsame]
      exact ih _ hnext
  | settingsDirectory next ih =>
      obtain ⟨hdirectory, hnext⟩ := List.forall_mem_cons.mp h
      have hsame : w'.settingsDirectory = w.settingsDirectory := hdirectory
      rw [answer, answer, hsame]
      exact ih _ hnext

end Consult

end ODataQuery
