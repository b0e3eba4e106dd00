import Mathlib.Data.List.Basic
import ODataQuery.CommandLine.Run
import ODataQuery.Proofs.CommandLine.Looks
import ODataQuery.Proofs.Settings.Expansion

/-!
What the parts of a run come to in given surroundings. A part has a result, or it fails with a message; parts behind
one another succeed together, and otherwise the message is that of the first one that fails.
-/

namespace ODataQuery.Settings

/-- The settings without the path of a catalog. -/
def besidesCatalog (s : Settings) : Settings := { s with catalogPath := none }

end ODataQuery.Settings

namespace ODataQuery.CommandLine

/-- The file that a command reads on its own account. -/
def Command.file? : Command → Option String
  | compile file _ _ => some file
  | resolve _ | attributes _ => none

/-- The table that a command looks for in a catalog. -/
def Command.table? : Command → Option String
  | resolve table | attributes table => some table
  | compile _ table _ => table

/-! ### Results and messages -/

section

variable {ε ε' α β : Type} {x : Except ε α}

theorem mapError_eq_ok_iff {f : ε → ε'} {a : α} : x.mapError f = .ok a ↔ x = .ok a := by
  cases x <;> simp [Except.mapError]

theorem bind_eq_ok_iff {f : α → Except ε β} {b : β} : x.bind f = .ok b ↔ ∃ a, x = .ok a ∧ f a = .ok b := by
  cases x <;> simp [Except.bind]

theorem map_eq_ok_iff {f : α → β} {b : β} : x.map f = .ok b ↔ ∃ a, x = .ok a ∧ f a = b := by
  cases x <;> simp [Except.map]

end

/-- A part of a run fails, and this is its message. -/
def FailsWith {α : Type} (x : Except Failure α) (message : String) : Prop :=
  ∃ failure : Failure, x = .error failure ∧ failure.message = message

section

variable {ε α β : Type} {message : String}

theorem not_failsWith_ok {a : α} : ¬ FailsWith (.ok a) message := by
  rintro ⟨_, ⟨⟩, -⟩

theorem failsWith_error_iff {failure : Failure} :
    FailsWith (.error failure : Except Failure α) message ↔ failure.message = message := by
  simp [FailsWith]

theorem failsWith_mapError_iff {x : Except ε α} {f : ε → Failure} :
    FailsWith (x.mapError f) message ↔ ∃ e, x = .error e ∧ (f e).message = message := by
  cases x <;> simp [FailsWith, Except.mapError]

theorem failsWith_map_iff {x : Except Failure α} {f : α → β} : FailsWith (x.map f) message ↔ FailsWith x message := by
  cases x <;> simp [FailsWith, Except.map]

theorem failsWith_bind_iff {x : Except Failure α} {f : α → Except Failure β} :
    FailsWith (x.bind f) message ↔ FailsWith x message ∨ ∃ a, x = .ok a ∧ FailsWith (f a) message := by
  cases x <;> simp [FailsWith, Except.bind]

end

/-! ### The parts -/

variable {readers : Readers} {w : Surroundings} {s : Settings} {named table : Option String} {i : Invocation}
  {arguments : List String}

theorem answer_catalogPath_unconfigured (h : s.catalogPath = none) :
    (catalogPath s none).answer w = .error .noCatalog := by
  unfold catalogPath Settings.expandedPath
  simp only [Consult.answer_bind, Consult.answer_pure, h]

theorem answer_catalogPath_configured {template : String} (h : s.catalogPath = some template) :
    (catalogPath s none).answer w =
      (Expansion.expand w.values template).mapError fun name => .settings (.unsetVariable name) := by
  -- Only the variables in the path are asked for, and no others matter to it.
  have hexpanded : Expansion.expand (fun name => (((Expansion.references template).map fun name =>
      (name, w.values name)).lookup name).join) template = Expansion.expand w.values template := by
    apply Expansion.expand_congr
    intro name hname
    rw [List.lookup_graph w.values hname, Option.join_some]
  unfold catalogPath Settings.expandedPath
  simp only [Consult.answer_bind, Consult.answer_valuesOf, Consult.answer_pure, h, Option.elim_some, hexpanded]
  cases Expansion.expand w.values template <;> rfl

theorem answer_openCatalog : (openCatalog readers s named).answer w =
    ((catalogPath s named).answer w).bind fun path => catalogOf readers path (w.files path) := by
  unfold openCatalog
  rw [Consult.answer_bind]
  cases (catalogPath s named).answer w <;> rfl

section

variable (readers w s named)

theorem answer_knownFor (table : String) : (knownFor readers s named (some table)).answer w =
    ((openCatalog readers s named).answer w).bind fun c => (attributesIn c table).map some := by
  unfold knownFor
  rw [Consult.answer_bind]
  rfl

theorem answer_resolve (table : String) : ((Command.resolve table).run readers s named).answer w =
    ((openCatalog readers s named).answer w).bind fun c =>
      (namesIn c table).map fun names => { code := 0, output := namesText names } := by
  unfold Command.run
  rw [Consult.answer_bind]
  rfl

theorem answer_attributes (table : String) : ((Command.attributes table).run readers s named).answer w =
    ((openCatalog readers s named).answer w).bind fun c =>
      (attributesIn c table).map fun map => { code := 0, output := line map.toJson.pretty } := by
  unfold Command.run
  rw [Consult.answer_bind]
  rfl

theorem answer_compile (file : String) (table : Option String) (diagnostics : Bool) :
    ((Command.compile file table diagnostics).run readers s named).answer w =
      (queryOf readers file (w.files file)).bind fun query =>
        ((knownFor readers s named table).answer w).map fun known =>
          compiledReport ({ query with known }.compile s.nanPolicy) diagnostics := by
  unfold Command.run
  rw [Consult.answer_bind, Consult.answer_fileAt]
  cases queryOf readers file (w.files file) with
  | error e => rfl
  | ok query =>
      show ((knownFor readers s named table) >>= _).answer w = _
      rw [Consult.answer_bind]
      rfl

theorem answer_invocation (i : Invocation) : (i.run readers).answer w =
    (((Settings.find readers.toml i.config).answer w).mapError .settings).bind fun settings =>
      (i.command.run readers settings i.catalog).answer w := by
  unfold Invocation.run
  rw [Consult.answer_bind]
  cases (Settings.find readers.toml i.config).answer w <;> rfl

end

theorem answer_run (accepted : Request.ofArguments arguments = .run i) :
    (run readers arguments).answer w = .ofResult ((i.run readers).answer w) := by
  unfold run
  rw [accepted]
  simp only [Consult.answer_bind, Consult.answer_pure]

theorem looks_run (accepted : Request.ofArguments arguments = .run i) :
    (run readers arguments).looks w = (i.run readers).looks w := by
  unfold run
  rw [accepted]
  simp only [Consult.looks_bind, Consult.looks_pure, List.append_nil]

/-- What a command succeeds with says so. -/
theorem code_of_ok {command : Command} {r : Report} (h : (command.run readers s named).answer w = .ok r) :
    r.code = 0 := by
  cases command with
  | resolve table =>
      rw [answer_resolve] at h
      obtain ⟨c, -, hnames⟩ := bind_eq_ok_iff.mp h
      obtain ⟨names, -, rfl⟩ := map_eq_ok_iff.mp hnames
      rfl
  | attributes table =>
      rw [answer_attributes] at h
      obtain ⟨c, -, hmap⟩ := bind_eq_ok_iff.mp h
      obtain ⟨map, -, rfl⟩ := map_eq_ok_iff.mp hmap
      rfl
  | compile file table diagnostics =>
      rw [answer_compile] at h
      obtain ⟨query, -, hknown⟩ := bind_eq_ok_iff.mp h
      obtain ⟨known, -, rfl⟩ := map_eq_ok_iff.mp hknown
      rfl

/-- A run that is accepted fails with a message if and only if this message is all that it leaves. -/
theorem failsWith_iff (accepted : Request.ofArguments arguments = .run i)
    (codes : ∀ r, (i.run readers).answer w = .ok r → r.code = 0) {message : String} :
    FailsWith ((i.run readers).answer w) message ↔
      (run readers arguments).answer w = { code := 1, errors := "Error: " ++ message ++ "\n" } := by
  rw [answer_run accepted]
  cases hrun : (i.run readers).answer w with
  | error failure =>
      simp [failsWith_error_iff, Report.ofResult, line]
  | ok r =>
      refine iff_of_false not_failsWith_ok ?_
      rintro rfl
      cases codes _ hrun

end ODataQuery.CommandLine
