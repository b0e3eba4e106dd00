/-!
Computations that may look at their surroundings on their way: at files, at environment variables and at where the
user keeps settings. What they come to depends on nothing else, so that it is a function of these.
-/

namespace ODataQuery

/-- What a path leads to. -/
inductive FileState where
  | text (s : String)
  /-- Something is there, but it gives no text. -/
  | unreadable (why : String)
  | absent (why : String)
  deriving DecidableEq

namespace FileState

def exists? : FileState → Bool
  | absent _ => false
  | _ => true

/-- The text, or why there is none. -/
def contents : FileState → Except String String
  | text s => .ok s
  | unreadable why | absent why => .error why

end FileState

/-- A convention on where the user's directory of settings is, if there is one, given the variables of the environment
and the home directory that the system's records have for the account. -/
abbrev DirectorySearch := (String → Option String) → Option String → Option String

/-- All that a computation can look at. -/
structure Surroundings where
  files : String → FileState
  /-- The variables whose value is a text. -/
  values : String → Option String
  /-- The home directory of the account by the records of the system, if they have one. -/
  account : Option String
  search : DirectorySearch

/-- The user's directory of settings. -/
def Surroundings.settingsDirectory (w : Surroundings) : Option String := w.search w.values w.account

inductive Consult (α : Type) where
  | done (a : α)
  | file (path : String) (next : FileState → Consult α)
  | environment (name : String) (next : Option String → Consult α)
  | settingsDirectory (next : Option String → Consult α)

namespace Consult

/-- The result, given what is there to look at. -/
def answer (w : Surroundings) : Consult α → α
  | done a => a
  | file path next => (next (w.files path)).answer w
  | .environment name next => (next (w.values name)).answer w
  | settingsDirectory next => (next w.settingsDirectory).answer w

def bind (f : α → Consult β) : Consult α → Consult β
  | done a => f a
  | file path next => .file path fun state => (next state).bind f
  | .environment name next => .environment name fun value => (next value).bind f
  | settingsDirectory next => .settingsDirectory fun directory => (next directory).bind f

instance : Monad Consult where
  pure := done
  bind c f := c.bind f

/-- What a path leads to. -/
def fileAt (path : String) : Consult FileState := .file path done

/-- The value of a variable, if it has one. -/
def valueOf (name : String) : Consult (Option String) := .environment name done

/-- The values of some variables. -/
def valuesOf : List String → Consult (List (String × Option String))
  | [] => done []
  | name :: names => do
    let value ← valueOf name
    let values ← valuesOf names
    done ((name, value) :: values)

/-- The user's directory of settings, if there is one. -/
def userDirectory : Consult (Option String) := .settingsDirectory done

end Consult

end ODataQuery
