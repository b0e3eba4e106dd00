import ODataQuery.CommandLine.Run

/-!
The program: what a run wants to look at is looked at, and what it leaves behind is written.
-/

namespace ODataQuery.CommandLine

/-- What a path of the file system leads to. -/
def stateOf (path : String) : IO FileState := do
  try
    return .text (← IO.FS.readFile path)
  catch e =>
    return match e with
    | .noFileOrDirectory .. => .absent "No such file or directory (os error 2)"
    | .inappropriateType _ 20 _ => .absent "Not a directory (os error 20)"
    | .inappropriateType _ 21 _ => .unreadable "Is a directory (os error 21)"
    | .permissionDenied .. => .unreadable "Permission denied (os error 13)"
    | e => .unreadable (toString e)

/-- The text of a file of the system, or none at all. -/
def systemText (path : String) : IO String := do
  try IO.FS.readFile path catch _ => return ""

/-- The home directory in the system's records of accounts, given the records and the account's number. -/
def homeIn? (records number : String) : Option String :=
  (records.splitToList (· == '\n')).findSome? fun record =>
    match record.splitToList (· == ':') with
    | [_, _, owner, _, _, home, _] => if owner = number ∧ home ≠ "" then some home else none
    | _ => none

/-- The home directory of the account that runs the program. -/
def accountHome : IO (Option String) := do
  let status ← systemText "/proc/self/status"
  let owner := (status.splitToList (· == '\n')).findSome? fun line =>
    match line.splitToList (· == '\t') with
    | "Uid:" :: number :: _ => some number
    | _ => none
  match owner with
  | none => return none
  | some number => return homeIn? (← systemText "/etc/passwd") number

/-- The user's directory of settings, as far as the variables that the search asks for go. -/
def settingsDirectory : IO (Option String) := do
  let directory ← IO.getEnv directoryVariable
  let home ← IO.getEnv homeVariable
  let values (name : String) : Option String :=
    if name = directoryVariable then directory else if name = homeVariable then home else none
  return usualSearch values (← accountHome)

/-- The result of a computation in the world as it is. -/
def perform : Consult α → IO α
  | .done a => return a
  | .file path next => do perform (next (← stateOf path))
  | .environment name next => do perform (next (← IO.getEnv name))
  | .settingsDirectory next => do perform (next (← settingsDirectory))

end ODataQuery.CommandLine

def main (arguments : List String) : IO UInt32 := do
  let report ← ODataQuery.CommandLine.perform
    (ODataQuery.CommandLine.run ODataQuery.CommandLine.briefReaders arguments)
  (← IO.getStdout).putStr report.output
  (← IO.getStderr).putStr report.errors
  return report.code.toUInt32
