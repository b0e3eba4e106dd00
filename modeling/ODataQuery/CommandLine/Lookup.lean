import ODataQuery.CommandLine.Directories
import ODataQuery.Settings.Basic

/-!
Where the settings come from. The first place that says anything decides: a file named on the command
line, one named by a variable, one in the working directory, one in the user's directory of settings, and
if there is none of these, the settings are the default ones.
-/

namespace ODataQuery.Settings

/-- The variable that names a file with settings. -/
def fileVariable : String := "FORMSCOPE_CONFIG"

def localFile : String := "formscope.toml"

/-- The user's file in a directory of settings. -/
def userFile (directory : String) : String := Path.within (Path.within directory "formscope") "config.toml"

section

variable (reader : Toml.Reader)

/-- The settings in what a path leads to. -/
def ofFile (path : String) : FileState → Except SettingsError Settings
  | .text s => ofText reader s
  | .unreadable why => .error (.unreadable why)
  | .absent _ => .error (.notFound path)

/-- The settings in a file that must be there. -/
def fromFile (path : String) : Consult (Except SettingsError Settings) := do
  let state ← Consult.fileAt path
  return ofFile reader path state

/-- The settings in a file of the user, or the default ones if there is no such file. -/
def ofUserFile (path : String) (state : FileState) : Except SettingsError Settings :=
  if state.exists? then ofFile reader path state else .ok {}

/-- The settings from the user's directory. -/
def fromUserDirectory : Consult (Except SettingsError Settings) := do
  match ← Consult.userDirectory with
  | none => return .ok {}
  | some directory =>
    let path := userFile directory
    return ofUserFile reader path (← Consult.fileAt path)

/-- The settings from the usual places. -/
def fromUsualPlaces : Consult (Except SettingsError Settings) := do
  match ← Consult.valueOf fileVariable with
  | some path => fromFile reader path
  | none =>
    let state ← Consult.fileAt localFile
    if state.exists? then return ofFile reader localFile state else fromUserDirectory reader

/-- The settings of a run for which a file may be named. -/
def find : Option String → Consult (Except SettingsError Settings)
  | some path => fromFile reader path
  | none => fromUsualPlaces reader

end

end ODataQuery.Settings
