import ODataQuery.CommandLine.Consult

/-!
Where users keep their settings. A variable may name the directory by an absolute path; if none does, it lies in the
home directory, which another variable names or the records of the system have for the account.
-/

namespace ODataQuery

namespace Path

def isAbsolute (path : String) : Bool := path.toList.head? == some '/'

/-- A name in a directory. Where the path of the directory is blank or ends in a slash, none is put behind it. -/
def within (directory name : String) : String :=
  if directory.toList.getLast?.all (· == '/') then directory ++ name else directory ++ "/" ++ name

end Path

/-- The variable that names the directory of settings. -/
def directoryVariable : String := "XDG_CONFIG_HOME"

def homeVariable : String := "HOME"

/-- The directory of settings in a home directory. -/
def directoryIn (home : String) : String := Path.within home ".config"

/-- The usual convention. A relative path in the variable for the directory is passed over, and so is a blank home. -/
def usualSearch : DirectorySearch := fun values account =>
  let home := ((values homeVariable).filter (· ≠ "")).or account
  ((values directoryVariable).filter Path.isAbsolute).or (home.map directoryIn)

end ODataQuery
