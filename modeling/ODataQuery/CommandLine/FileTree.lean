import ODataQuery.CommandLine.Consult

/-!
Trees of files in memory, and where a path in them leads. A file needs no entries for the directories it
lies in. Paths are followed name by name: each step needs a directory to start from, and blank names and
single dots stay where they are.
-/

namespace ODataQuery

namespace FileTree

def notFound : FileState := .absent "No such file or directory (os error 2)"
def notADirectory : FileState := .absent "Not a directory (os error 20)"
def isADirectory : FileState := .unreadable "Is a directory (os error 21)"
def nameTooLong : FileState := .absent "File name too long (os error 36)"
def nulInName : FileState := .absent "file name contained an unexpected NUL byte"

end FileTree

/-- Files and directories under a working directory, which is given by the names on the way to it. A file
has a text; an entry without one is a directory. -/
structure FileTree where
  place : List String
  entries : List (List String × Option String)

namespace FileTree

/-- The names that a path goes through, blank ones and single dots left out. -/
def names (path : String) : List String :=
  ((path.splitToList (· == '/')).filter fun s => s ≠ "" ∧ s ≠ ".")

/-- The tree with entries under relative paths. -/
def ofPaths (place : String) (entries : List (String × Option String)) : FileTree :=
  ⟨names place, entries.map fun (path, text) => (names place ++ names path, text)⟩

def isDirectory (t : FileTree) (at_ : List String) : Bool :=
  at_.isPrefixOf t.place ||
    t.entries.any fun (path, text) => (path == at_ && text.isNone) || (at_ != path && at_.isPrefixOf path)

/-- What stands at a place. -/
def look (t : FileTree) (at_ : List String) : FileState :=
  if t.isDirectory at_ then isADirectory
  else
    match t.entries.lookup at_ with
    | some (some text) => .text text
    | _ => notFound

/-- Follows names from a place on. -/
def follow (t : FileTree) (at_ : List String) : List String → FileState
  | [] => t.look at_
  | name :: rest =>
    if name.utf8ByteSize > 255 then nameTooLong
    else
      match t.look at_ with
      | .text _ => notADirectory
      | .absent why => .absent why
      | .unreadable _ =>
        if name = "" ∨ name = "." then t.follow at_ rest
        else if name = ".." then t.follow at_.dropLast rest
        else t.follow (at_ ++ [name]) rest

/-- What a path leads to, from the working directory if it is relative. -/
def state (t : FileTree) (path : String) : FileState :=
  if path = "" then notFound
  else if path.contains (Char.ofNat 0) then nulInName
  else if path.utf8ByteSize ≥ 4096 then nameTooLong
  else t.follow (if path.startsWith "/" then [] else t.place) (path.splitToList (· == '/'))

end FileTree

end ODataQuery
