import ODataQuery.Json.Basic

/-!
Writing JSON trees, on one line or with one member or item to a line.
-/

namespace ODataQuery.Json

/-- A hexadecimal digit. -/
def hexChar (n : Nat) : Char := Char.ofNat (if n < 10 then 48 + n else 87 + n)

/-- A character as it stands in a string. -/
def escape (c : Char) : List Char :=
  if c = '"' then ['\\', '"']
  else if c = '\\' then ['\\', '\\']
  else if c = '\x08' then ['\\', 'b']
  else if c = '\x0c' then ['\\', 'f']
  else if c = '\n' then ['\\', 'n']
  else if c = '\r' then ['\\', 'r']
  else if c = '\t' then ['\\', 't']
  else if c.toNat < 32 then ['\\', 'u', '0', '0', hexChar (c.toNat / 16), hexChar (c.toNat % 16)]
  else [c]

def quoted (s : String) : List Char := '"' :: s.toList.flatMap escape ++ ['"']

/-- A string or a number. One without a text is written as if it were empty. -/
def textOf (s : Option String) : List Char := quoted (s.getD "")

mutual

/-- The tree on one line, without blanks. -/
def line : Json → List Char
  | null => "null".toList
  | bool true => "true".toList
  | bool false => "false".toList
  | number written => written.toList
  | string text => textOf text
  | array items => '[' :: lineItems items ++ [']']
  | object members => '{' :: lineMembers members ++ ['}']
  | broken => []

def lineItems : List Json → List Char
  | [] => []
  | [j] => j.line
  | j :: js => j.line ++ ',' :: lineItems js

def lineMembers : List (Option String × Json) → List Char
  | [] => []
  | [(key, j)] => textOf key ++ ':' :: j.line
  | (key, j) :: rest => textOf key ++ ':' :: j.line ++ ',' :: lineMembers rest

end

/-- The end of a line and the two blanks per level before the next one. -/
def newLine (level : Nat) : List Char := '\n' :: List.replicate (2 * level) ' '

mutual

/-- The tree with an item or a member to a line, at a level of indentation. -/
def lines (level : Nat) : Json → List Char
  | array [] => ['[', ']']
  | array items => '[' :: linesItems (level + 1) items ++ newLine level ++ [']']
  | object [] => ['{', '}']
  | object members => '{' :: linesMembers (level + 1) members ++ newLine level ++ ['}']
  | j => j.line

def linesItems (level : Nat) : List Json → List Char
  | [] => []
  | [j] => newLine level ++ lines level j
  | j :: js => newLine level ++ lines level j ++ ',' :: linesItems level js

def linesMembers (level : Nat) : List (Option String × Json) → List Char
  | [] => []
  | [(key, j)] => newLine level ++ textOf key ++ ':' :: ' ' :: lines level j
  | (key, j) :: rest =>
    newLine level ++ textOf key ++ ':' :: ' ' :: lines level j ++ ',' :: linesMembers level rest

end

/-- The text of a tree, on one line. -/
def render (j : Json) : String := String.ofList j.line

/-- The text of a tree, with an item or a member to a line. -/
def pretty (j : Json) : String := String.ofList (j.lines 0)

end ODataQuery.Json
