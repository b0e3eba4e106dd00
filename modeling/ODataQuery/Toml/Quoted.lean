import ODataQuery.Toml.Scalar

/-!
The four kinds of quoted strings in TOML: with or without escapes, on one line or on several.
-/

namespace ODataQuery.Toml

/-- Control characters stand in no TOML text, save for tabs and the ends of lines. -/
def isControl (c : Char) : Bool := (c.toNat < 32 && c != '\t') || c.toNat == 127

def isBlank (c : Char) : Bool := c == ' ' || c == '\t'

/-- The end of a line at the start of a text: what is left behind it. -/
def newLine? : List Char → Option (List Char)
  | '\n' :: cs => some cs
  | '\r' :: '\n' :: cs => some cs
  | _ => none

/-- The character that a backslash and the text behind it stand for, and the rest. -/
def readEscape? : List Char → Option (Char × List Char)
  | [] => none
  | c :: cs =>
    let code (width : Nat) : Option (Char × List Char) :=
      let ds := cs.take width
      let n := inBase 16 ds
      if ds.length = width ∧ ds.all isHex ∧ n.isValidChar then some (Char.ofNat n, cs.drop width)
      else none
    match c with
    | 'b' => some ('\x08', cs)
    | 't' => some ('\t', cs)
    | 'n' => some ('\n', cs)
    | 'f' => some ('\x0c', cs)
    | 'r' => some ('\r', cs)
    | 'e' => some ('\x1b', cs)
    | '"' => some ('"', cs)
    | '\\' => some ('\\', cs)
    | 'x' => code 2
    | 'u' => code 4
    | 'U' => code 8
    | _ => none

/-- A string on one line, behind its first quote, and the rest. The first argument bounds its length. -/
def readBasic? : Nat → List Char → Option (List Char × List Char)
  | 0, _ | _, [] => none
  | _ + 1, '"' :: cs => some ([], cs)
  | bound + 1, '\\' :: cs => do
    let (c, cs) ← readEscape? cs
    let (s, rest) ← readBasic? bound cs
    some (c :: s, rest)
  | bound + 1, c :: cs =>
    if isControl c then none else (readBasic? bound cs).map fun (s, rest) => (c :: s, rest)

/-- A string on one line without escapes, behind its first quote, and the rest. -/
def readLiteral? : List Char → Option (List Char × List Char)
  | [] => none
  | c :: cs =>
    if c = '\'' then some ([], cs)
    else if isControl c then none
    else (readLiteral? cs).map fun (s, rest) => (c :: s, rest)

/-- Three quotes that end a string on several lines, and up to two before them that belong to it. -/
def closing? (quote : Char) (cs : List Char) : Option (List Char × List Char) :=
  let run := (cs.takeWhile (· == quote)).length
  if run < 3 then none else some (List.replicate (min run 5 - 3) quote, cs.drop (min run 5))

/-- The text from its first character on that is neither a blank nor part of the end of a line. -/
def skipSpace : List Char → List Char
  | '\r' :: '\n' :: cs => skipSpace cs
  | c :: cs => if isBlank c ∨ c = '\n' then skipSpace cs else c :: cs
  | [] => []

/-- A backslash at the end of a line takes with it all blanks and line ends that follow. -/
def skipLineEnd? (cs : List Char) : Option (List Char) :=
  (newLine? (cs.dropWhile isBlank)).map skipSpace

/-- A string on several lines, behind its first quotes, and the rest. -/
def readLines? (quote : Char) (escapes : Bool) : Nat → List Char → Option (List Char × List Char)
  | 0, _ | _, [] => none
  | bound + 1, c :: cs =>
    match closing? quote (c :: cs) with
    | some found => some found
    | none =>
      if escapes ∧ c = '\\' then
        match skipLineEnd? cs with
        | some cs => readLines? quote escapes bound cs
        | none => do
          let (c, cs) ← readEscape? cs
          let (s, rest) ← readLines? quote escapes bound cs
          some (c :: s, rest)
      else if c = '\n' ∨ (c = '\r' ∧ cs.head? = some '\n') ∨ !isControl c then
        (readLines? quote escapes bound cs).map fun (s, rest) => (c :: s, rest)
      else none

/-- A string on one line, and the rest, if a text begins with one. -/
def readOneLine? : List Char → Option (List Char × List Char)
  | '"' :: cs => readBasic? (cs.length + 1) cs
  | '\'' :: cs => readLiteral? cs
  | _ => none

/-- A string of any kind, and the rest. The end of a line right behind its first three quotes is not
part of it. -/
def readQuoted? (cs : List Char) : Option (List Char × List Char) :=
  let several (quote : Char) (escapes : Bool) (cs : List Char) :=
    readLines? quote escapes (cs.length + 1) ((newLine? cs).getD cs)
  match cs with
  | '"' :: '"' :: '"' :: cs => several '"' true cs
  | '\'' :: '\'' :: '\'' :: cs => several '\'' false cs
  | cs => readOneLine? cs

end ODataQuery.Toml
