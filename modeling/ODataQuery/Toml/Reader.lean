import ODataQuery.Toml.Quoted

/-!
Reading TOML documents: lines with headers and lines with keys and values, with blanks and comments between
them.
-/

namespace ODataQuery.Toml

def skipBlanks (cs : List Char) : List Char := cs.dropWhile isBlank

/-- A comment at the start of a text, if there is one: what is left behind it, the end of its line. -/
def skipComment? : List Char → Option (List Char)
  | '#' :: cs =>
    let text := cs.takeWhile fun c => !isControl c
    some (cs.drop text.length)
  | cs => some cs

/-- The rest of a line that holds nothing more but blanks and a comment: the lines behind it. -/
def endLine? (cs : List Char) : Option (List Char) := do
  let cs ← skipComment? (skipBlanks cs)
  if cs = [] then some [] else newLine? cs

/-- Blanks, comments and line ends. The first argument bounds their number. -/
def skipLines : Nat → List Char → List Char
  | 0, cs => cs
  | bound + 1, cs =>
    match skipBlanks cs with
    | '#' :: rest =>
      match endLine? ('#' :: rest) with
      | some rest => skipLines bound rest
      | none => '#' :: rest
    | cs =>
      match newLine? cs with
      | some rest => skipLines bound rest
      | none => cs

def isBareKeyChar (c : Char) : Bool := c.isAlphanum || c == '_' || c == '-'

/-- A key without dots, and the rest. -/
def readSimpleKey? (cs : List Char) : Option (String × List Char) :=
  match cs with
  | '"' :: _ | '\'' :: _ => (readOneLine? cs).map fun (s, rest) => (String.ofList s, rest)
  | _ =>
    let key := cs.takeWhile isBareKeyChar
    if key = [] then none else some (String.ofList key, cs.drop key.length)

/-- How many parts a key may have. -/
def mostParts : Nat := 80

/-- A key, its parts separated by dots, and the rest. The first argument bounds their number. -/
def readKey? : Nat → List Char → Option (List String × List Char)
  | 0, _ => none
  | bound + 1, cs => do
    let (key, rest) ← readSimpleKey? (skipBlanks cs)
    match skipBlanks rest with
    | '.' :: rest =>
      let (keys, rest) ← readKey? bound rest
      some (key :: keys, rest)
    | rest => some ([key], rest)

/-- How deep arrays and inline tables may be nested. -/
def deepest : Nat := 80

mutual

/-- A value and the rest. The first argument bounds the steps, the second is the depth left. -/
def readValue? : Nat → Nat → List Char → Option (Toml × List Char)
  | 0, _, _ => none
  | steps + 1, depth, cs =>
    match cs with
    | '"' :: _ | '\'' :: _ => (readQuoted? cs).map fun (s, rest) => (.string (String.ofList s), rest)
    | '[' :: cs =>
      if depth = 0 then none
      else (readItems? steps (depth - 1) cs).map fun (items, rest) => (.array items, rest)
    | '{' :: cs =>
      if depth = 0 then none
      else (readPairs? steps (depth - 1) [] cs).map fun (es, rest) => (.table (closeEntries es), rest)
    | cs => do
      let (written, rest) := takeScalar cs
      let v ← scalar? written
      some (v, rest)

/-- The items of an array from one of them on, or its end. A comma may stand behind the last. -/
def readItems? : Nat → Nat → List Char → Option (List Toml × List Char)
  | 0, _, _ => none
  | steps + 1, depth, cs =>
    match skipLines cs.length cs with
    | ']' :: rest => some ([], rest)
    | cs => do
      let (item, rest) ← readValue? steps depth cs
      match skipLines rest.length rest with
      | ',' :: rest =>
        let (items, rest) ← readItems? steps depth rest
        some (item :: items, rest)
      | ']' :: rest => some ([item], rest)
      | _ => none

/-- The entries of an inline table from one of them on, or its end. Lines may end anywhere between its
keys, marks and values, and a comma may stand behind the last. -/
def readPairs? : Nat → Nat → Entries → List Char → Option (Entries × List Char)
  | 0, _, _, _ => none
  | steps + 1, depth, es, cs =>
    match skipLines cs.length cs with
    | '}' :: rest => some (es, rest)
    | cs => do
      let (key, rest) ← readKey? mostParts cs
      let rest ← mark? '=' (skipLines rest.length rest)
      let (v, rest) ← readValue? steps depth (skipLines rest.length rest)
      let es ← Entries.assign? v key es
      match skipLines rest.length rest with
      | ',' :: rest => readPairs? steps depth es rest
      | '}' :: rest => some (es, rest)
      | _ => none

end

/-- The lines of a document from one of them on, added to what the lines before gave. The header that
holds for them is given by its path. -/
def readDocument? : Nat → List String → Entries → List Char → Option Entries
  | 0, _, _, _ => none
  | lines + 1, path, es, cs =>
    match skipLines cs.length cs with
    | [] => some es
    | '[' :: '[' :: cs => do
      let (path, rest) ← readKey? mostParts cs
      let rest ← mark? ']' rest
      let rest ← mark? ']' rest
      let rest ← endLine? rest
      let es ← es.extend? path
      readDocument? lines path es rest
    | '[' :: cs => do
      let (path, rest) ← readKey? mostParts cs
      let rest ← mark? ']' rest
      let rest ← endLine? rest
      let es ← es.define? path
      readDocument? lines path es rest
    | cs => do
      let (key, rest) ← readKey? mostParts cs
      let rest ← mark? '=' rest
      let cs := skipBlanks rest
      let (v, rest) ← readValue? (2 * cs.length + 2) deepest cs
      let rest ← endLine? rest
      let es ← es.assignIn? v key path
      readDocument? lines path es rest

/-- A mark that some programs put before a text. -/
def dropByteOrderMark : List Char → List Char
  | c :: cs => if c.toNat = 0xFEFF then cs else c :: cs
  | [] => []

/-- The table that a document describes, if it is one. -/
def read? (text : String) : Option Toml :=
  let cs := dropByteOrderMark text.toList
  (readDocument? (cs.length + 1) [] [] cs).map fun es => .table (closeEntries es)

/-- The reader by these rules. It has nothing to report about a text that it refuses. -/
def reader : Reader where
  value? := read?
  reason _ := ""

end ODataQuery.Toml
