import ODataQuery.Json.Basic

/-!
Reading JSON texts. Reading always gives a tree, and what is left behind it; after a broken place nothing
is left.
-/

namespace ODataQuery.Json

def isBlank (c : Char) : Bool := c == ' ' || c == '\t' || c == '\n' || c == '\r'

def skipBlanks (cs : List Char) : List Char := cs.dropWhile isBlank

def hexDigit? (c : Char) : Option Nat :=
  if '0' ≤ c ∧ c ≤ '9' then some (c.toNat - 48)
  else if 'a' ≤ c ∧ c ≤ 'f' then some (c.toNat - 87)
  else if 'A' ≤ c ∧ c ≤ 'F' then some (c.toNat - 55)
  else none

/-- The number that a row of hexadecimal digits writes. -/
def hexNumber? (cs : List Char) : Option Nat :=
  cs.foldlM (fun n c => (hexDigit? c).map (16 * n + ·)) 0

/-- What a backslash and a letter stand for. -/
def escaped? : Char → Option Char
  | '"' => some '"'
  | '\\' => some '\\'
  | '/' => some '/'
  | 'b' => some '\x08'
  | 'f' => some '\x0c'
  | 'n' => some '\n'
  | 'r' => some '\r'
  | 't' => some '\t'
  | _ => none

/-- The code points of a string behind its first quote, surrogates as they are escaped, and the rest
behind its last quote. -/
def readCodes? : List Char → Option (List Nat × List Char)
  | [] => none
  | '"' :: cs => some ([], cs)
  | '\\' :: 'u' :: a :: b :: c :: d :: cs => do
    let n ← hexNumber? [a, b, c, d]
    let (ns, rest) ← readCodes? cs
    some (n :: ns, rest)
  | '\\' :: e :: cs => do
    let c ← escaped? e
    let (ns, rest) ← readCodes? cs
    some (c.toNat :: ns, rest)
  | c :: cs =>
    if c.toNat < 32 then none
    else (readCodes? cs).map fun (ns, rest) => (c.toNat :: ns, rest)

def isHighSurrogate (n : Nat) : Bool := 0xD800 ≤ n && n < 0xDC00
def isLowSurrogate (n : Nat) : Bool := 0xDC00 ≤ n && n < 0xE000

/-- The text of code points in which every surrogate is half of a pair. -/
def pairSurrogates? : List Nat → Option (List Char)
  | [] => some []
  | [n] => if isHighSurrogate n || isLowSurrogate n then none else some [Char.ofNat n]
  | n :: m :: ns =>
    if isHighSurrogate n then
      if isLowSurrogate m then
        (pairSurrogates? ns).map (Char.ofNat (0x10000 + (n - 0xD800) * 0x400 + (m - 0xDC00)) :: ·)
      else none
    else if isLowSurrogate n then none
    else (pairSurrogates? (m :: ns)).map (Char.ofNat n :: ·)

/-- The text of a string behind its first quote, if it has one, and the rest. -/
def readString? (cs : List Char) : Option (Option String × List Char) :=
  (readCodes? cs).map fun (ns, rest) => ((pairSurrogates? ns).map String.ofList, rest)

/-- The part of a number before the point: no zero in front of other digits. -/
def readWhole? (cs : List Char) : Option (List Char × List Char) :=
  match Text.readDigits cs with
  | ([], _) => none
  | ('0' :: _ :: _, _) => none
  | part => some part

/-- A point and at least one digit, if a point is next. -/
def readPoint? : List Char → Option (List Char × List Char)
  | '.' :: cs =>
    match Text.readDigits cs with
    | ([], _) => none
    | (ds, rest) => some ('.' :: ds, rest)
  | cs => some ([], cs)

/-- An exponent with at least one digit, if its letter is next. -/
def readPower? : List Char → Option (List Char × List Char)
  | [] => some ([], [])
  | e :: cs =>
    if e = 'e' ∨ e = 'E' then
      let sign := cs.take 1 |>.filter fun c => c == '+' || c == '-'
      match Text.readDigits (cs.drop sign.length) with
      | ([], _) => none
      | (ds, rest) => some (e :: sign ++ ds, rest)
    else some ([], e :: cs)

/-- A number as it is written, and the rest. -/
def readNumber? (cs : List Char) : Option (List Char × List Char) := do
  let sign := cs.take 1 |>.filter (· == '-')
  let (whole, cs) ← readWhole? (cs.drop sign.length)
  let (point, cs) ← readPoint? cs
  let (power, cs) ← readPower? cs
  some (sign ++ whole ++ point ++ power, cs)

/-- A value that a word names, if the text begins with the word. -/
def readWord (word : List Char) (value : Json) (cs : List Char) : Json × List Char :=
  if word.isPrefixOf cs then (value, cs.drop word.length) else (broken, [])

/-- A value that is neither an array nor an object. -/
def readScalar : List Char → Json × List Char
  | '"' :: cs =>
    match readString? cs with
    | some (text, rest) => (string text, rest)
    | none => (broken, [])
  | 't' :: cs => readWord "rue".toList (bool true) cs
  | 'f' :: cs => readWord "alse".toList (bool false) cs
  | 'n' :: cs => readWord "ull".toList null cs
  | cs =>
    match readNumber? cs with
    | some (written, rest) => (number (String.ofList written), rest)
    | none => (broken, [])

mutual

/-- One value. The first argument bounds the steps taken. -/
def readValue : Nat → List Char → Json × List Char
  | 0, _ => (broken, [])
  | steps + 1, cs =>
    match skipBlanks cs with
    | '[' :: cs =>
      match skipBlanks cs with
      | ']' :: rest => (array [], rest)
      | cs => let (items, rest) := readItems steps cs; (array items, rest)
    | '{' :: cs =>
      match skipBlanks cs with
      | '}' :: rest => (object [], rest)
      | cs => let (members, rest) := readMembers steps cs; (object members, rest)
    | cs => readScalar cs

/-- The items of an array from one of them on. -/
def readItems : Nat → List Char → List Json × List Char
  | 0, _ => ([broken], [])
  | steps + 1, cs =>
    let (item, rest) := readValue steps cs
    match skipBlanks rest with
    | ',' :: rest => let (items, rest) := readItems steps rest; (item :: items, rest)
    | ']' :: rest => ([item], rest)
    | _ => ([item, broken], [])

/-- The members of an object from one of them on. -/
def readMembers : Nat → List Char → List (Option String × Json) × List Char
  | 0, _ => ([(none, broken)], [])
  | steps + 1, cs =>
    match skipBlanks cs with
    | '"' :: cs =>
      match readString? cs with
      | none => ([(none, broken)], [])
      | some (key, rest) =>
        match skipBlanks rest with
        | ':' :: rest =>
          let (value, rest) := readValue steps rest
          match skipBlanks rest with
          | ',' :: rest => let (members, rest) := readMembers steps rest; ((key, value) :: members, rest)
          | '}' :: rest => ([(key, value)], rest)
          | _ => ([(key, value), (none, broken)], [])
        | _ => ([(key, broken)], [])
    | _ => ([(none, broken)], [])

end

/-- The tree of a text, and what is left behind it. -/
def read (text : String) : Json × List Char :=
  let cs := text.toList
  readValue (2 * cs.length + 2) cs

end ODataQuery.Json
