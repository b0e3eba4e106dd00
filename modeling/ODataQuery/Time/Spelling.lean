import ODataQuery.Time.Instant
import ODataQuery.Text.Blank

/-!
The spellings of a moment: the strict one with an offset, and six looser layouts, read as Universal Time.
A layout is a row of pieces. A field of a layout may have blanks before it and fewer digits than usual, so
that the layouts are told apart by the marks between the fields alone.
-/

namespace ODataQuery.Time

/-- The values that the fields of a text give. A field that a layout lacks is zero. -/
structure Fields where
  year : Int := 0
  month : Nat := 0
  day : Nat := 0
  hour : Nat := 0
  minute : Nat := 0
  second : Nat := 0
  nano : Nat := 0

def Fields.instant? (f : Fields) : Option Instant :=
  Instant.ofClock? ⟨f.year, f.month, f.day⟩ f.hour f.minute f.second f.nano

open Text (digitsUpTo ofDigits)

/-- A number of one digit up to `most`, and the rest. -/
def readNumber? (most : Nat) (cs : List Char) : Option (Nat × List Char) :=
  match digitsUpTo most cs with
  | ([], _) => none
  | (ds, rest) => some (ofDigits ds, rest)

/-- A number of exactly `width` digits, and the rest. -/
def readExactly? (width : Nat) (cs : List Char) : Option (Nat × List Char) :=
  let (ds, rest) := digitsUpTo width cs
  if ds.length = width then some (ofDigits ds, rest) else none

/-- A year: up to four digits, or a sign and any number of digits. -/
def readYear? : List Char → Option (Int × List Char)
  | '-' :: cs => (readNumber? cs.length cs).map fun (n, rest) => (-(n : Int), rest)
  | '+' :: cs => (readNumber? cs.length cs).map fun (n, rest) => ((n : Int), rest)
  | cs => (readNumber? 4 cs).map fun (n, rest) => ((n : Int), rest)

def readMark? (mark : Char) : List Char → Option (List Char)
  | c :: cs => if c = mark then some cs else none
  | [] => none

/-- The nanoseconds that a point and digits behind it give. Digits past the ninth count for nothing. A
text without a point gives zero. -/
def readFraction? : List Char → Option (Nat × List Char)
  | '.' :: cs =>
    let (ds, rest) := digitsUpTo 9 cs
    if ds = [] then none
    else some (ofDigits ds * Nat.pow 10 (9 - ds.length), rest.dropWhile Char.isDigit)
  | cs => some (0, cs)

/-- A piece of a layout. -/
inductive Piece where
  | year | month | day | hour | minute | second | fraction
  | mark (c : Char)
  /-- Any run of blanks, also none. -/
  | gap

/-- Reads one piece: what it adds to the fields, and the rest. -/
def Piece.read? (piece : Piece) (f : Fields) (cs : List Char) : Option (Fields × List Char) :=
  let field := readNumber? 2 (Text.trimStart cs)
  match piece with
  | .year => (readYear? (Text.trimStart cs)).map fun (n, rest) => ({ f with year := n }, rest)
  | .month => field.map fun (n, rest) => ({ f with month := n }, rest)
  | .day => field.map fun (n, rest) => ({ f with day := n }, rest)
  | .hour => field.map fun (n, rest) => ({ f with hour := n }, rest)
  | .minute => field.map fun (n, rest) => ({ f with minute := n }, rest)
  | .second => field.map fun (n, rest) => ({ f with second := n }, rest)
  | .fraction => (readFraction? cs).map fun (n, rest) => ({ f with nano := n }, rest)
  | .mark c => (readMark? c cs).map fun rest => (f, rest)
  | .gap => some (f, Text.trimStart cs)

/-- The fields of a text that a layout covers to its end. -/
def readPieces? : List Piece → Fields → List Char → Option Fields
  | [], f, cs => if cs = [] then some f else none
  | piece :: pieces, f, cs => (piece.read? f cs).bind fun (f, rest) => readPieces? pieces f rest

/-- The moment that a text spells in a layout. -/
def readLayout? (layout : List Piece) (cs : List Char) : Option Instant :=
  (readPieces? layout {} cs).bind Fields.instant?

def dashedDate : List Piece := [.year, .mark '-', .month, .mark '-', .day]
def slashedDate : List Piece := [.month, .mark '/', .day, .mark '/', .year]
def clock : List Piece := [.hour, .mark ':', .minute]
def clockSeconds : List Piece := clock ++ [.mark ':', .second, .fraction]

/-- The layouts of a date with a time of day. -/
def dateTimeLayouts : List (List Piece) :=
  [dashedDate ++ .mark 'T' :: clockSeconds, dashedDate ++ .mark 'T' :: clock,
   dashedDate ++ .gap :: clockSeconds, dashedDate ++ .gap :: clock]

/-- The layouts of a date alone, which means its first moment. -/
def dateLayouts : List (List Piece) := [dashedDate, slashedDate]

def isMinus (c : Char) : Bool := c == '-' || c.toNat == 0x2212

/-- The seconds by which an offset at the end of a text is ahead of Universal Time. -/
def readOffset? : List Char → Option Int
  | [] => none
  | c :: cs =>
    if (c = 'Z' ∨ c = 'z') ∧ cs = [] then some 0
    else if c = '+' ∨ isMinus c then do
      let (hours, cs) ← readExactly? 2 cs
      let cs ← readMark? ':' cs
      let (minutes, rest) ← readExactly? 2 cs
      if hours ≤ 23 ∧ minutes ≤ 59 ∧ rest = [] then
        let ahead : Int := (hours * 60 + minutes) * 60
        some (if c = '+' then ahead else -ahead)
      else none
    else none

/-- The moment of a strict spelling: four digits for the year and two for all other fields, a letter T or
a blank before the time, and an offset. -/
def readStrict? (cs : List Char) : Option Instant := do
  let (year, cs) ← readExactly? 4 cs
  let cs ← readMark? '-' cs
  let (month, cs) ← readExactly? 2 cs
  let cs ← readMark? '-' cs
  let (day, cs) ← readExactly? 2 cs
  let cs ← readMark? 'T' cs <|> readMark? 't' cs <|> readMark? ' ' cs
  let (hour, cs) ← readExactly? 2 cs
  let cs ← readMark? ':' cs
  let (minute, cs) ← readExactly? 2 cs
  let cs ← readMark? ':' cs
  let (second, cs) ← readExactly? 2 cs
  let (nano, cs) ← readFraction? cs
  let ahead ← readOffset? cs
  let there ← Instant.ofClock? ⟨year, month, day⟩ hour minute second nano
  some (there.earlier ahead)

/-- The moment that a text without blanks around it spells. -/
def read? (cs : List Char) : Option Instant :=
  (readStrict? cs <|> dateTimeLayouts.findSome? (readLayout? · cs)) <|>
    dateLayouts.findSome? (readLayout? · cs)

end ODataQuery.Time

namespace ODataQuery

/-- The moment that a typed value spells. -/
def Instant.ofText? (raw : String) : Option Instant := Time.read? (Text.trim raw.toList)

end ODataQuery
