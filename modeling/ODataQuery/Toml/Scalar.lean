import ODataQuery.Number.Decimal
import ODataQuery.Time.Calendar
import ODataQuery.Toml.Basic

/-!
The scalars of TOML that are written without quotes: booleans, whole numbers in four bases, numbers with a
fraction or an exponent, dates and times of day.
-/

namespace ODataQuery.Toml

/-- Digits with single underscores between them, the underscores taken out. -/
def groupedDigits? (isDigit : Char → Bool) : List Char → Option (List Char)
  | [] => none
  | [c] => if isDigit c then some [c] else none
  | c :: '_' :: cs => if isDigit c then (groupedDigits? isDigit cs).map (c :: ·) else none
  | c :: cs => if isDigit c then (groupedDigits? isDigit cs).map (c :: ·) else none

/-- The value of a digit in bases up to sixteen. -/
def digitValue (c : Char) : Nat :=
  if c.isDigit then c.toNat - 48 else if 'a' ≤ c then c.toNat - 87 else c.toNat - 55

def isHex (c : Char) : Bool := c.isDigit || ('a' ≤ c && c ≤ 'f') || ('A' ≤ c && c ≤ 'F')
def isOctal (c : Char) : Bool := '0' ≤ c && c ≤ '7'
def isBinary (c : Char) : Bool := c == '0' || c == '1'

def inBase (base : Nat) (digits : List Char) : Nat :=
  digits.foldl (fun n c => base * n + digitValue c) 0

/-- Digits of a whole number: no zero in front of others. -/
def wholeDigits? (cs : List Char) : Option (List Char) :=
  match groupedDigits? Char.isDigit cs with
  | some ('0' :: _ :: _) => none
  | other => other

def isExponentMark (c : Char) : Bool := c == 'e' || c == 'E'

/-- The digits of an exponent behind its mark, with its sign. -/
def exponent? (cs : List Char) : Option (List Char) :=
  let sign := cs.take 1 |>.filter fun c => c == '+' || c == '-'
  (groupedDigits? Char.isDigit (cs.drop sign.length)).map (sign ++ ·)

/-- A number with a fraction or an exponent or both. -/
def float? (cs : List Char) : Option Toml := do
  let mantissa := cs.takeWhile fun c => !isExponentMark c
  let power := cs.drop mantissa.length
  let whole := mantissa.takeWhile (· != '.')
  let fraction := mantissa.drop whole.length
  let whole ← wholeDigits? whole
  let fraction ← if fraction = [] then some [] else
    (groupedDigits? Char.isDigit (fraction.drop 1)).map ('.' :: ·)
  let power ← if power = [] then some [] else (exponent? (power.drop 1)).map ('e' :: ·)
  let value ← Decimal.read? (whole ++ fraction ++ power)
  if fraction ≠ [] ∨ power ≠ [] then some (.float value.toBinary64.isFinite) else none

/-- A number with an optional sign in front. -/
def signedNumber? (cs : List Char) : Option Toml :=
  let sign := cs.take 1 |>.filter fun c => c == '+' || c == '-'
  let cs := cs.drop sign.length
  if cs = "inf".toList ∨ cs = "nan".toList then some (.float true)
  else
    match wholeDigits? cs with
    | some ds =>
      let n : Int := inBase 10 ds
      some (.integer (some (if sign = ['-'] then -n else n)))
    | none => float? cs

/-- A whole number behind the mark of its base. The digits may be missing. -/
def basedNumber? (base : Nat) (isDigit : Char → Bool) (cs : List Char) : Option Toml :=
  if cs = [] then some (.integer none)
  else (groupedDigits? isDigit cs).map fun ds => .integer (some (inBase base ds))

def number? : List Char → Option Toml
  | '0' :: 'x' :: cs => basedNumber? 16 isHex cs
  | '0' :: 'o' :: cs => basedNumber? 8 isOctal cs
  | '0' :: 'b' :: cs => basedNumber? 2 isBinary cs
  | cs => signedNumber? cs

/-- The number that exactly `width` digits at the start of a text write, and the rest. -/
def fixed? (width : Nat) (cs : List Char) : Option (Nat × List Char) :=
  let ds := cs.take width
  if ds.length = width ∧ ds.all Char.isDigit then some (inBase 10 ds, cs.drop width) else none

def mark? (c : Char) : List Char → Option (List Char)
  | d :: cs => if d = c then some cs else none
  | [] => none

/-- A date at the start of a text: what is left behind it. -/
def readDate? (cs : List Char) : Option (List Char) := do
  let (year, cs) ← fixed? 4 cs
  let cs ← mark? '-' cs
  let (month, cs) ← fixed? 2 cs
  let cs ← mark? '-' cs
  let (day, cs) ← fixed? 2 cs
  if (⟨year, month, day⟩ : Date).Valid then some cs else none

/-- Digits behind a point, if one is next: what is left behind them. -/
def readFraction? : List Char → Option (List Char)
  | '.' :: c :: cs => if c.isDigit then some (cs.dropWhile Char.isDigit) else none
  | cs => some cs

/-- The seconds of a time of day, which may be missing: what is left behind them. -/
def readSeconds? : List Char → Option (List Char)
  | ':' :: cs => do
    let (second, cs) ← fixed? 2 cs
    if second ≤ 60 then readFraction? cs else none
  | cs => some cs

/-- A time of day at the start of a text: what is left behind it. -/
def readTime? (cs : List Char) : Option (List Char) := do
  let (hour, cs) ← fixed? 2 cs
  let cs ← mark? ':' cs
  let (minute, cs) ← fixed? 2 cs
  if hour ≤ 23 ∧ minute ≤ 59 then readSeconds? cs else none

/-- An offset that makes up a whole text, or nothing. -/
def isOffset : List Char → Bool
  | [] | ['Z'] | ['z'] => true
  | c :: cs =>
    (c == '+' || c == '-') &&
      match (do
        let (hours, cs) ← fixed? 2 cs
        let cs ← mark? ':' cs
        let (minutes, cs) ← fixed? 2 cs
        some (hours, minutes, cs)) with
      | some (hours, minutes, rest) => hours ≤ 23 && minutes ≤ 59 && rest.isEmpty
      | none => false

def isTimeMark (c : Char) : Bool := c == 'T' || c == 't' || c == ' '

/-- A date, a time of day, or both with or without an offset. -/
def isMoment (cs : List Char) : Bool :=
  match readDate? cs with
  | some [] => true
  | some (c :: cs) => isTimeMark c && (readTime? cs).any isOffset
  | none => readTime? cs == some []

/-- The value of a scalar without quotes. -/
def scalar? (cs : List Char) : Option Toml :=
  if cs = "true".toList then some (.boolean true)
  else if cs = "false".toList then some (.boolean false)
  else if isMoment cs then some .moment
  else number? cs

def isScalarChar (c : Char) : Bool :=
  c.isAlphanum || c == '_' || c == '+' || c == '-' || c == '.' || c == ':'

/-- The scalar at the start of a text, and the rest. A blank in it stands between a date and a time. -/
def takeScalar (cs : List Char) : List Char × List Char :=
  let first := cs.takeWhile isScalarChar
  match cs.drop first.length with
  | ' ' :: c :: rest =>
    if readDate? first = some [] ∧ c.isDigit then
      let second := (c :: rest).takeWhile isScalarChar
      (first ++ ' ' :: second, (c :: rest).drop second.length)
    else (first, ' ' :: c :: rest)
  | rest => (first, rest)

end ODataQuery.Toml
