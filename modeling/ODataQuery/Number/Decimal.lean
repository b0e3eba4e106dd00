import ODataQuery.Number.Binary64
import ODataQuery.Text.Digits

/-!
Decimal numerals: an optional sign, digits with at most one point among or around them, and an optional
exponent. A numeral denotes a whole number times a power of ten, and reading it as a double gives the
nearest one.
-/

namespace ODataQuery

/-- The number `± coefficient * 10 ^ exponent`. -/
structure Decimal where
  negative : Bool
  coefficient : Nat
  exponent : Int
  deriving DecidableEq

namespace Decimal

/-- Whether a sign is there and says minus, and the text behind it. -/
def readSign : List Char → Bool × List Char
  | '-' :: cs => (true, cs)
  | '+' :: cs => (false, cs)
  | cs => (false, cs)

/-- The digits behind a point, if one is next. -/
def readFraction : List Char → List Char × List Char
  | '.' :: cs => Text.readDigits cs
  | cs => ([], cs)

/-- The exponent that makes up the whole rest of a numeral, zero if nothing is left. -/
def readExponent? : List Char → Option Int
  | [] => some 0
  | c :: cs =>
    if c = 'e' ∨ c = 'E' then
      let (negative, cs) := readSign cs
      let (digits, rest) := Text.readDigits cs
      if digits = [] ∨ rest ≠ [] then none
      else some (if negative then -(Text.ofDigits digits : Int) else Text.ofDigits digits)
    else none

/-- The number that a text denotes, if it is a numeral. -/
def read? (text : List Char) : Option Decimal :=
  let (negative, cs) := readSign text
  let (whole, cs) := Text.readDigits cs
  let (fraction, cs) := readFraction cs
  if whole = [] ∧ fraction = [] then none
  else (readExponent? cs).map fun exponent =>
    ⟨negative, Text.ofDigits (whole ++ fraction), exponent - fraction.length⟩

/-- How many digits a positive number has. -/
def width (n : Nat) : Nat := (Text.digits n).length

/-- The magnitude nearest to `coefficient * 10 ^ exponent`. Beyond either end of the range the answer
is known without the power. -/
def nearest (coefficient : Nat) (exponent : Int) : Magnitude :=
  let lead := width coefficient + exponent
  if coefficient = 0 ∨ lead < -330 then .zero
  else if 330 < lead then .infinity
  else if 0 ≤ exponent then .nearest (coefficient * Nat.pow 10 exponent.toNat * Nat.pow 2 1074) 1
  else .nearest (coefficient * Nat.pow 2 1074) (Nat.pow 10 (-exponent).toNat)

/-- The double nearest to the number. -/
def toBinary64 (d : Decimal) : Binary64 := .signed d.negative (nearest d.coefficient d.exponent)

end Decimal

end ODataQuery
