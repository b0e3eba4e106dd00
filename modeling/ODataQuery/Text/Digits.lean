/-!
Rows of decimal digits and the numbers they write.
-/

namespace ODataQuery.Text

/-- The number that a row of digits writes. -/
def ofDigits (ds : List Char) : Nat := Nat.ofDigitChars 10 ds 0

/-- The digits of a number, without zeros in front. -/
def digits (n : Nat) : List Char := Nat.toDigits 10 n

/-- The number in decimal digits. -/
def decimal (n : Nat) : String := String.ofList (digits n)

/-- The digits of a number, with zeros in front up to a given width. -/
def padded (width n : Nat) : List Char := List.replicate (width - (digits n).length) '0' ++ digits n

/-- The digits at the start of a text, and the rest. -/
def readDigits (cs : List Char) : List Char × List Char :=
  (cs.takeWhile Char.isDigit, cs.dropWhile Char.isDigit)

/-- The digits at the start of a text, at most `most`, and the rest. -/
def digitsUpTo : Nat → List Char → List Char × List Char
  | most + 1, c :: cs =>
    if c.isDigit then (c :: (digitsUpTo most cs).1, (digitsUpTo most cs).2) else ([], c :: cs)
  | _, cs => ([], cs)

end ODataQuery.Text
