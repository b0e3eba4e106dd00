/-!
Double-precision numbers as exact values. The magnitudes are counted upward from zero: each is named by
its rank, and infinity is the last. The rank of a magnitude is also its bit pattern, and its value is a
whole number of units of `2 ^ -1074`, the least positive magnitude.
-/

namespace ODataQuery

/-- The ranks between one doubling of the spacing and the next: `2 ^ 52`. -/
def Magnitude.block : Nat := 4503599627370496

/-- The rank of infinity. -/
def Magnitude.top : Nat := 2047 * block

/-- An absolute value, by its rank among all of them. -/
structure Magnitude where
  rank : Nat
  le_top : rank ≤ Magnitude.top
  deriving DecidableEq

/-- A double-precision number. There is one `nan`, and there are two zeros. -/
inductive Binary64 where
  | nan
  | signed (negative : Bool) (magnitude : Magnitude)
  deriving DecidableEq

namespace Magnitude

/-- The magnitude of a rank, infinity from there on. -/
def ofRank (rank : Nat) : Magnitude := ⟨min rank top, Nat.min_le_right _ _⟩

def zero : Magnitude := ofRank 0
def infinity : Magnitude := ofRank top

def isInfinite (m : Magnitude) : Bool := m.rank == top

/-- How many times the spacing around the magnitude doubles the least one. -/
def scale (m : Magnitude) : Nat := m.rank / block - 1

/-- The exact value of a finite magnitude, in units of `2 ^ -1074`. -/
def units (m : Magnitude) : Nat := (m.rank - m.scale * block) * Nat.pow 2 m.scale

/-- The whole number nearest to a quotient, the even one of two. -/
def nearestEven (num den : Nat) : Nat :=
  let q := num / den
  let r := num % den
  if 2 * r < den then q else if den < 2 * r then q + 1 else q + q % 2

/-- The magnitude nearest to `num / den` units, the one of even rank of two. -/
def nearest (num den : Nat) : Magnitude :=
  let scale := (num / den).log2 - 52
  ofRank (scale * block + nearestEven num (den * Nat.pow 2 scale))

end Magnitude

namespace Binary64

def zero : Binary64 := .signed false .zero
def infinity (negative : Bool) : Binary64 := .signed negative .infinity

def isNaN : Binary64 → Bool
  | nan => true
  | signed .. => false

def isFinite : Binary64 → Bool
  | nan => false
  | signed _ m => !m.isInfinite

/-- The bit that is set in negative numbers: `2 ^ 63`. -/
def signBit : Nat := 9223372036854775808

/-- The number with a given bit pattern. All patterns beyond infinity are `nan`. -/
def ofBits (bits : Nat) : Binary64 :=
  let rank := bits % signBit
  if h : rank ≤ Magnitude.top then signed (bits / signBit % 2 == 1) ⟨rank, h⟩ else nan

/-- The bit pattern of a number, if it is one. -/
def toBits? : Binary64 → Option Nat
  | nan => none
  | signed negative m => some ((if negative then signBit else 0) + m.rank)

end Binary64

end ODataQuery
