/-!
The Gregorian calendar, extended to all years. Days are counted from the first of January 1970, and the
day counted and the date determine each other.
-/

namespace ODataQuery

structure Date where
  year : Int
  month : Nat
  day : Nat
  deriving DecidableEq

namespace Date

def isLeap (year : Int) : Bool := year % 4 == 0 && (year % 100 != 0 || year % 400 == 0)

def daysInMonth (year : Int) (month : Nat) : Nat :=
  if month = 2 then (if isLeap year then 29 else 28)
  else if month = 4 ∨ month = 6 ∨ month = 9 ∨ month = 11 then 30
  else 31

/-- The earliest and the latest year with dates. -/
def firstYear : Int := -262143
def lastYear : Int := 262142

/-- A day that the calendar has. -/
def Valid (d : Date) : Prop :=
  firstYear ≤ d.year ∧ d.year ≤ lastYear ∧ 1 ≤ d.month ∧ d.month ≤ 12 ∧
    1 ≤ d.day ∧ d.day ≤ daysInMonth d.year d.month

instance (d : Date) : Decidable d.Valid := by unfold Valid; infer_instance

/-- The days before the first of January of a year, counted from 1970. -/
def daysBeforeYear (year : Int) : Int :=
  let past := year - 1
  365 * past + past / 4 - past / 100 + past / 400 - 719162

/-- The days of a year before the first of a month. -/
def daysBeforeMonth (year : Int) : Nat → Nat
  | 0 | 1 => 0
  | month + 1 => daysBeforeMonth year month + daysInMonth year month

/-- The day counted from the first of January 1970. -/
def toDays (d : Date) : Int :=
  daysBeforeYear d.year + daysBeforeMonth d.year d.month + (d.day - 1)

/-- The year that a day lies in. The quotient is this year or the one before. -/
def yearOf (days : Int) : Int :=
  let guess := (days + 719162) * 400 / 146097
  if days < daysBeforeYear (guess + 1) then guess else
  if days < daysBeforeYear (guess + 2) then guess + 1 else guess + 2

/-- The month and day at which a walk from a month on ends, `rest` days after its first. The last
argument bounds the walk. -/
def monthDay (year : Int) (rest : Nat) (month : Nat) : Nat → Nat × Nat
  | 0 => (month, rest + 1)
  | more + 1 =>
    if rest < daysInMonth year month then (month, rest + 1)
    else monthDay year (rest - daysInMonth year month) (month + 1) more

/-- The date of a day. -/
def ofDays (days : Int) : Date :=
  let year := yearOf days
  let (month, day) := monthDay year (days - daysBeforeYear year).toNat 1 11
  ⟨year, month, day⟩

end Date

end ODataQuery
