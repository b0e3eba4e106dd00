import ODataQuery.Text.Digits
import ODataQuery.Time.Calendar

/-!
Moments in Coordinated Universal Time, and their written form. A leap second is the second half of the
second before it: its nanoseconds run from a thousand million on.
-/

namespace ODataQuery

/-- A moment: seconds from the start of 1970, and nanoseconds within the second. -/
structure Instant where
  seconds : Int
  nanos : Nat
  deriving DecidableEq

namespace Instant

open Text (padded)

/-- Four digits for the years from 0 to 9999. All other years have a sign and at least four digits. -/
def yearText (year : Int) : List Char :=
  if 0 ≤ year ∧ year ≤ 9999 then padded 4 year.toNat
  else (if year < 0 then '-' else '+') :: padded 4 year.natAbs

def dateText (d : Date) : List Char :=
  yearText d.year ++ '-' :: padded 2 d.month ++ '-' :: padded 2 d.day

/-- The moment to the millisecond, the rest cut off. -/
def text (t : Instant) : List Char :=
  let clock := (t.seconds % 86400).toNat
  let leap := t.nanos / 1000000000
  dateText (Date.ofDays (t.seconds / 86400)) ++
    'T' :: padded 2 (clock / 3600) ++ ':' :: padded 2 (clock / 60 % 60) ++
    ':' :: padded 2 (clock % 60 + leap) ++ '.' :: padded 3 (t.nanos % 1000000000 / 1000000) ++ ['Z']

/-- The moment of a date and a time of day. Second 60 is the leap second after second 59. -/
def ofClock? (date : Date) (hour minute second nano : Nat) : Option Instant :=
  if date.Valid ∧ hour ≤ 23 ∧ minute ≤ 59 ∧ second ≤ 60 then
    some ⟨date.toDays * 86400 + (hour * 3600 + minute * 60 + min second 59 : Nat),
      nano + second / 60 * 1000000000⟩
  else none

/-- The moment that lies `seconds` earlier. -/
def earlier (t : Instant) (seconds : Int) : Instant := { t with seconds := t.seconds - seconds }

end Instant

end ODataQuery
