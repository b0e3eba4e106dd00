import ODataQuery.Proofs.Text.Digits
import ODataQuery.Proofs.Time.Calendar
import ODataQuery.Time.Spelling

/-!
The moments that values can spell. Their day is one of the calendar, and a leap second is the last of a minute, since
an offset moves a moment by whole minutes and by less than a day.
-/

namespace ODataQuery

open Text

namespace Instant

/-- The day on which a moment lies. -/
def day (t : Instant) : Int := t.seconds / 86400

/-- The day is in the calendar, and a leap second follows second 59. -/
structure Proper (t : Instant) : Prop where
  valid : (Date.ofDays t.day).Valid
  nanos_lt : t.nanos < 2000000000
  leap : 1000000000 ≤ t.nanos → t.seconds % 60 = 59

variable {date : Date} {hour minute second nano : Nat} {t : Instant}

theorem ofClock?_eq_some_iff : ofClock? date hour minute second nano = some t ↔
    (date.Valid ∧ hour ≤ 23 ∧ minute ≤ 59 ∧ second ≤ 60) ∧
      t = ⟨date.toDays * 86400 + (hour * 3600 + minute * 60 + min second 59 : Nat), nano + second / 60 * 1000000000⟩ := by
  rw [ofClock?]
  split
  · rename_i h
    exact ⟨fun ht => ⟨h, (Option.some.inj ht).symm⟩, fun ht => congrArg some ht.2.symm⟩
  · rename_i h
    exact ⟨nofun, fun ht => absurd ht.1 h⟩

theorem day_ofClock? (h : ofClock? date hour minute second nano = some t) : t.day = date.toDays := by
  obtain ⟨⟨-, hhour, hminute, -⟩, rfl⟩ := ofClock?_eq_some_iff.mp h
  simp only [day]
  omega

theorem proper_ofClock? (hnano : nano < 1000000000) (h : ofClock? date hour minute second nano = some t) :
    t.Proper := by
  have hday := day_ofClock? h
  obtain ⟨⟨hvalid, hhour, hminute, hsecond⟩, rfl⟩ := ofClock?_eq_some_iff.mp h
  constructor
  · rw [hday, Date.ofDays_toDays (Date.valid_iff.mp hvalid).2]
    exact hvalid
  · dsimp only
    omega
  · dsimp only
    omega

/-- The days next to the years of four digits are in the calendar. -/
theorem valid_ofDays {days : Int} (hlow : Date.daysBeforeYear 0 - 1 ≤ days) (hhigh : days ≤ Date.daysBeforeYear 10000) :
    (Date.ofDays days).Valid := by
  obtain ⟨hstart, hend⟩ := Date.yearOf_bounds days
  have hbefore : Date.daysBeforeYear (-1) ≤ Date.daysBeforeYear 0 - 1 := by decide
  have hbehind : Date.daysBeforeYear 10000 < Date.daysBeforeYear 10001 := by decide
  have hfirst : -1 ≤ Date.yearOf days := Date.year_le (hbefore.trans hlow) hend
  have hlast : Date.yearOf days ≤ 10000 := Date.year_le hstart (hhigh.trans_lt hbehind)
  refine Date.valid_iff.mpr ⟨?_, (Date.ofDays_spec days).1⟩
  rw [Date.year_ofDays, Date.firstYear, Date.lastYear]
  omega

/-- An offset keeps a leap second where it is, and may leave the years of four digits by a day. -/
theorem proper_earlier {ahead : Int} (hyear : 0 ≤ date.year ∧ date.year ≤ 9999) (hdate : date.Proper)
    (hday : t.day = date.toDays) (hminutes : ahead % 60 = 0) (hbounds : -86400 < ahead ∧ ahead < 86400) (h : t.Proper) :
    (t.earlier ahead).Proper := by
  obtain ⟨hlow, hhigh⟩ := Date.toDays_bounds hdate
  have hfirst := Date.daysBeforeYear_le hyear.1
  have hlast := Date.daysBeforeYear_le (show date.year + 1 ≤ 10000 by omega)
  refine ⟨?_, h.nanos_lt, fun hleap => ?_⟩
  · have hshift : t.day - 1 ≤ (t.earlier ahead).day ∧ (t.earlier ahead).day ≤ t.day + 1 := by
      simp only [day, earlier]
      omega
    apply valid_ofDays <;> omega
  · have hsecond := h.leap hleap
    simp only [earlier]
    omega

end Instant

namespace Time

variable {cs rest : List Char} {t : Instant}

/-! ### Fields -/

theorem readExactly?_lt {width n : Nat} (h : readExactly? width cs = some (n, rest)) : n < 10 ^ width := by
  have hdigits := (digitsUpTo_bounds width cs).1
  rw [readExactly?] at h
  dsimp only at h
  split at h
  · rename_i hlength
    obtain ⟨rfl, -⟩ := Prod.mk.inj (Option.some.inj h)
    have hlt := ofDigits_lt hdigits
    rwa [hlength] at hlt
  · cases h

/-- A fraction is less than a second. -/
theorem readFraction?_lt {n : Nat} (h : readFraction? cs = some (n, rest)) : n < 1000000000 := by
  by_cases hpoint : ∃ ds, cs = '.' :: ds
  · obtain ⟨ds, rfl⟩ := hpoint
    obtain ⟨hdigits, hlength⟩ := digitsUpTo_bounds 9 ds
    rw [readFraction?] at h
    generalize digitsUpTo 9 ds = read at *
    dsimp only at h
    split at h
    · cases h
    · obtain ⟨rfl, -⟩ := Prod.mk.inj (Option.some.inj h)
      have hlt := ofDigits_lt hdigits
      calc ofDigits read.1 * 10 ^ (9 - read.1.length) < 10 ^ read.1.length * 10 ^ (9 - read.1.length) :=
            Nat.mul_lt_mul_of_pos_right hlt (Nat.pow_pos (by decide))
        _ = 1000000000 := by rw [← pow_add, Nat.add_sub_cancel' hlength]; rfl
  · have hzero : readFraction? cs = some (0, cs) := by
      cases cs with
      | nil => rfl
      | cons c cs =>
          have hc : c ≠ '.' := fun hc => hpoint ⟨cs, hc ▸ rfl⟩
          simp [readFraction?, hc]
    obtain ⟨rfl, -⟩ := Prod.mk.inj (Option.some.inj (hzero.symm.trans h))
    decide

/-- An offset is made of whole minutes and is less than a day. -/
theorem readOffset?_bounds {ahead : Int} (h : readOffset? cs = some ahead) :
    ahead % 60 = 0 ∧ -86400 < ahead ∧ ahead < 86400 := by
  cases cs with
  | nil => cases h
  | cons c cs =>
      rw [readOffset?] at h
      split at h
      · cases h
        decide
      · split at h
        · simp only [Option.bind_eq_bind, Option.bind_eq_some_iff, Prod.exists] at h
          obtain ⟨hours, _, -, _, -, minutes, _, -, h⟩ := h
          split at h
          · obtain rfl := Option.some.inj h
            split <;> omega
          · cases h
        · cases h

theorem nano_of_read? {piece : Piece} {f f' : Fields} (hnano : f.nano < 1000000000)
    (h : piece.read? f cs = some (f', rest)) : f'.nano < 1000000000 := by
  cases piece with
  | year | month | day | hour | minute | second | mark c =>
      obtain ⟨_, -, heq⟩ := Option.map_eq_some_iff.mp h
      cases heq
      exact hnano
  | fraction =>
      obtain ⟨_, hread, heq⟩ := Option.map_eq_some_iff.mp h
      cases heq
      exact readFraction?_lt hread
  | gap =>
      cases h
      exact hnano

theorem nano_of_readPieces? {layout : List Piece} {f f' : Fields} (hnano : f.nano < 1000000000)
    (h : readPieces? layout f cs = some f') : f'.nano < 1000000000 := by
  induction layout generalizing f cs with
  | nil =>
      rw [readPieces?] at h
      split at h
      · cases h
        exact hnano
      · cases h
  | cons piece layout ih =>
      obtain ⟨_, hpiece, hrest⟩ := Option.bind_eq_some_iff.mp h
      exact ih (nano_of_read? hnano hpiece) hrest

/-! ### Moments -/

theorem proper_of_readLayout? {layout : List Piece} (h : readLayout? layout cs = some t) : t.Proper := by
  obtain ⟨f, hread, hclock⟩ := Option.bind_eq_some_iff.mp h
  exact Instant.proper_ofClock? (nano_of_readPieces? (by decide) hread) hclock

/-- A number of so many digits stands at the start of a text, and a mark behind it. -/
def Leads (width : Nat) (cs : List Char) (n : Nat) (mark? : List Char → Option (List Char)) (rest : List Char) : Prop :=
  ∃ behind, readExactly? width cs = some (n, behind) ∧ mark? behind = some rest

/-- The numbers in a strict spelling, and what is left of the text from each of its fields on. -/
structure StrictParts where
  year : Nat
  month : Nat
  day : Nat
  hour : Nat
  minute : Nat
  second : Nat
  nano : Nat
  ahead : Int
  fromMonth : List Char
  fromDay : List Char
  fromHour : List Char
  fromMinute : List Char
  fromSecond : List Char
  fromFraction : List Char
  fromOffset : List Char

namespace StrictParts

/-- A text is spelled strictly, field by field with the marks between them. -/
structure Spells (p : StrictParts) (cs : List Char) : Prop where
  year : Leads 4 cs p.year (readMark? '-') p.fromMonth
  month : Leads 2 p.fromMonth p.month (readMark? '-') p.fromDay
  day : Leads 2 p.fromDay p.day (fun cs => readMark? 'T' cs <|> readMark? 't' cs <|> readMark? ' ' cs) p.fromHour
  hour : Leads 2 p.fromHour p.hour (readMark? ':') p.fromMinute
  minute : Leads 2 p.fromMinute p.minute (readMark? ':') p.fromSecond
  second : readExactly? 2 p.fromSecond = some (p.second, p.fromFraction)
  fraction : readFraction? p.fromFraction = some (p.nano, p.fromOffset)
  offset : readOffset? p.fromOffset = some p.ahead

/-- The moment that a clock in Universal Time would show by these numbers. -/
def clock? (p : StrictParts) : Option Instant :=
  Instant.ofClock? ⟨p.year, p.month, p.day⟩ p.hour p.minute p.second p.nano

end StrictParts

theorem exists_strictParts (h : readStrict? cs = some t) :
    ∃ p : StrictParts, p.Spells cs ∧ ∃ there, p.clock? = some there ∧ t = there.earlier p.ahead := by
  obtain ⟨⟨year, behindYear⟩, hyear, h⟩ := Option.bind_eq_some_iff.mp h
  obtain ⟨fromMonth, hdash, h⟩ := Option.bind_eq_some_iff.mp h
  obtain ⟨⟨month, behindMonth⟩, hmonth, h⟩ := Option.bind_eq_some_iff.mp h
  obtain ⟨fromDay, hdash', h⟩ := Option.bind_eq_some_iff.mp h
  obtain ⟨⟨day, behindDay⟩, hday, h⟩ := Option.bind_eq_some_iff.mp h
  obtain ⟨fromHour, hclock, h⟩ := Option.bind_eq_some_iff.mp h
  obtain ⟨⟨hour, behindHour⟩, hhour, h⟩ := Option.bind_eq_some_iff.mp h
  obtain ⟨fromMinute, hcolon, h⟩ := Option.bind_eq_some_iff.mp h
  obtain ⟨⟨minute, behindMinute⟩, hminute, h⟩ := Option.bind_eq_some_iff.mp h
  obtain ⟨fromSecond, hcolon', h⟩ := Option.bind_eq_some_iff.mp h
  obtain ⟨⟨second, fromFraction⟩, hsecond, h⟩ := Option.bind_eq_some_iff.mp h
  obtain ⟨⟨nano, fromOffset⟩, hnano, h⟩ := Option.bind_eq_some_iff.mp h
  obtain ⟨ahead, hahead, h⟩ := Option.bind_eq_some_iff.mp h
  obtain ⟨there, hthere, ht⟩ := Option.bind_eq_some_iff.mp h
  let p : StrictParts :=
    { year, month, day, hour, minute, second, nano, ahead, fromMonth, fromDay, fromHour, fromMinute, fromSecond,
      fromFraction, fromOffset }
  have spells : p.Spells cs :=
    { year := ⟨behindYear, hyear, hdash⟩
      month := ⟨behindMonth, hmonth, hdash'⟩
      day := ⟨behindDay, hday, hclock⟩
      hour := ⟨behindHour, hhour, hcolon⟩
      minute := ⟨behindMinute, hminute, hcolon'⟩
      second := hsecond
      fraction := hnano
      offset := hahead }
  exact ⟨p, spells, there, hthere, (Option.some.inj ht).symm⟩

theorem proper_of_readStrict? (h : readStrict? cs = some t) : t.Proper := by
  obtain ⟨p, spells, there, hclock, rfl⟩ := exists_strictParts h
  obtain ⟨_, hyear, -⟩ := spells.year
  obtain ⟨hminutes, hbounds⟩ := readOffset?_bounds spells.offset
  obtain ⟨⟨hvalid, -⟩, -⟩ := Instant.ofClock?_eq_some_iff.mp hclock
  have hdigits := readExactly?_lt hyear
  have hfour : 0 ≤ (p.year : Int) ∧ (p.year : Int) ≤ 9999 := by omega
  exact Instant.proper_earlier hfour (Date.valid_iff.mp hvalid).2 (Instant.day_ofClock? hclock) hminutes hbounds
    (Instant.proper_ofClock? (readFraction?_lt spells.fraction) hclock)

theorem proper_of_read? (h : read? cs = some t) : t.Proper := by
  have hlayouts : ∀ {layouts : List (List Piece)}, layouts.findSome? (readLayout? · cs) = some t → t.Proper := by
    intro layouts h
    obtain ⟨layout, -, hlayout⟩ := List.exists_of_findSome?_eq_some h
    exact proper_of_readLayout? hlayout
  simp only [read?, Option.orElse_eq_orElse, Option.orElse_eq_or, Option.or_eq_some_iff] at h
  rcases h with (h | ⟨-, h⟩) | ⟨-, h⟩
  · exact proper_of_readStrict? h
  · exact hlayouts h
  · exact hlayouts h

end Time

end ODataQuery
