import Mathlib.Algebra.Order.Ring.Int
import ODataQuery.Time.Calendar

/-!
Days and dates. The years follow each other without gaps, and so do the months of a year, so that every day has a date
and no two dates of the calendar are the same day. Finding the date of a day is a quotient that may be off by two
years, and a walk through the months.
-/

namespace ODataQuery.Date

/-- The month is one of the twelve, and the day one that the month has in the year. -/
structure Proper (d : Date) : Prop where
  one_le_month : 1 ≤ d.month
  month_le : d.month ≤ 12
  one_le_day : 1 ≤ d.day
  day_le : d.day ≤ daysInMonth d.year d.month

variable {d d' : Date} {year year' days : Int}

theorem valid_iff : d.Valid ↔ (firstYear ≤ d.year ∧ d.year ≤ lastYear) ∧ d.Proper := by
  constructor
  · rintro ⟨hfirst, hlast, hone, hmonth, hday, hdays⟩
    exact ⟨⟨hfirst, hlast⟩, hone, hmonth, hday, hdays⟩
  · rintro ⟨⟨hfirst, hlast⟩, hone, hmonth, hday, hdays⟩
    exact ⟨hfirst, hlast, hone, hmonth, hday, hdays⟩

/-! ### Years -/

theorem isLeap_iff (year : Int) : isLeap year = true ↔ year % 4 = 0 ∧ (year % 100 ≠ 0 ∨ year % 400 = 0) := by
  simp [isLeap]

theorem daysBeforeYear_succ (year : Int) :
    daysBeforeYear (year + 1) = daysBeforeYear year + if isLeap year = true then 366 else 365 := by
  have hleap := isLeap_iff year
  simp only [daysBeforeYear]
  split
  · rename_i h
    have := hleap.mp h
    omega
  · rename_i h
    have := hleap.not.mp h
    omega

theorem daysBeforeYear_lt (h : year < year') : daysBeforeYear year < daysBeforeYear year' := by
  simp only [daysBeforeYear]
  omega

theorem daysBeforeYear_le (h : year ≤ year') : daysBeforeYear year ≤ daysBeforeYear year' := by
  rcases h.lt_or_eq with hlt | rfl
  · exact (daysBeforeYear_lt hlt).le
  · exact le_rfl

/-- A year has a day if the day comes before no later and after no earlier year begins. -/
theorem year_le (h : daysBeforeYear year ≤ days) (h' : days < daysBeforeYear (year' + 1)) : year ≤ year' := by
  by_contra hnot
  have := daysBeforeYear_le (show year' + 1 ≤ year by omega)
  omega

theorem yearOf_bounds (days : Int) : daysBeforeYear (yearOf days) ≤ days ∧ days < daysBeforeYear (yearOf days + 1) := by
  -- The 146097 days of 400 years are spread unevenly over them, by less than a year.
  have hlow : daysBeforeYear ((days + 719162) * 400 / 146097) ≤ days := by
    simp only [daysBeforeYear]
    omega
  have hhigh : days < daysBeforeYear ((days + 719162) * 400 / 146097 + 3) := by
    simp only [daysBeforeYear]
    omega
  rw [yearOf]
  split
  · exact ⟨hlow, ‹_›⟩
  · split
    · exact ⟨not_lt.mp ‹_›, by rwa [add_assoc]⟩
    · exact ⟨not_lt.mp ‹_›, by rwa [add_assoc]⟩

/-! ### Months -/

variable {month month' : Nat}

theorem daysBeforeMonth_succ (year : Int) (h : 1 ≤ month) :
    daysBeforeMonth year (month + 1) = daysBeforeMonth year month + daysInMonth year month := by
  cases month with
  | zero => cases h
  | succ month => rfl

theorem daysBeforeMonth_le (year : Int) (hone : 1 ≤ month) (h : month ≤ month') :
    daysBeforeMonth year month ≤ daysBeforeMonth year month' := by
  induction month', h using Nat.le_induction with
  | base => exact le_rfl
  | succ month' h ih =>
      rw [daysBeforeMonth_succ year (hone.trans h)]
      omega

/-- The months make up the year. -/
theorem daysBeforeMonth_year (year : Int) : daysBeforeMonth year 13 = if isLeap year = true then 366 else 365 := by
  cases h : isLeap year <;> simp [daysBeforeMonth, daysInMonth, h]

theorem daysBeforeYear_add (year : Int) : daysBeforeYear year + daysBeforeMonth year 13 = daysBeforeYear (year + 1) := by
  rw [daysBeforeYear_succ, daysBeforeMonth_year]
  split <;> rfl

/-- The walk ends in a month that has the day. -/
theorem monthDay_bounds (rest more : Nat) (hmonth : 1 ≤ month)
    (hrest : daysBeforeMonth year month + rest < daysBeforeMonth year (month + more + 1)) :
    ∃ m day, monthDay year rest month more = (m, day) ∧ month ≤ m ∧ m ≤ month + more ∧ 1 ≤ day ∧
      day ≤ daysInMonth year m ∧ daysBeforeMonth year m + (day - 1) = daysBeforeMonth year month + rest := by
  induction more generalizing month rest with
  | zero =>
      rw [Nat.add_zero, daysBeforeMonth_succ year hmonth] at hrest
      exact ⟨month, rest + 1, rfl, le_rfl, le_rfl, by omega, by omega, rfl⟩
  | succ more ih =>
      rw [monthDay]
      split
      · exact ⟨month, rest + 1, rfl, le_rfl, by omega, by omega, by omega, rfl⟩
      · have hnext := daysBeforeMonth_succ year hmonth
        have hend : month + (more + 1) + 1 = month + 1 + more + 1 := by omega
        rw [hend] at hrest
        obtain ⟨m, day, hwalk, hlow, hhigh, hone, hday, hsum⟩ :=
          ih (rest - daysInMonth year month) (Nat.le_add_left 1 month) (by omega)
        exact ⟨m, day, hwalk, by omega, by omega, hone, hday, by omega⟩

/-! ### Dates -/

/-- A date lies in its year. -/
theorem toDays_bounds (h : d.Proper) : daysBeforeYear d.year ≤ d.toDays ∧ d.toDays < daysBeforeYear (d.year + 1) := by
  have hmonth := daysBeforeMonth_succ d.year h.one_le_month
  have hlast : d.month + 1 ≤ 13 := Nat.succ_le_succ h.month_le
  have hend := daysBeforeMonth_le d.year (Nat.le_add_left 1 d.month) hlast
  have hyear := daysBeforeYear_add d.year
  have hone := h.one_le_day
  have hday := h.day_le
  rw [toDays]
  omega

theorem eq_of_toDays_eq (h : d.Proper) (h' : d'.Proper) (heq : d.toDays = d'.toDays) : d = d' := by
  obtain ⟨year, month, day⟩ := d
  obtain ⟨year', month', day'⟩ := d'
  obtain ⟨hlow, hhigh⟩ := toDays_bounds h
  obtain ⟨hlow', hhigh'⟩ := toDays_bounds h'
  obtain rfl : year = year' := le_antisymm (year_le hlow (heq ▸ hhigh')) (year_le hlow' (heq ▸ hhigh))
  obtain ⟨hone, -, hday, hdays⟩ := h
  obtain ⟨hone', -, hday', hdays'⟩ := h'
  simp only at hone hone' hday hday' hdays hdays'
  simp only [toDays] at heq
  -- The day of the year lies in one month only.
  have hmonth : ∀ {m m' : Nat}, 1 ≤ m → m < m' → daysBeforeMonth year m + daysInMonth year m ≤ daysBeforeMonth year m' := by
    intro m m' hm hless
    rw [← daysBeforeMonth_succ year hm]
    exact daysBeforeMonth_le year (by omega) hless
  rcases Nat.lt_trichotomy month month' with hless | rfl | hless
  · have := hmonth hone hless
    omega
  · obtain rfl : day = day' := by omega
    rfl
  · have := hmonth hone' hless
    omega

theorem day_lt (h : d.Proper) : d.day < 100 := by
  have hmost : daysInMonth d.year d.month ≤ 31 := by
    rw [daysInMonth]
    split
    · split <;> decide
    · split <;> decide
  have := h.day_le
  omega

theorem year_ofDays (days : Int) : (ofDays days).year = yearOf days := rfl

/-- The date that is found for a day is the one of this day. -/
theorem ofDays_spec (days : Int) : (ofDays days).Proper ∧ (ofDays days).toDays = days := by
  obtain ⟨hlow, hhigh⟩ := yearOf_bounds days
  have hyear := daysBeforeYear_add (yearOf days)
  have hfirst : daysBeforeMonth (yearOf days) 1 = 0 := rfl
  have hrest : daysBeforeMonth (yearOf days) 1 + (days - daysBeforeYear (yearOf days)).toNat <
      daysBeforeMonth (yearOf days) 13 := by omega
  obtain ⟨m, day, hwalk, hm, hm', hone, hday, hsum⟩ := monthDay_bounds _ 11 le_rfl hrest
  have hdate : ofDays days = ⟨yearOf days, m, day⟩ := by
    rw [ofDays]
    dsimp only
    rw [hwalk]
  rw [hdate]
  refine ⟨⟨hm, hm', hone, hday⟩, ?_⟩
  simp only [toDays]
  omega

theorem ofDays_toDays (h : d.Proper) : ofDays d.toDays = d :=
  eq_of_toDays_eq (ofDays_spec _).1 h (ofDays_spec _).2

end ODataQuery.Date
