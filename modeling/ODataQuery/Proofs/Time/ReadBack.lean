import ODataQuery.Filter.Literal
import ODataQuery.Proofs.Attribute.Marks
import ODataQuery.Proofs.Time.Moments

/-!
Moments that are written and read again. A moment of a year with four digits is written as a stamp, seven fields of
fixed width, and the stamp is read back as the moment to the millisecond. Other years are written with a sign. These
texts end like a stamp, in a letter that no layout has, and begin unlike one, so that nothing reads them.
-/

namespace ODataQuery

open Text

/-- A row of so many digits. -/
structure Text.Field (width : Nat) where
  digits : List Char
  length_eq : digits.length = width
  isDigit : ∀ c ∈ digits, c.isDigit = true

namespace Text.Field

variable {width : Nat}

def number (f : Field width) : Nat := ofDigits f.digits

/-- The field of a number that is not too large for it. -/
def ofNat (width n : Nat) (hwidth : 0 < width) (hn : n < 10 ^ width) : Field width where
  digits := padded width n
  length_eq := length_padded hwidth hn
  isDigit := (isDigits_padded width n).2

@[simp]
theorem number_ofNat {n : Nat} (hwidth : 0 < width) (hn : n < 10 ^ width) : (ofNat width n hwidth hn).number = n :=
  ofDigits_padded width n

theorem isDigits (f : Field (width + 1)) : IsDigits f.digits := by
  refine ⟨fun hnil => ?_, f.isDigit⟩
  have hlength := f.length_eq
  rw [hnil] at hlength
  cases hlength

@[simp]
theorem padded_number (f : Field (width + 1)) : padded (width + 1) f.number = f.digits := by
  have hpadded := padded_ofDigits f.isDigits
  rwa [f.length_eq] at hpadded

theorem number_lt (f : Field width) : f.number < 10 ^ width := by
  have hlt := ofDigits_lt f.isDigit
  rwa [f.length_eq] at hlt

theorem figures (f : Field width) : Figures f.digits := fun c hc => isFigure_of_isDigit (f.isDigit c hc)

end Text.Field

namespace Time

/-- The fields of `YYYY-MM-DDTHH:MM:SS.mmmZ`. -/
structure Stamp where
  year : Field 4
  month : Field 2
  day : Field 2
  hour : Field 2
  minute : Field 2
  second : Field 2
  milli : Field 3

namespace Stamp

def text (s : Stamp) : List Char :=
  s.year.digits ++ '-' :: s.month.digits ++ '-' :: s.day.digits ++ 'T' :: s.hour.digits ++ ':' :: s.minute.digits ++
    ':' :: s.second.digits ++ '.' :: s.milli.digits ++ ['Z']

/-- The moment of a stamp, if there is one. -/
def moment? (s : Stamp) : Option Instant :=
  Instant.ofClock? ⟨s.year.number, s.month.number, s.day.number⟩ s.hour.number s.minute.number s.second.number
    (s.milli.number * 1000000)

theorem figures_text (s : Stamp) : Figures s.text := by
  simp only [text, figures_append, figures_cons, s.year.figures, s.month.figures, s.day.figures, s.hour.figures,
    s.minute.figures, s.second.figures, s.milli.figures]
  decide

end Stamp

/-! ### Stamps are read strictly -/

variable {cs rest : List Char} {width : Nat}

theorem readExactly?_field (f : Field width) (rest : List Char) :
    readExactly? width (f.digits ++ rest) = some (f.number, rest) := by
  rw [readExactly?, digitsUpTo_append f.isDigit f.length_eq.le (.inl f.length_eq)]
  exact if_pos f.length_eq

theorem readMark?_self (mark : Char) (rest : List Char) : readMark? mark (mark :: rest) = some rest := if_pos rfl

theorem readFraction?_milli (f : Field 3) :
    readFraction? ('.' :: (f.digits ++ ['Z'])) = some (f.number * 1000000, ['Z']) := by
  have hlength := f.length_eq
  have hread : digitsUpTo 9 (f.digits ++ ['Z']) = (f.digits, ['Z']) := by
    refine digitsUpTo_append f.isDigit (by omega) (.inr fun c hc => ?_)
    obtain rfl := Option.some.inj hc
    rfl
  rw [readFraction?, hread]
  dsimp only
  rw [if_neg f.isDigits.1, hlength]
  rfl

/-- The six fields of a date and a time of day are read, with a mark between the two. -/
theorem readStrict?_fields (year : Field 4) (month day hour minute second : Field 2) {mark : Char}
    (hmark : mark = 'T' ∨ mark = ' ') (rest : List Char) :
    readStrict? (year.digits ++ '-' :: month.digits ++ '-' :: day.digits ++ mark :: hour.digits ++
        ':' :: minute.digits ++ ':' :: second.digits ++ rest) = (readFraction? rest).bind fun (nano, zone) =>
      (readOffset? zone).bind fun ahead =>
        (Instant.ofClock? ⟨year.number, month.number, day.number⟩ hour.number minute.number second.number nano).map
          (·.earlier ahead) := by
  have hclock : ∀ cs, (readMark? 'T' (mark :: cs) <|> readMark? 't' (mark :: cs) <|> readMark? ' ' (mark :: cs)) =
      some cs := by
    intro cs
    rcases hmark with rfl | rfl <;> rfl
  simp only [List.append_assoc, List.cons_append]
  dsimp only [readStrict?, Option.bind_eq_bind]
  rw [readExactly?_field year, Option.bind_some, readMark?_self, Option.bind_some, readExactly?_field month,
    Option.bind_some, readMark?_self, Option.bind_some, readExactly?_field day, Option.bind_some, hclock,
    Option.bind_some, readExactly?_field hour, Option.bind_some, readMark?_self, Option.bind_some,
    readExactly?_field minute, Option.bind_some, readMark?_self, Option.bind_some, readExactly?_field second,
    Option.bind_some]
  simp only [Option.map_eq_bind]
  rfl

theorem readStrict?_stamp (s : Stamp) : readStrict? s.text = s.moment? := by
  have hoffset : readOffset? ['Z'] = some 0 := by decide
  have hsame : (fun t : Instant => t.earlier 0) = id := funext fun t => by rw [Instant.earlier, sub_zero, id]
  have hread := readStrict?_fields s.year s.month s.day s.hour s.minute s.second (.inl rfl)
    ('.' :: s.milli.digits ++ ['Z'])
  rw [← List.append_assoc] at hread
  rw [Stamp.text, hread, List.cons_append, readFraction?_milli, Option.bind_some]
  dsimp only
  rw [hoffset, Option.bind_some, hsame, Option.map_id_apply, Stamp.moment?]

/-- A text that does not begin with a digit is not read strictly. -/
theorem readStrict?_of_head {c : Char} (hc : c.isDigit = false) : readStrict? (c :: cs) = none := by
  have hyear : readExactly? 4 (c :: cs) = none := by
    rw [readExactly?, digitsUpTo, hc, if_neg Bool.false_ne_true]
    rfl
  rw [readStrict?, hyear]
  rfl

/-! ### No layout reads a stamp -/

theorem readLayout?_eq_none {layout : List Piece} (hlayout : layout ∈ dateTimeLayouts ++ dateLayouts) (hz : 'Z' ∈ cs) :
    readLayout? layout cs = none := by
  rw [Option.eq_none_iff_forall_not_mem]
  intro t ht
  have hrows : ∀ layout ∈ dateTimeLayouts ++ dateLayouts, ∀ row ∈ rows (layout.map Piece.runs), 'Z' ∉ row := by decide
  exact hrows layout hlayout _ (marks_of_readLayout? ht) (List.mem_filter.mpr ⟨hz, by decide⟩)

theorem read?_of_mem_z (hz : 'Z' ∈ cs) : read? cs = readStrict? cs := by
  have hnone : ∀ {layouts}, layouts ⊆ dateTimeLayouts ++ dateLayouts → layouts.findSome? (readLayout? · cs) = none := by
    intro layouts hsub
    exact List.findSome?_eq_none_iff.mpr fun layout hlayout => readLayout?_eq_none (hsub hlayout) hz
  rw [read?, hnone (List.subset_append_left _ _), hnone (List.subset_append_right _ _)]
  simp

end Time

namespace Instant

open Time

variable {t : Instant}

/-! ### Moments and stamps -/

theorem ofText?_stamp (s : Stamp) : ofText? (String.ofList s.text) = s.moment? := by
  rw [ofText?, String.toList_ofList, trim_figures s.figures_text, read?_of_mem_z (by simp [Stamp.text]), readStrict?_stamp]

/-- The moment without the part of a millisecond. -/
def toMilli (t : Instant) : Instant := ⟨t.seconds, t.nanos / 1000000 * 1000000⟩

/-- A moment of a year with four digits is written as a stamp, the one of the moment to the millisecond. -/
theorem exists_stamp (h : t.Proper) (hyear : 0 ≤ (Date.ofDays t.day).year ∧ (Date.ofDays t.day).year ≤ 9999) :
    ∃ s : Stamp, t.text = s.text ∧ s.moment? = some t.toMilli := by
  have hdate : (Date.ofDays t.day).Proper := (Date.valid_iff.mp h.valid).2
  have hnanos := h.nanos_lt
  have hleap := h.leap
  refine ⟨⟨.ofNat 4 (Date.ofDays t.day).year.toNat (by decide) (by omega),
    .ofNat 2 (Date.ofDays t.day).month (by decide) (Nat.lt_of_le_of_lt hdate.month_le (by decide)),
    .ofNat 2 (Date.ofDays t.day).day (by decide) (Date.day_lt hdate),
    .ofNat 2 ((t.seconds % 86400).toNat / 3600) (by decide) (by omega),
    .ofNat 2 ((t.seconds % 86400).toNat / 60 % 60) (by decide) (by omega),
    .ofNat 2 ((t.seconds % 86400).toNat % 60 + t.nanos / 1000000000) (by decide) (by omega),
    .ofNat 3 (t.nanos % 1000000000 / 1000000) (by decide) (by omega)⟩, ?_, ?_⟩
  · have hfour : yearText (Date.ofDays t.day).year = padded 4 (Date.ofDays t.day).year.toNat := if_pos hyear
    rw [text, dateText, ← day, hfour]
    rfl
  · have hsame : ((Date.ofDays t.day).year.toNat : Int) = (Date.ofDays t.day).year := Int.toNat_of_nonneg hyear.1
    have hdays := (Date.ofDays_spec t.day).2
    simp only [Stamp.moment?, Field.number_ofNat, hsame, ofClock?_eq_some_iff]
    refine ⟨⟨h.valid, by omega, by omega, by omega⟩, ?_⟩
    rw [day] at hdays
    simp only [toMilli, mk.injEq, hdays, day]
    omega

/-- The moment of a stamp is written as the stamp. -/
theorem text_of_moment? {s : Stamp} (h : s.moment? = some t) : t.text = s.text := by
  have hday := day_ofClock? h
  have hmilli := s.milli.number_lt
  have hyear := s.year.number_lt
  obtain ⟨⟨hvalid, hhour, hminute, hsecond⟩, ht⟩ := ofClock?_eq_some_iff.mp h
  have hdate : Date.ofDays t.day = ⟨s.year.number, s.month.number, s.day.number⟩ := by
    rw [hday, Date.ofDays_toDays (Date.valid_iff.mp hvalid).2]
  have hfour : yearText s.year.number = padded 4 s.year.number := if_pos (by omega)
  -- A leap second counts as second 59, and as a second more by its nanoseconds.
  have hclock : (t.seconds % 86400).toNat = s.hour.number * 3600 + s.minute.number * 60 + min s.second.number 59 := by
    rw [ht]
    dsimp only
    omega
  have hnanos : t.nanos = s.milli.number * 1000000 + s.second.number / 60 * 1000000000 := by rw [ht]
  have hhours : (t.seconds % 86400).toNat / 3600 = s.hour.number := by omega
  have hminutes : (t.seconds % 86400).toNat / 60 % 60 = s.minute.number := by omega
  have hseconds : (t.seconds % 86400).toNat % 60 + t.nanos / 1000000000 = s.second.number := by omega
  have hmillis : t.nanos % 1000000000 / 1000000 = s.milli.number := by omega
  rw [text, dateText, ← day, hdate]
  dsimp only
  rw [hfour, hhours, hminutes, hseconds, hmillis]
  simp only [Field.padded_number]
  rfl

/-- Other years begin with a sign, and their moments are not read back. -/
theorem read?_text_of_year (h : ¬ (0 ≤ (Date.ofDays t.day).year ∧ (Date.ofDays t.day).year ≤ 9999)) :
    read? t.text = none := by
  obtain ⟨c, rest, htext, hc⟩ : ∃ c rest, t.text = c :: rest ∧ c.isDigit = false := by
    have hyear : yearText (Date.ofDays t.day).year = _ := if_neg h
    rw [text, dateText, ← day, hyear]
    refine ⟨_, _, rfl, ?_⟩
    split <;> decide
  rw [read?_of_mem_z (by simp [text]), htext, readStrict?_of_head hc]

/-- A moment that is read from a value is written as a stamp, if its year has four digits, and the stamp is read back
as the moment to the millisecond. Otherwise what is written is not read. And if a stamp is read, the moment is written as
the stamp. -/
theorem moment_read_back :
    (∀ raw t, ofText? raw = some t →
      ∃ date : Date, (date.Valid ∧ date.toDays = t.seconds / 86400) ∧
        (∀ date' : Date, date'.Valid → date'.toDays = t.seconds / 86400 → date' = date) ∧
        ∃ b, (Literal.instant t).render = "'" ++ b ++ "'" ∧
          (0 ≤ date.year ∧ date.year ≤ 9999 → (∃ s : Stamp, b.toList = s.text) ∧
            ofText? b = some ⟨t.seconds, t.nanos / 1000000 * 1000000⟩) ∧
          (¬ (0 ≤ date.year ∧ date.year ≤ 9999) → ofText? b = none)) ∧
    ∀ (s : Stamp) t, ofText? (String.ofList s.text) = some t →
      (Literal.instant t).render = "'" ++ String.ofList s.text ++ "'" := by
  constructor
  · intro raw t ht
    have hproper := proper_of_read? ht
    have hdays := (Date.ofDays_spec t.day).2
    refine ⟨Date.ofDays t.day, ⟨hproper.valid, hdays⟩, fun date' hvalid' hdays' => ?_, String.ofList t.text, rfl,
      fun hyear => ?_, fun hyear => ?_⟩
    · rw [day, ← hdays', Date.ofDays_toDays (Date.valid_iff.mp hvalid').2]
    · obtain ⟨s, htext, hmoment⟩ := exists_stamp hproper hyear
      rw [htext]
      exact ⟨⟨s, String.toList_ofList⟩, (ofText?_stamp s).trans hmoment⟩
    · rw [ofText?, String.toList_ofList, trim_figures (figures_text t)]
      exact read?_text_of_year hyear
  · intro s t ht
    rw [ofText?_stamp] at ht
    rw [Literal.render, text_of_moment? ht]

/-- An hour behind Universal Time the last hour of the year 9999 is in the next year, whose moments are not read back. -/
example : (ofText? "9999-12-31T23:30:00-01:00").map (·.text) = some "+10000-01-01T00:30:00.000Z".toList ∧
    ofText? "+10000-01-01T00:30:00.000Z" = none ∧
    (ofText? "2016-12-31T23:59:60.9876-00:30").map (·.text) = some "2017-01-01T00:29:60.987Z".toList := by
  decide +kernel

end Instant

end ODataQuery
