import ODataQuery.Proofs.Attribute.Classes
import ODataQuery.Proofs.Time.ReadBack

/-!
The spellings of one moment. A clock that shows Universal Time can be written with a letter T or a blank between date
and time, with or without a Z behind them, or by what a clock elsewhere shows and the distance between the two; without
its seconds if these are zero, and at midnight by its date alone, in two orders. All of them are read as the moment of
the clock. Since no text is read in two ways, it is enough that one of the readers reads it.
-/

namespace ODataQuery

open Text

namespace Time

/-- A date of a year with four digits and a time of day, with the digits of a fraction of the second if it has one. -/
structure WallClock where
  date : Date
  hour : Nat
  minute : Nat
  second : Nat
  fraction : List Char := []
  valid : date.Valid
  year_nonneg : 0 ≤ date.year
  year_le : date.year ≤ 9999
  hour_le : hour ≤ 23
  minute_le : minute ≤ 59
  second_le : second ≤ 59
  isDigit : ∀ c ∈ fraction, c.isDigit = true

/-- How far a clock is ahead of Universal Time or behind it, by less than a day. -/
structure Offset where
  behind : Bool
  hours : Nat
  minutes : Nat
  hours_le : hours ≤ 23
  minutes_le : minutes ≤ 59

/-- The nanoseconds in a fraction of a second that is given by its digits, the rest cut off. -/
def nanosOf (ds : List Char) : Nat := ofDigits ds * 10 ^ 9 / 10 ^ ds.length

namespace Offset

def seconds (o : Offset) : Int :=
  if o.behind then -((o.hours * 60 + o.minutes) * 60 : Nat) else ((o.hours * 60 + o.minutes) * 60 : Nat)

def text (o : Offset) : List Char :=
  (if o.behind then '-' else '+') :: padded 2 o.hours ++ ':' :: padded 2 o.minutes

end Offset

namespace WallClock

/-- The seconds from the start of 1970 in Universal Time to what a clock of Universal Time shows. -/
def seconds (w : WallClock) : Int := w.date.toDays * 86400 + (w.hour * 3600 + w.minute * 60 + w.second : Nat)

/-- The moment at which a clock of Universal Time shows this. -/
def moment (w : WallClock) : Instant := ⟨w.seconds, nanosOf w.fraction⟩

/-- What a clock shows there when one of Universal Time shows `w`. -/
def Elsewhere (w : WallClock) (o : Offset) (there : WallClock) : Prop :=
  there.seconds = w.seconds + o.seconds ∧ there.fraction = w.fraction

def OnMinute (w : WallClock) : Prop := w.second = 0 ∧ w.moment.nanos = 0

def AtMidnight (w : WallClock) : Prop := w.hour = 0 ∧ w.minute = 0 ∧ w.OnMinute

def dashed (w : WallClock) : List Char :=
  padded 4 w.date.year.toNat ++ '-' :: padded 2 w.date.month ++ '-' :: padded 2 w.date.day

def slashed (w : WallClock) : List Char :=
  padded 2 w.date.month ++ '/' :: padded 2 w.date.day ++ '/' :: padded 4 w.date.year.toNat

def hourMinute (w : WallClock) : List Char := padded 2 w.hour ++ ':' :: padded 2 w.minute

def fractionText (w : WallClock) : List Char := if w.fraction = [] then [] else '.' :: w.fraction

def timeOfDay (w : WallClock) : List Char := w.hourMinute ++ ':' :: padded 2 w.second ++ w.fractionText

/-- The texts that spell the moment at which a clock of Universal Time shows `w`. -/
inductive Spells (w : WallClock) : List Char → Prop where
  | utc {mark} : mark = 'T' ∨ mark = ' ' → Spells w (w.dashed ++ mark :: w.timeOfDay)
  | zulu {mark} : mark = 'T' ∨ mark = ' ' → Spells w (w.dashed ++ mark :: w.timeOfDay ++ ['Z'])
  | offset {mark there o} : mark = 'T' ∨ mark = ' ' → w.Elsewhere o there →
      Spells w (there.dashed ++ mark :: there.timeOfDay ++ o.text)
  | toMinute {mark} : mark = 'T' ∨ mark = ' ' → w.OnMinute → Spells w (w.dashed ++ mark :: w.hourMinute)
  | dashed : w.AtMidnight → Spells w w.dashed
  | slashed : w.AtMidnight → Spells w w.slashed

end WallClock

/-! ### Fields -/

variable {n : Nat}

theorem readExactly?_padded {width : Nat} (hwidth : 0 < width) (hn : n < 10 ^ width) (rest : List Char) :
    readExactly? width (padded width n ++ rest) = some (n, rest) := by
  have hfield := readExactly?_field (.ofNat width n hwidth hn) rest
  rwa [Field.number_ofNat] at hfield

theorem exists_padded_eq_cons (width n : Nat) : ∃ d ds, padded width n = d :: ds ∧ d.isDigit = true := by
  obtain ⟨hne, hdigits⟩ := isDigits_padded width n
  obtain ⟨d, ds, hcons⟩ := List.exists_cons_of_ne_nil hne
  exact ⟨d, ds, hcons, hdigits d (hcons ▸ List.mem_cons_self)⟩

theorem trimStart_padded (width n : Nat) (rest : List Char) :
    trimStart (padded width n ++ rest) = padded width n ++ rest := by
  obtain ⟨d, ds, hcons, hd⟩ := exists_padded_eq_cons width n
  refine dropBlanks_eq_self fun c hc => ?_
  rw [hcons] at hc
  obtain rfl := Option.some.inj hc
  exact not_isBlank_of_isFigure (isFigure_of_isDigit hd)

theorem readNumber?_padded {most : Nat} (hmost : 0 < most) (hn : n < 10 ^ most) (rest : List Char) :
    readNumber? most (trimStart (padded most n ++ rest)) = some (n, rest) := by
  obtain ⟨d, ds, hcons, -⟩ := exists_padded_eq_cons most n
  have hlength := length_padded hmost hn
  have hread : digitsUpTo most (padded most n ++ rest) = (padded most n, rest) :=
    digitsUpTo_append (isDigits_padded most n).2 hlength.le (.inl hlength)
  have hvalue := ofDigits_padded most n
  rw [hcons] at hread hvalue
  rw [trimStart_padded, readNumber?, hcons, hread]
  exact congrArg some (Prod.ext hvalue rfl)

/-- A year without a sign has four digits. -/
theorem readYear?_padded (hn : n < 10 ^ 4) (rest : List Char) :
    readYear? (trimStart (padded 4 n ++ rest)) = some ((n : Int), rest) := by
  obtain ⟨d, ds, hcons, hd⟩ := exists_padded_eq_cons 4 n
  have hread := readNumber?_padded (by decide) hn rest
  rw [trimStart_padded, hcons, List.cons_append] at hread ⊢
  unfold readYear?
  split
  · rename_i heq
    cases heq
    cases hd
  · rename_i heq
    cases heq
    cases hd
  · rw [hread]
    rfl

/-- A fraction is cut behind its ninth digit. -/
theorem nanosOf_eq {ds : List Char} (h : ∀ c ∈ ds, c.isDigit = true) :
    nanosOf ds = ofDigits (ds.take 9) * 10 ^ (9 - (ds.take 9).length) := by
  rcases Nat.lt_or_ge 9 ds.length with hlong | hshort
  · have hnine : (ds.take 9).length = 9 := List.length_take_of_le hlong.le
    have hrest : ofDigits (ds.drop 9) < 10 ^ (ds.drop 9).length :=
      ofDigits_lt fun c hc => h c (List.mem_of_mem_drop hc)
    have hlength : ds.length = (ds.drop 9).length + 9 := by
      rw [List.length_drop, Nat.sub_add_cancel hlong.le]
    have hvalue : ofDigits ds = 10 ^ (ds.drop 9).length * ofDigits (ds.take 9) + ofDigits (ds.drop 9) := by
      rw [← ofDigits_append, List.take_append_drop]
    rw [nanosOf, hlength, pow_add, Nat.mul_div_mul_right _ _ (Nat.pow_pos (by decide)), hvalue,
      Nat.mul_add_div (Nat.pow_pos (by decide)), Nat.div_eq_of_lt hrest, hnine, Nat.add_zero, Nat.sub_self, pow_zero,
      Nat.mul_one]
  · have hall : ds.take 9 = ds := List.take_of_length_le hshort
    have hnine : 10 ^ 9 = 10 ^ (9 - ds.length) * 10 ^ ds.length := by
      rw [← pow_add, Nat.sub_add_cancel hshort]
    rw [hall, nanosOf, hnine, ← mul_assoc, Nat.mul_div_cancel _ (Nat.pow_pos (by decide))]

/-- What is set behind the digits of a fraction, or in place of one, so that it is no part of it. -/
def Ends (cs : List Char) : Prop := ∀ c ∈ cs.head?, c.isDigit = false ∧ c ≠ '.'

namespace WallClock

variable {w : WallClock} {f : Fields} {rest : List Char}

theorem readFraction?_append (w : WallClock) (hrest : Ends rest) :
    readFraction? (w.fractionText ++ rest) = some (nanosOf w.fraction, rest) := by
  rw [fractionText, nanosOf_eq w.isDigit]
  split
  · rename_i hnone
    rw [hnone, List.nil_append]
    cases rest with
    | nil => rfl
    | cons c rest =>
        have hc : c ≠ '.' := (hrest c rfl).2
        simp [readFraction?, hc, ofDigits]
  · rename_i hsome
    have hdigits : ∀ c ∈ w.fraction.take 9, c.isDigit = true := fun c hc => w.isDigit c (List.mem_of_mem_take hc)
    have hdropped : ∀ c ∈ w.fraction.drop 9, c.isDigit = true := fun c hc => w.isDigit c (List.mem_of_mem_drop hc)
    have hend : rest.dropWhile Char.isDigit = rest := by
      cases rest with
      | nil => rfl
      | cons c rest => exact List.dropWhile_cons_of_neg (by simp [(hrest c rfl).1])
    have hread : digitsUpTo 9 (w.fraction ++ rest) = (w.fraction.take 9, w.fraction.drop 9 ++ rest) := by
      conv_lhs => rw [← List.take_append_drop 9 w.fraction, List.append_assoc]
      refine digitsUpTo_append hdigits (List.length_take_le ..) ?_
      rcases Nat.lt_or_ge 9 w.fraction.length with hlong | hshort
      · exact .inl (List.length_take_of_le hlong.le)
      · rw [List.drop_of_length_le hshort]
        exact .inr fun c hc => (hrest c hc).1
    have hne : w.fraction.take 9 ≠ [] := by simpa using hsome
    rw [List.cons_append, readFraction?, hread]
    dsimp only
    rw [if_neg hne, List.dropWhile_append_of_pos hdropped, hend]
    rfl

/-! ### Clocks -/

theorem year_toNat (w : WallClock) : (w.date.year.toNat : Int) = w.date.year := Int.toNat_of_nonneg w.year_nonneg

theorem date_proper (w : WallClock) : w.date.Proper := (Date.valid_iff.mp w.valid).2

theorem year_lt (w : WallClock) : w.date.year.toNat < 10 ^ 4 := by
  have := w.year_le
  omega

theorem month_lt (w : WallClock) : w.date.month < 10 ^ 2 := by
  have := w.date_proper.month_le
  omega

theorem day_lt (w : WallClock) : w.date.day < 10 ^ 2 := Date.day_lt w.date_proper

theorem hour_lt (w : WallClock) : w.hour < 10 ^ 2 := w.hour_le.trans_lt (by decide)

theorem minute_lt (w : WallClock) : w.minute < 10 ^ 2 := w.minute_le.trans_lt (by decide)

theorem second_lt (w : WallClock) : w.second < 10 ^ 2 := w.second_le.trans_lt (by decide)

theorem ofClock?_eq (w : WallClock) :
    Instant.ofClock? w.date w.hour w.minute w.second (nanosOf w.fraction) = some w.moment := by
  have hsecond := w.second_le
  rw [Instant.ofClock?_eq_some_iff]
  refine ⟨⟨w.valid, w.hour_le, w.minute_le, by omega⟩, ?_⟩
  simp only [moment, seconds, Nat.min_eq_left hsecond, Nat.div_eq_of_lt (Nat.lt_succ_of_le hsecond), Nat.zero_mul,
    Nat.add_zero]

/-! ### The readers -/

/-- A date and a time of day are read strictly, up to the offset behind them. -/
theorem readStrict?_append (w : WallClock) {mark : Char} (hmark : mark = 'T' ∨ mark = ' ') {zone : List Char}
    (hzone : Ends zone) :
    readStrict? (w.dashed ++ mark :: w.timeOfDay ++ zone) = (readOffset? zone).map w.moment.earlier := by
  have htwo : 0 < 2 := by decide
  have hread := readStrict?_fields (.ofNat 4 _ (by decide) w.year_lt) (.ofNat 2 _ htwo w.month_lt)
    (.ofNat 2 _ htwo w.day_lt) (.ofNat 2 _ htwo w.hour_lt) (.ofNat 2 _ htwo w.minute_lt)
    (.ofNat 2 _ htwo w.second_lt) hmark (w.fractionText ++ zone)
  simp only [Field.number_ofNat, w.readFraction?_append hzone, Option.bind_some, w.year_toNat, w.ofClock?_eq,
    Option.map_some] at hread
  simpa only [dashed, timeOfDay, hourMinute, List.append_assoc, List.cons_append, Field.ofNat, Option.map_eq_bind,
    Function.comp_def] using hread

theorem readPieces?_cons (piece : Piece) (pieces : List Piece) (f : Fields) (cs : List Char) :
    readPieces? (piece :: pieces) f cs = (piece.read? f cs).bind fun (f, rest) => readPieces? pieces f rest := rfl

theorem readPieces?_dashed (w : WallClock) (pieces : List Piece) (f : Fields) (rest : List Char) :
    readPieces? (dashedDate ++ pieces) f (w.dashed ++ rest) =
      readPieces? pieces { f with year := w.date.year, month := w.date.month, day := w.date.day } rest := by
  have htwo : 0 < 2 := by decide
  simp only [dashedDate, dashed, List.append_assoc, List.cons_append, List.nil_append, readPieces?_cons, Piece.read?,
    readYear?_padded w.year_lt, readNumber?_padded htwo w.month_lt, readNumber?_padded htwo w.day_lt, readMark?_self,
    w.year_toNat, Option.map_some, Option.bind_some]

theorem readPieces?_slashed (w : WallClock) (f : Fields) :
    readPieces? slashedDate f w.slashed =
      some { f with year := w.date.year, month := w.date.month, day := w.date.day } := by
  have htwo : 0 < 2 := by decide
  have hyear := readYear?_padded w.year_lt []
  rw [List.append_nil, w.year_toNat] at hyear
  simp only [slashedDate, slashed, readPieces?_cons, Piece.read?, hyear, readNumber?_padded htwo w.month_lt,
    readNumber?_padded htwo w.day_lt, readMark?_self, Option.map_some, Option.bind_some, List.append_assoc,
    List.cons_append]
  rfl

theorem readPieces?_clock (w : WallClock) (pieces : List Piece) (f : Fields) (rest : List Char) :
    readPieces? (clock ++ pieces) f (w.hourMinute ++ rest) =
      readPieces? pieces { f with hour := w.hour, minute := w.minute } rest := by
  have htwo : 0 < 2 := by decide
  simp only [clock, hourMinute, List.append_assoc, List.cons_append, List.nil_append, readPieces?_cons, Piece.read?,
    readNumber?_padded htwo w.hour_lt, readNumber?_padded htwo w.minute_lt, readMark?_self, Option.map_some,
    Option.bind_some]

theorem readPieces?_clockSeconds (w : WallClock) (f : Fields) :
    readPieces? clockSeconds f w.timeOfDay =
      some { f with hour := w.hour, minute := w.minute, second := w.second, nano := nanosOf w.fraction } := by
  have htwo : 0 < 2 := by decide
  have hfraction : readFraction? (w.fractionText ++ []) = some (nanosOf w.fraction, []) := w.readFraction?_append nofun
  rw [List.append_nil] at hfraction
  rw [clockSeconds, timeOfDay, List.append_assoc, readPieces?_clock]
  simp only [List.cons_append, readPieces?_cons, Piece.read?, readNumber?_padded htwo w.second_lt, readMark?_self,
    hfraction, Option.map_some, Option.bind_some]
  rfl

def fields (w : WallClock) : Fields where
  year := w.date.year
  month := w.date.month
  day := w.date.day
  hour := w.hour
  minute := w.minute
  second := w.second
  nano := nanosOf w.fraction

theorem readLayout?_of_fields {layout : List Piece} {text : List Char}
    (h : readPieces? layout {} text = some w.fields) :
    readLayout? layout text = some w.moment := by
  rw [readLayout?, h]
  exact w.ofClock?_eq

theorem fields_of_onMinute (h : w.OnMinute) : w.fields =
    { year := w.date.year, month := w.date.month, day := w.date.day, hour := w.hour, minute := w.minute } := by
  have hnano : nanosOf w.fraction = 0 := h.2
  rw [fields, h.1, hnano]

theorem fields_of_atMidnight (h : w.AtMidnight) :
    w.fields = { year := w.date.year, month := w.date.month, day := w.date.day } := by
  rw [fields_of_onMinute h.2.2, h.1, h.2.1]

/-- The piece of a layout that stands for a mark between date and time. -/
def separator (mark : Char) : Piece := if mark = 'T' then .mark 'T' else .gap

theorem readPieces?_separator {mark : Char} (hmark : mark = 'T' ∨ mark = ' ') (pieces : List Piece) (f : Fields)
    (width n : Nat) (rest : List Char) : readPieces? (separator mark :: pieces) f (mark :: (padded width n ++ rest)) =
      readPieces? pieces f (padded width n ++ rest) := by
  rcases hmark with rfl | rfl
  · rfl
  · have hblank : trimStart (' ' :: (padded width n ++ rest)) = trimStart (padded width n ++ rest) := rfl
    rw [trimStart_padded] at hblank
    simp only [separator, readPieces?_cons, Piece.read?, hblank]
    rfl

theorem mem_layouts {mark : Char} (hmark : mark = 'T' ∨ mark = ' ') :
    dashedDate ++ separator mark :: clockSeconds ∈ layouts ∧ dashedDate ++ separator mark :: clock ∈ layouts := by
  rcases hmark with rfl | rfl <;> simp [layouts, dateTimeLayouts, separator]

theorem readLayout?_timeOfDay (w : WallClock) {mark : Char} (hmark : mark = 'T' ∨ mark = ' ') :
    readLayout? (dashedDate ++ separator mark :: clockSeconds) (w.dashed ++ mark :: w.timeOfDay) = some w.moment := by
  have htime := w.readPieces?_clockSeconds { year := w.date.year, month := w.date.month, day := w.date.day }
  apply readLayout?_of_fields
  rw [timeOfDay, hourMinute, List.append_assoc, List.append_assoc] at htime ⊢
  rw [readPieces?_dashed, readPieces?_separator hmark, htime]
  rfl

theorem readLayout?_hourMinute (h : w.OnMinute) {mark : Char} (hmark : mark = 'T' ∨ mark = ' ') :
    readLayout? (dashedDate ++ separator mark :: clock) (w.dashed ++ mark :: w.hourMinute) = some w.moment := by
  have htime := w.readPieces?_clock [] { year := w.date.year, month := w.date.month, day := w.date.day } []
  apply readLayout?_of_fields
  rw [List.append_nil, List.append_nil, hourMinute] at htime
  rw [hourMinute, readPieces?_dashed, readPieces?_separator hmark, htime, fields_of_onMinute h]
  rfl

theorem readLayout?_dashed (h : w.AtMidnight) : readLayout? dashedDate w.dashed = some w.moment := by
  have hdate := w.readPieces?_dashed [] {} []
  apply readLayout?_of_fields
  rw [List.append_nil, List.append_nil] at hdate
  rw [hdate, fields_of_atMidnight h]
  rfl

theorem readLayout?_slashed (h : w.AtMidnight) : readLayout? slashedDate w.slashed = some w.moment := by
  apply readLayout?_of_fields
  rw [readPieces?_slashed, fields_of_atMidnight h]

/-! ### The offset -/

theorem readOffset?_text (o : Offset) : readOffset? o.text = some o.seconds := by
  have hhours : o.hours < 10 ^ 2 := o.hours_le.trans_lt (by decide)
  have hminutes : o.minutes < 10 ^ 2 := o.minutes_le.trans_lt (by decide)
  have hminutesText := readExactly?_padded (by decide) hminutes []
  rw [List.append_nil] at hminutesText
  have hsize : o.hours ≤ 23 ∧ o.minutes ≤ 59 := ⟨o.hours_le, o.minutes_le⟩
  rw [Offset.text, Offset.seconds]
  cases o.behind with
  | false =>
    simp [readOffset?, readExactly?_padded (by decide) hhours, readMark?_self, hminutesText, hsize]
  | true =>
    simp [readOffset?, readExactly?_padded (by decide) hhours, readMark?_self, hminutesText, hsize, isMinus]

/-! ### Clocks elsewhere -/

/-- There is a clock that shows the moment, unless its year has not four digits. -/
theorem exists_elsewhere (w : WallClock) (o : Offset) : (∃ there, w.Elsewhere o there) ↔
    0 ≤ (Date.ofDays ((w.seconds + o.seconds) / 86400)).year ∧
      (Date.ofDays ((w.seconds + o.seconds) / 86400)).year ≤ 9999 := by
  constructor
  · rintro ⟨there, hseconds, -⟩
    have hhour := there.hour_le
    have hminute := there.minute_le
    have hsecond := there.second_le
    have hday : (w.seconds + o.seconds) / 86400 = there.date.toDays := by
      rw [← hseconds, seconds]
      omega
    rw [hday, Date.ofDays_toDays there.date_proper]
    exact ⟨there.year_nonneg, there.year_le⟩
  · rintro ⟨hlow, hhigh⟩
    generalize htotal : w.seconds + o.seconds = total at *
    obtain ⟨hproper, hday⟩ := Date.ofDays_spec (total / 86400)
    have hvalid : (Date.ofDays (total / 86400)).Valid := by
      refine Date.valid_iff.mpr ⟨?_, hproper⟩
      rw [Date.firstYear, Date.lastYear]
      omega
    refine ⟨⟨_, (total % 86400).toNat / 3600, (total % 86400).toNat / 60 % 60, (total % 86400).toNat % 60, w.fraction,
      hvalid, hlow, hhigh, by omega, by omega, by omega, w.isDigit⟩, ?_, rfl⟩
    rw [htotal, seconds]
    dsimp only
    omega

/-! ### Spellings -/

theorem figures_dashed (w : WallClock) : Figures w.dashed := by
  simp only [dashed, figures_append, figures_cons, figures_padded]
  decide

theorem figures_hourMinute (w : WallClock) : Figures w.hourMinute := by
  simp only [hourMinute, figures_append, figures_cons, figures_padded]
  decide

theorem figures_timeOfDay (w : WallClock) : Figures w.timeOfDay := by
  have hfraction : Figures w.fractionText :=
    .ite figures_nil (figures_cons.mpr ⟨by decide, fun c hc => isFigure_of_isDigit (w.isDigit c hc)⟩)
  simp only [timeOfDay, figures_append, figures_cons, w.figures_hourMinute, figures_padded, hfraction]
  decide

theorem figures_offset (o : Offset) : Figures o.text := by
  simp only [Offset.text, figures_append, figures_cons, figures_padded]
  split <;> decide

theorem tight_dashed (w : WallClock) {last : List Char} (hlast : Figures last) (hne : last ≠ []) (middle : List Char) :
    Tight (w.dashed ++ middle ++ last) :=
  w.figures_dashed.tight.enclose hlast.tight (by simp [dashed]) hne middle

theorem tight_slashed (w : WallClock) : Tight w.slashed := by
  have htight := (figures_padded 2 w.date.month).tight.enclose (figures_padded 4 w.date.year.toNat).tight
    (isDigits_padded ..).1 (isDigits_padded ..).1 ('/' :: padded 2 w.date.day ++ ['/'])
  simpa only [slashed, List.append_assoc, List.cons_append, List.nil_append] using htight

variable {text : List Char}

/-- A spelling has no blanks around it, though it may have one inside. -/
theorem Spells.tight (h : w.Spells text) : Tight text := by
  cases h with
  | @utc mark =>
      rw [List.append_cons]
      exact w.tight_dashed w.figures_timeOfDay (by simp [timeOfDay]) [mark]
  | zulu => exact w.tight_dashed (by decide) (by decide) _
  | @offset _ there o => exact there.tight_dashed (figures_offset o) (by simp [Offset.text]) _
  | @toMinute mark =>
      rw [List.append_cons]
      exact w.tight_dashed w.figures_hourMinute (by simp [hourMinute]) [mark]
  | dashed => exact w.figures_dashed.tight
  | slashed => exact w.tight_slashed

theorem readStrict?_zulu (w : WallClock) {mark : Char} (hmark : mark = 'T' ∨ mark = ' ') :
    readStrict? (w.dashed ++ mark :: w.timeOfDay ++ ['Z']) = some w.moment := by
  have hzone : Ends ['Z'] := by
    intro c hc
    obtain rfl := Option.some.inj hc
    decide
  have hoffset : readOffset? ['Z'] = some 0 := by decide
  rw [w.readStrict?_append hmark hzone, hoffset, Option.map_some, Instant.earlier, sub_zero]

theorem readStrict?_offset {there : WallClock} {o : Offset} (h : w.Elsewhere o there) {mark : Char}
    (hmark : mark = 'T' ∨ mark = ' ') :
    readStrict? (there.dashed ++ mark :: there.timeOfDay ++ o.text) = some w.moment := by
  have hzone : Ends o.text := by
    intro c hc
    obtain rfl := Option.some.inj hc
    split <;> decide
  obtain ⟨hseconds, hfraction⟩ := h
  rw [there.readStrict?_append hmark hzone, readOffset?_text, Option.map_some, Instant.earlier, moment, moment]
  dsimp only
  rw [hseconds, add_sub_cancel_right, hfraction]

theorem Spells.ofText?_eq (h : w.Spells text) {raw : String} (hraw : trim raw.toList = text) :
    Instant.ofText? raw = some w.moment := by
  have hstrict : readStrict? text = some w.moment → Instant.ofText? raw = some w.moment := by
    intro hread
    rw [← hraw] at hread
    exact ValueClass.ofText?_of_moment? (k := .strict) hread
  have hlayout : ∀ layout ∈ layouts, readLayout? layout text = some w.moment → Instant.ofText? raw = some w.moment := by
    intro layout hmem hread
    rw [← hraw] at hread
    exact ValueClass.ofText?_of_readLayout? hmem hread
  cases h with
  | utc hmark => exact hlayout _ (mem_layouts hmark).1 (w.readLayout?_timeOfDay hmark)
  | zulu hmark => exact hstrict (w.readStrict?_zulu hmark)
  | offset hmark hthere => exact hstrict (readStrict?_offset hthere hmark)
  | toMinute hmark hminute => exact hlayout _ (mem_layouts hmark).2 (readLayout?_hourMinute hminute hmark)
  | dashed hmidnight => exact hlayout dashedDate (by simp [layouts, dateLayouts]) (readLayout?_dashed hmidnight)
  | slashed hmidnight => exact hlayout slashedDate (by simp [layouts, dateLayouts]) (readLayout?_slashed hmidnight)

end WallClock

end Time

namespace Instant

open Time

/-- However a moment is spelled, and whatever blanks stand around, it is the moment that is read: the one of a clock of
Universal Time, the fraction of its second cut behind the nanoseconds. For every offset there is a clock to spell it by,
unless the year of that clock has not four digits. -/
theorem spellings_agree (w : WallClock) :
    (∀ text before after : String, w.Spells text.toList → Blanks before.toList → Blanks after.toList →
      ofText? (before ++ text ++ after) =
        some ⟨w.date.toDays * 86400 + (w.hour * 3600 + w.minute * 60 + w.second : Nat),
          ofDigits w.fraction * 10 ^ 9 / 10 ^ w.fraction.length⟩) ∧
    ∀ o : Offset, (∃ there, w.Elsewhere o there) ↔
      0 ≤ (Date.ofDays ((w.seconds + o.seconds) / 86400)).year ∧
        (Date.ofDays ((w.seconds + o.seconds) / 86400)).year ≤ 9999 := by
  refine ⟨fun text before after htext hbefore hafter => ?_, w.exists_elsewhere⟩
  have hraw : trim (before ++ text ++ after).toList = text.toList := by
    rw [String.toList_append, String.toList_append]
    exact htext.tight.trim_around hbefore hafter
  exact htext.ofText?_eq hraw

/-- A clock that is almost six hours ahead shows the next day, month and year. Of the fraction the tenth digit is
lost. -/
theorem spellings_agree_new_year :
    let w : WallClock := ⟨⟨2023, 12, 31⟩, 23, 30, 15, "1234567899".toList, by decide, by decide, by decide, by decide,
      by decide, by decide, List.all_eq_true.mp (by decide)⟩
    let text := "2024-01-01 05:15:15.1234567899+05:45"
    w.Spells text.toList ∧ Blanks "\u3000".toList ∧ Blanks "\n".toList ∧
      ofText? ("\u3000" ++ text ++ "\n") = some ⟨1704065415, 123456789⟩ := by
  intro w text
  let there : WallClock := ⟨⟨2024, 1, 1⟩, 5, 15, 15, "1234567899".toList, by decide, by decide, by decide, by decide,
    by decide, by decide, List.all_eq_true.mp (by decide)⟩
  let o : Offset := ⟨false, 5, 45, by decide, by decide⟩
  have htext : there.dashed ++ ' ' :: there.timeOfDay ++ o.text = text.toList := by decide +kernel
  have hthere : w.Elsewhere o there := ⟨by decide +kernel, rfl⟩
  have hspells : w.Spells text.toList := htext ▸ .offset (.inr rfl) hthere
  have hbefore : Blanks "\u3000".toList := List.all_eq_true.mp (by decide)
  have hafter : Blanks "\n".toList := List.all_eq_true.mp (by decide)
  refine ⟨hspells, hbefore, hafter, ?_⟩
  rw [(spellings_agree w).1 text _ _ hspells hbefore hafter]
  decide +kernel

end Instant

end ODataQuery
