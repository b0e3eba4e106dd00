import ODataQuery.Proofs.Attribute.Classes
import ODataQuery.Proofs.Number.Denotation

/-!
Which values are numbers, and which ones. A value stands for a number if it is blank, a word for infinity or a numeral
between blanks, and for none otherwise; a numeral stands for the double that is nearest to the exact number it writes.
Two other readers have exactly the numerals in common: a pattern that takes the digits of every script for digits, and
a reader of doubles that knows words besides numerals. So a text that passes both is a numeral, and nothing is lost.
-/

namespace ODataQuery

namespace Text

/-! ### A pattern and a reader of doubles -/

section

variable (digit : Char → Bool)

/-- Characters of a class, one at least. -/
def Row (cs : List Char) : Prop := cs ≠ [] ∧ ∀ c ∈ cs, digit c = true

/-- `\d+\.?\d*|\.\d+`, where `\d` stands for the characters of the class. -/
inductive MantissaPattern : List Char → Prop where
  | whole {ds} (hds : Row digit ds) : MantissaPattern ds
  | point {ds fs} (hds : Row digit ds) (hfs : ∀ c ∈ fs, digit c = true) : MantissaPattern (ds ++ '.' :: fs)
  | fraction {fs} (hfs : Row digit fs) : MantissaPattern ('.' :: fs)

/-- `([eE][+-]?\d+)?`. -/
inductive ExponentPattern : List Char → Prop where
  | none : ExponentPattern []
  | power {letter sign negative ds} (hletter : letter = 'e' ∨ letter = 'E') (hsign : SignText sign negative)
      (hds : Row digit ds) : ExponentPattern (letter :: sign ++ ds)

/-- `[+-]?(\d+\.?\d*|\.\d+)([eE][+-]?\d+)?`. -/
inductive Pattern : List Char → Prop where
  | intro {sign negative mantissa exponent} (hsign : SignText sign negative) (hmantissa : MantissaPattern digit mantissa)
      (hexponent : ExponentPattern digit exponent) : Pattern (sign ++ mantissa ++ exponent)

end

/-- The words that doubles are read from, in small letters. -/
def doubleWords : List (List Char) := ["inf".toList, "infinity".toList, "nan".toList]

/-- The texts that doubles are read from: numerals, and words in either case with a sign or none. -/
inductive DoubleText : List Char → Prop where
  | numeral {cs negative q} (hcs : Writes cs negative q) : DoubleText cs
  | word {sign negative word} (hsign : SignText sign negative) (hword : word.map Char.toLower ∈ doubleWords) :
      DoubleText (sign ++ word)

/-- A word for infinity, with a sign or none. -/
inductive InfinityText : List Char → Bool → Prop where
  | intro {sign negative} (hsign : SignText sign negative) : InfinityText (sign ++ "Infinity".toList) negative

variable {digit : Char → Bool} {cs : List Char}

theorem Pattern.of_writes (hdigit : ∀ c, c.isDigit = true → digit c = true) {negative : Bool} {q : ℚ}
    (h : Writes cs negative q) : Pattern digit cs := by
  have hrow : ∀ {ds}, IsDigits ds → Row digit ds := fun hds => ⟨hds.1, fun c hc => hdigit c (hds.2 c hc)⟩
  cases h with
  | intro hsign hmantissa hexponent =>
      refine .intro hsign ?_ ?_
      · cases hmantissa with
        | whole hds => exact .whole (hrow hds)
        | @point ds fs hds hfs hany =>
            cases ds with
            | nil => exact .fraction (hrow ⟨by simpa using hany, hfs⟩)
            | cons d ds => exact .point (hrow ⟨List.cons_ne_nil _ _, hds⟩) fun c hc => hdigit c (hfs c hc)
      · cases hexponent with
        | none => exact .none
        | power hletter hsign hds => exact .power hletter hsign (hrow hds)

theorem MantissaPattern.exists_head (h : MantissaPattern digit cs) :
    ∃ c rest, cs = c :: rest ∧ (digit c = true ∨ c = '.') := by
  cases h with
  | whole hds | point hds hfs =>
      obtain ⟨c, rest, rfl⟩ := List.exists_cons_of_ne_nil hds.1
      exact ⟨c, _, rfl, .inl (hds.2 c List.mem_cons_self)⟩
  | fraction hfs => exact ⟨'.', _, rfl, .inr rfl⟩

/-- A word begins with a letter. -/
theorem exists_letter (h : cs.map Char.toLower ∈ doubleWords) :
    ∃ c rest, cs = c :: rest ∧ c.toNat < 128 ∧ c.isDigit = false ∧ c ≠ '.' ∧ c ≠ '-' ∧ c ≠ '+' := by
  cases cs with
  | nil => exact absurd h (by decide)
  | cons c rest =>
      have hfirst : c.toLower = 'i' ∨ c.toLower = 'n' := by
        simp only [doubleWords, List.map_cons, List.mem_cons, List.not_mem_nil, or_false] at h
        rcases h with h | h | h
        · exact .inl (List.cons.inj h).1
        · exact .inl (List.cons.inj h).1
        · exact .inr (List.cons.inj h).1
      have hletter : ∀ d : Char, d.toLower = d → d ≠ 'i' → d ≠ 'n' → c ≠ d := by
        rintro d hlower hi hn rfl
        rw [hlower] at hfirst
        exact hfirst.elim hi hn
      refine ⟨c, rest, rfl, ?_, ?_, hletter _ (by decide) (by decide) (by decide),
        hletter _ (by decide) (by decide) (by decide), hletter _ (by decide) (by decide) (by decide)⟩
      · apply toNat_lt_of_toLower
        rcases hfirst with hfirst | hfirst <;> rw [hfirst] <;> decide
      · rw [Bool.eq_false_iff]
        intro hdigit
        have hbounds := bounds_of_isDigit hdigit
        rw [toLower_of_not_capital (by omega)] at hfirst
        rcases hfirst with rfl | rfl <;> cases hdigit

/-- What the pattern and the reader of doubles both accept are the numerals, as long as the class of digits has no
other ASCII characters than the digits. -/
theorem pattern_and_doubleText_iff (hdigit : ∀ c : Char, c.toNat < 128 → digit c = c.isDigit) :
    Pattern digit cs ∧ DoubleText cs ↔ ∃ negative q, Writes cs negative q := by
  constructor
  · rintro ⟨hpattern, hdouble⟩
    cases hdouble with
    | numeral hcs => exact ⟨_, _, hcs⟩
    | @word sign negative word hsign hword =>
        exfalso
        obtain ⟨c, rest, rfl, hascii, hnot, hpoint, hminus, hplus⟩ := exists_letter hword
        generalize hall : sign ++ c :: rest = cs at hpattern
        cases hpattern with
        | @intro sign' negative' mantissa exponent hsign' hmantissa hexponent =>
            obtain ⟨d, rest', rfl, hd⟩ := hmantissa.exists_head
            have hword' : Decimal.readSign (sign ++ c :: rest) = (negative, c :: rest) := by
              refine Decimal.readSign_append hsign fun b hb => ?_
              obtain rfl := Option.some.inj hb
              exact ⟨hminus, hplus⟩
            have hpattern' : Decimal.readSign (sign' ++ (d :: rest' ++ exponent)) = (negative', d :: rest' ++ exponent) := by
              refine Decimal.readSign_append hsign' fun b hb => ?_
              obtain rfl := Option.some.inj hb
              constructor
              · rintro rfl
                exact absurd hd (by simp [hdigit])
              · rintro rfl
                exact absurd hd (by simp [hdigit])
            rw [hall, List.append_assoc, hpattern'] at hword'
            obtain rfl : d = c := (List.cons.inj (congrArg Prod.snd hword')).1
            rcases hd with hd | hd
            · rw [hdigit d hascii, hnot] at hd
              cases hd
            · exact hpoint hd
  · rintro ⟨negative, q, h⟩
    refine ⟨.of_writes (fun c hc => ?_) h, .numeral h⟩
    have hbounds := bounds_of_isDigit hc
    rw [hdigit c (by omega), hc]

end Text

open Text

namespace Number

variable {raw : String} {negative : Bool} {q : ℚ}

/-! ### The three kinds of numbers -/

theorem ofText_of_infinityText (h : InfinityText (trim raw.toList) negative) : ofText raw = .infinity negative := by
  generalize hcs : trim raw.toList = cs at h
  rw [ofText, hcs]
  cases h with
  | intro hsign => cases hsign <;> decide +kernel

theorem ofText_of_writes (h : Writes (trim raw.toList) negative q) :
    ∃ m, ofText raw = .signed negative m ∧ m.Rounds q := by
  obtain ⟨d, hd, rfl, rfl⟩ := Decimal.read?_of_writes h
  exact ⟨_, ofText_of_read? hd, Decimal.rounds_nearest d.coefficient d.exponent⟩

theorem ofText_eq_nan (hne : trim raw.toList ≠ []) (hword : ∀ negative, ¬ InfinityText (trim raw.toList) negative)
    (h : ¬ ∃ negative q, Writes (trim raw.toList) negative q) : ofText raw = .nan := by
  have hplus : ¬ (trim raw.toList = "Infinity".toList ∨ trim raw.toList = "+Infinity".toList) := by
    rintro (h | h)
    · exact hword false (h ▸ .intro .none)
    · exact hword false (h ▸ .intro .plus)
  have hminus : trim raw.toList ≠ "-Infinity".toList := fun h => hword true (h ▸ .intro .minus)
  have hnone : Decimal.read? (trim raw.toList) = none := by
    rw [← Option.not_isSome_iff_eq_none]
    exact fun hsome => h (Decimal.read?_isSome_iff.mp hsome)
  rw [ofText, if_neg hne, if_neg hplus, if_neg hminus, hnone]

/-- A value is taken for a number if it passes the test for one, since then it passes no other. -/
theorem infer_eq_number_iff : AttributeType.infer raw = .number ↔ (finite? (trim raw.toList)).isSome = true := by
  have hholds : ValueClass.number.holds raw = (finite? (trim raw.toList)).isSome := by
    rw [ValueClass.holds, toList_trimmed]
  rw [← hholds]
  constructor
  · intro htype
    rcases ValueClass.infer_eq raw with ⟨k, hk, hinfer⟩ | ⟨-, hinfer⟩
    · rw [htype] at hinfer
      cases k with
      | number => exact hk
      | truth | identifier | strict | layout => cases hinfer
    · cases htype.symm.trans hinfer
  · intro hnumber
    rcases ValueClass.infer_eq raw with ⟨k, hk, hinfer⟩ | ⟨hnone, -⟩
    · obtain rfl := ValueClass.holds_unique hnumber hk
      exact hinfer
    · cases (hnone .number).symm.trans hnumber

theorem finite?_isSome_iff : (finite? (trim raw.toList)).isSome = true ↔
    (∃ negative q, Writes (trim raw.toList) negative q) ∧ (ofText raw).isFinite = true := by
  constructor
  · intro h
    obtain ⟨x, hx⟩ := Option.isSome_iff_exists.mp h
    obtain ⟨d, hd, rfl⟩ := Option.map_eq_some_iff.mp (Option.filter_eq_some_iff.mp hx).1
    exact ⟨Decimal.exists_writes hd, ofText_of_read? hd ▸ isFinite_of_finite? hx⟩
  · rintro ⟨⟨negative, q, h⟩, hfinite⟩
    obtain ⟨d, hd, -⟩ := Decimal.read?_of_writes h
    rw [ofText_of_read? hd] at hfinite
    have hsome : finite? (trim raw.toList) = some d.toBinary64 := by
      rw [finite?, hd, Option.map_some, Option.filter_some, if_pos hfinite]
    exact Option.isSome_of_eq_some hsome

/-- A value stands for a number exactly if it is blank, a word for infinity or a numeral, between any blanks: for zero,
for that infinity, or for the double that is nearest to what the numeral writes, which is infinite exactly if that
overflows. It is taken for a number exactly if it is a numeral and this double is finite. The numerals are what a
pattern and a reader of doubles have in common, for every class of digits that the pattern may use. -/
theorem value_of_grammar (raw : String) :
    let inner := trim raw.toList
    (ofText raw ≠ .nan ↔
      inner = [] ∨ (∃ negative, InfinityText inner negative) ∨ ∃ negative q, Writes inner negative q) ∧
    (inner = [] → ofText raw = .zero) ∧
    (∀ negative, InfinityText inner negative → ofText raw = .infinity negative) ∧
    (∀ negative q, Writes inner negative q → ∃ m : Magnitude, ofText raw = .signed negative m ∧ m.Rounds q ∧
      (m.isInfinite = true ↔ Magnitude.overflow ≤ q)) ∧
    (AttributeType.infer raw = .number ↔
      (∃ negative q, Writes inner negative q) ∧ (ofText raw).isFinite = true) ∧
    ∀ digit : Char → Bool, (∀ c : Char, c.toNat < 128 → digit c = c.isDigit) →
      (Pattern digit inner ∧ DoubleText inner ↔ ∃ negative q, Writes inner negative q) := by
  intro inner
  have hblank : inner = [] → ofText raw = .zero := fun hnil => if_pos hnil
  refine ⟨⟨?_, ?_⟩, hblank, fun _ => ofText_of_infinityText, ?_, infer_eq_number_iff.trans finite?_isSome_iff,
    fun digit hdigit => pattern_and_doubleText_iff hdigit⟩
  · intro hnumber
    by_contra hnot
    rw [not_or, not_or, not_exists] at hnot
    exact hnumber (ofText_eq_nan hnot.1 hnot.2.1 hnot.2.2)
  · rintro (hnil | ⟨negative, hword⟩ | ⟨negative, q, hwrites⟩)
    · rw [hblank hnil]
      nofun
    · rw [ofText_of_infinityText hword]
      nofun
    · obtain ⟨m, hm, -⟩ := ofText_of_writes hwrites
      rw [hm]
      nofun
  · intro negative q hwrites
    obtain ⟨m, hm, hrounds⟩ := ofText_of_writes hwrites
    exact ⟨m, hm, hrounds, hrounds.isInfinite_iff⟩

/-- Digits of another script are no digits here, and a numeral may begin or end with its point. -/
example : ofText "١٢" = .nan ∧ ofText "\u00a0-.5e+1 " = .signed true (Decimal.nearest 5 0) := by
  decide +kernel

end Number

end ODataQuery
