import Mathlib.Data.List.TakeWhile
import ODataQuery.Proofs.Number.Rounding
import ODataQuery.Proofs.Text.Digits

/-!
The numerals and the numbers that they write. A numeral has a sign or none, digits with at most one point among or
around them, and perhaps a power of ten; what it writes is an exact rational number. Reading finds a decimal in the
numerals and in no other texts, and this decimal is the number that the numeral writes.
-/

namespace ODataQuery

namespace Text

/-- A sign or none, and whether it says minus. -/
inductive SignText : List Char → Bool → Prop where
  | none : SignText [] false
  | plus : SignText ['+'] false
  | minus : SignText ['-'] true

/-- Digits with at most one point among or around them, and what they write. -/
inductive MantissaText : List Char → ℚ → Prop where
  | whole {ds} (hds : IsDigits ds) : MantissaText ds (ofDigits ds)
  | point {ds fs} (hds : ∀ c ∈ ds, c.isDigit = true) (hfs : ∀ c ∈ fs, c.isDigit = true) (hany : ds ≠ [] ∨ fs ≠ []) :
      MantissaText (ds ++ '.' :: fs) (ofDigits ds + ofDigits fs / 10 ^ fs.length)

/-- A power of ten or none, and its exponent. -/
inductive ExponentText : List Char → ℤ → Prop where
  | none : ExponentText [] 0
  | power {letter sign negative ds} (hletter : letter = 'e' ∨ letter = 'E') (hsign : SignText sign negative)
      (hds : IsDigits ds) :
      ExponentText (letter :: sign ++ ds) (if negative = true then -(ofDigits ds : ℤ) else ofDigits ds)

/-- The text writes the number `q`, or `-q` if it is negative. -/
inductive Writes : List Char → Bool → ℚ → Prop where
  | intro {sign mantissa exponent negative x n} (hsign : SignText sign negative) (hmantissa : MantissaText mantissa x)
      (hexponent : ExponentText exponent n) : Writes (sign ++ mantissa ++ exponent) negative (x * 10 ^ n)

end Text

open Text

namespace Decimal

variable {cs rest : List Char} {negative : Bool} {q : ℚ}

/-! ### Numerals are read -/

theorem readSign_append {sign : List Char} (h : SignText sign negative)
    (hrest : ∀ c ∈ rest.head?, c ≠ '-' ∧ c ≠ '+') : readSign (sign ++ rest) = (negative, rest) := by
  cases h with
  | none =>
      cases rest with
      | nil => rfl
      | cons c cs =>
          obtain ⟨hminus, hplus⟩ := hrest c rfl
          simp [readSign, hminus, hplus]
  | plus | minus => rfl

theorem head?_digits_append {ds : List Char} (h : IsDigits ds) : ∀ c ∈ (ds ++ rest).head?, c.isDigit = true := by
  intro c hc
  rw [List.head?_append_of_ne_nil _ h.1] at hc
  exact h.2 c (List.mem_of_head? hc)

theorem not_sign_of_isDigit {c : Char} (h : c.isDigit = true) : c ≠ '-' ∧ c ≠ '+' := by
  constructor
  · rintro rfl
    cases h
  · rintro rfl
    cases h

theorem readExponent?_eq {exponent : List Char} {n : ℤ} (h : ExponentText exponent n) :
    readExponent? exponent = some n := by
  cases h with
  | none => rfl
  | @power letter sign negative ds hletter hsign hds =>
      have hsigned : readSign (sign ++ ds) = (negative, ds) := by
        apply readSign_append hsign
        intro c hc
        exact not_sign_of_isDigit (hds.2 c (List.mem_of_head? hc))
      have hdigits : readDigits (ds ++ []) = (ds, []) := readDigits_append hds.2 nofun
      rw [List.append_nil] at hdigits
      rw [List.cons_append, readExponent?, if_pos hletter, hsigned]
      dsimp only
      rw [hdigits]
      simp [hds.1]

theorem head?_exponent {exponent : List Char} {n : ℤ} (h : ExponentText exponent n) :
    ∀ c ∈ exponent.head?, c.isDigit = false ∧ c ≠ '.' := by
  cases h with
  | none => nofun
  | power hletter hsign hds =>
      intro c hc
      obtain rfl := Option.some.inj hc
      rcases hletter with rfl | rfl <;> decide

theorem head?_mantissa {mantissa : List Char} {x : ℚ} (h : MantissaText mantissa x) :
    ∀ c ∈ (mantissa ++ rest).head?, c ≠ '-' ∧ c ≠ '+' := by
  cases h with
  | whole hds =>
      intro c hc
      exact not_sign_of_isDigit (head?_digits_append hds c hc)
  | @point ds fs hds hfs hany =>
      intro c hc
      cases ds with
      | nil =>
          obtain rfl := Option.some.inj hc
          decide
      | cons d ds =>
          obtain rfl := Option.some.inj hc
          exact not_sign_of_isDigit (hds _ List.mem_cons_self)

theorem readFraction_of_other (h : ∀ c ∈ cs.head?, c ≠ '.') : readFraction cs = ([], cs) := by
  cases cs with
  | nil => rfl
  | cons c cs => simp [readFraction, h c rfl]

/-- What is read of a mantissa: the digits on both sides of the point. -/
theorem read_mantissa {mantissa : List Char} {x : ℚ} (h : MantissaText mantissa x)
    (hrest : ∀ c ∈ rest.head?, c.isDigit = false ∧ c ≠ '.') :
    ∃ whole fraction behind, readDigits (mantissa ++ rest) = (whole, behind) ∧
      readFraction behind = (fraction, rest) ∧ ¬ (whole = [] ∧ fraction = []) ∧
      x = ofDigits (whole ++ fraction) / 10 ^ fraction.length := by
  cases h with
  | @whole _ hds =>
      have hfraction : readFraction rest = ([], rest) := readFraction_of_other fun c hc => (hrest c hc).2
      refine ⟨_, [], rest, readDigits_append hds.2 fun c hc => (hrest c hc).1, hfraction, fun h => hds.1 h.1, ?_⟩
      simp
  | @point ds fs hds hfs hany =>
      have hwhole : readDigits (ds ++ '.' :: fs ++ rest) = (ds, '.' :: (fs ++ rest)) := by
        rw [List.append_assoc]
        exact readDigits_append hds fun c hc => by obtain rfl := Option.some.inj hc; rfl
      have hfraction : readFraction ('.' :: (fs ++ rest)) = (fs, rest) :=
        readDigits_append hfs fun c hc => (hrest c hc).1
      refine ⟨ds, fs, _, hwhole, hfraction, not_and_or.mpr hany, ?_⟩
      have hten : (10 : ℚ) ^ fs.length ≠ 0 := pow_ne_zero _ (by norm_num)
      rw [ofDigits_append]
      push_cast
      field_simp

theorem read?_of_writes (h : Writes cs negative q) :
    ∃ d, read? cs = some d ∧ d.negative = negative ∧ value d.coefficient d.exponent = q := by
  cases h with
  | @intro sign mantissa exponent _ x n hsign hmantissa hexponent =>
      obtain ⟨whole, fraction, behind, hwhole, hfraction, hany, hx⟩ := read_mantissa hmantissa (head?_exponent hexponent)
      refine ⟨⟨negative, ofDigits (whole ++ fraction), n - fraction.length⟩, ?_, rfl, ?_⟩
      · rw [List.append_assoc, read?, readSign_append hsign (head?_mantissa hmantissa)]
        dsimp only
        rw [hwhole]
        dsimp only
        rw [hfraction]
        dsimp only
        rw [if_neg hany, readExponent?_eq hexponent, Option.map_some]
      · rw [value, hx, zpow_sub₀ (by norm_num), zpow_natCast]
        ring

/-! ### What is read is a numeral -/

theorem exists_sign (cs : List Char) : ∃ sign, SignText sign (readSign cs).1 ∧ cs = sign ++ (readSign cs).2 := by
  by_cases hminus : ∃ rest, cs = '-' :: rest
  · obtain ⟨rest, rfl⟩ := hminus
    exact ⟨_, .minus, rfl⟩
  · by_cases hplus : ∃ rest, cs = '+' :: rest
    · obtain ⟨rest, rfl⟩ := hplus
      exact ⟨_, .plus, rfl⟩
    · have hnone : readSign cs = (false, cs) := readSign_append .none fun c hc => by
        obtain ⟨rest, hcs⟩ := List.head?_eq_some_iff.mp hc
        constructor
        · rintro rfl
          exact hminus ⟨rest, hcs⟩
        · rintro rfl
          exact hplus ⟨rest, hcs⟩
      rw [hnone]
      exact ⟨[], .none, rfl⟩

theorem isDigit_of_readDigits (cs : List Char) : ∀ c ∈ (readDigits cs).1, c.isDigit = true :=
  fun _ hc => List.mem_takeWhile_imp hc

theorem readDigits_append_readDigits (cs : List Char) : (readDigits cs).1 ++ (readDigits cs).2 = cs :=
  List.takeWhile_append_dropWhile

theorem exponentText_of_readExponent? {n : ℤ} (h : readExponent? cs = some n) : ExponentText cs n := by
  cases cs with
  | nil =>
      obtain rfl := Option.some.inj h
      exact .none
  | cons c cs =>
      rw [readExponent?] at h
      split at h
      · rename_i hletter
        obtain ⟨sign, hsign, hcs⟩ := exists_sign cs
        have hdigits := isDigit_of_readDigits (readSign cs).2
        have hall := readDigits_append_readDigits (readSign cs).2
        dsimp only at h
        split at h
        · cases h
        · rename_i hends
          rw [not_or, not_not] at hends
          obtain rfl := Option.some.inj h
          rw [hends.2, List.append_nil] at hall
          have htext : c :: cs = c :: sign ++ (readDigits (readSign cs).2).1 := by
            rw [List.cons_append, hall, ← hcs]
          rw [htext]
          exact .power hletter hsign ⟨hends.1, hdigits⟩
      · cases h

/-- The digits and the point that are read, as a mantissa. -/
theorem exists_mantissa (cs : List Char)
    (hany : ¬ ((readDigits cs).1 = [] ∧ (readFraction (readDigits cs).2).1 = [])) :
    ∃ mantissa x, MantissaText mantissa x ∧ cs = mantissa ++ (readFraction (readDigits cs).2).2 := by
  have hall := readDigits_append_readDigits cs
  have hdigits := isDigit_of_readDigits cs
  generalize (readDigits cs).1 = ds at *
  generalize (readDigits cs).2 = behind at *
  by_cases hpoint : ∃ fraction, behind = '.' :: fraction
  · obtain ⟨fraction, rfl⟩ := hpoint
    refine ⟨_, _, .point hdigits (isDigit_of_readDigits fraction) (not_and_or.mp hany), ?_⟩
    rw [← hall, List.append_assoc, List.cons_append, readFraction, readDigits_append_readDigits]
  · have hnone := readFraction_of_other fun c hc hdot => by
      obtain ⟨fraction, hbehind⟩ := List.head?_eq_some_iff.mp hc
      exact hpoint ⟨fraction, hdot ▸ hbehind⟩
    rw [hnone] at hany ⊢
    exact ⟨_, _, .whole ⟨fun hnil => hany ⟨hnil, rfl⟩, hdigits⟩, hall.symm⟩

theorem exists_writes {d : Decimal} (h : read? cs = some d) : ∃ negative q, Writes cs negative q := by
  obtain ⟨sign, hsign, hcs⟩ := exists_sign cs
  rw [read?] at h
  dsimp only at h
  split at h
  · cases h
  · rename_i hany
    obtain ⟨n, hexponent, -⟩ := Option.map_eq_some_iff.mp h
    obtain ⟨mantissa, x, hmantissa, hbehind⟩ := exists_mantissa _ hany
    have htext : cs = sign ++ mantissa ++ (readFraction (readDigits (readSign cs).2).2).2 := by
      rw [List.append_assoc, ← hbehind, ← hcs]
    rw [htext]
    exact ⟨_, _, .intro hsign hmantissa (exponentText_of_readExponent? hexponent)⟩

/-- The texts in which a decimal is found are the numerals. -/
theorem read?_isSome_iff : (read? cs).isSome = true ↔ ∃ negative q, Writes cs negative q := by
  constructor
  · intro h
    obtain ⟨d, hd⟩ := Option.isSome_iff_exists.mp h
    exact exists_writes hd
  · rintro ⟨negative, q, h⟩
    obtain ⟨d, hd, -⟩ := read?_of_writes h
    exact Option.isSome_of_eq_some hd

end Decimal

end ODataQuery
