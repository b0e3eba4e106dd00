import ODataQuery.Proofs.Number.Conversion
import ODataQuery.Proofs.Number.Layout

/-!
Numbers that are written and read again. Every layout of a number is a numeral that writes its shortest decimal, and
that decimal is rounded to the number it was found for. So a number is read back from its text, whatever blanks there
are around it, and only the sign of zero is lost.
-/

namespace ODataQuery

open Text

namespace Number

variable {s ds fs cs : List Char} {n : ℤ} {m : Magnitude}

/-! ### Layouts are numerals -/

theorem mantissaText_whole (h : IsDigits ds) : MantissaText ds (Decimal.value (ofDigits ds) 0) := by
  rw [Decimal.value, zpow_zero, mul_one]
  exact .whole h

/-- Digits with a point among them write their number, counted in the power of ten of the last one. -/
theorem mantissaText_point (hds : IsDigits ds) (hfs : ∀ c ∈ fs, c.isDigit = true) :
    MantissaText (ds ++ '.' :: fs) (Decimal.value (ofDigits (ds ++ fs)) (-fs.length)) := by
  have hten : (10 : ℚ) ^ fs.length ≠ 0 := pow_ne_zero _ (by norm_num)
  have hvalue : Decimal.value (ofDigits (ds ++ fs)) (-fs.length) = ofDigits ds + ofDigits fs / 10 ^ fs.length := by
    rw [Decimal.value, ofDigits_append, zpow_neg, zpow_natCast]
    push_cast
    field_simp
  rw [hvalue]
  exact .point hds.2 hfs (.inl hds.1)

theorem mantissaText_first (h : IsDigits s) :
    MantissaText (s.take 1 ++ if 1 < s.length then '.' :: s.drop 1 else []) (Decimal.value (ofDigits s) (1 - s.length)) := by
  split
  · rename_i hlength
    have hpoint := mantissaText_point (h.take Nat.one_ne_zero) (h.drop hlength).2
    have hexponent : -((s.drop 1).length : ℤ) = 1 - s.length := by
      rw [List.length_drop]
      omega
    rwa [List.take_append_drop, hexponent] at hpoint
  · rename_i hlength
    have hpos := List.length_pos_iff.mpr h.1
    have hone : s.length = 1 := by omega
    rw [List.append_nil, List.take_of_length_le hone.le, hone, Nat.cast_one, sub_self]
    exact mantissaText_whole h

theorem exponentText_signed (k : ℤ) :
    ExponentText ('e' :: (if k < 0 then '-' else '+') :: Text.digits k.natAbs) k := by
  split
  · rename_i hneg
    have htext := ExponentText.power (.inl rfl) .minus (isDigits_digits k.natAbs)
    rw [if_pos rfl, ofDigits_digits] at htext
    have hk : -(k.natAbs : ℤ) = k := by omega
    rwa [hk] at htext
  · rename_i hneg
    have htext := ExponentText.power (.inl rfl) .plus (isDigits_digits k.natAbs)
    rw [if_neg Bool.false_ne_true, ofDigits_digits] at htext
    have hk : (k.natAbs : ℤ) = k := by omega
    rwa [hk] at htext

/-- In every layout the digits write the same number, `s * 10 ^ (n - k)` if there are `k` of them. -/
theorem writes_of_pointText {sign : List Char} {negative : Bool} (hsign : SignText sign negative) (hs : IsDigits s)
    (h : PointText s n cs) : Writes (sign ++ cs) negative (Decimal.value (ofDigits s) (n - s.length)) := by
  have hnumeral : ∀ {mantissa exponent c e k}, MantissaText mantissa (Decimal.value c e) → ExponentText exponent k →
      Decimal.value c (e + k) = Decimal.value (ofDigits s) (n - s.length) →
      Writes (sign ++ (mantissa ++ exponent)) negative (Decimal.value (ofDigits s) (n - s.length)) := by
    intro mantissa exponent c e k hmantissa hexponent hvalue
    rw [← List.append_assoc, ← hvalue, ← Decimal.value_mul_zpow]
    exact .intro hsign hmantissa hexponent
  cases h with
  | behind hlow hhigh =>
      rw [← List.append_nil (s ++ _)]
      refine hnumeral (mantissaText_whole (hs.append_zeros _)) .none ?_
      obtain ⟨j, hj⟩ := Int.eq_ofNat_of_zero_le (sub_nonneg.mpr hlow)
      rw [hj, Int.toNat_natCast, ofDigits_append_zeros, mul_comm, Decimal.value_mul_pow, add_zero, zero_add]
  | among hlow hless hhigh =>
      rw [← List.append_nil (s.take _ ++ _)]
      refine hnumeral (mantissaText_point (hs.take (by omega)) (hs.drop (by omega)).2) .none ?_
      have hexponent : -((s.drop n.toNat).length : ℤ) + 0 = n - s.length := by
        rw [List.length_drop]
        omega
      rw [List.take_append_drop, hexponent]
  | before hlow hhigh =>
      rw [List.cons_append, List.cons_append, ← List.append_nil (List.replicate _ _ ++ s)]
      refine hnumeral (mantissaText_point isDigits_zero (hs.zeros_append (-n).toNat).2) .none ?_
      have hexponent : -((List.replicate (-n).toNat '0' ++ s).length : ℤ) + 0 = n - s.length := by
        rw [List.length_append, List.length_replicate]
        omega
      rw [hexponent, ← List.append_assoc]
      exact congrArg (Decimal.value · _) (ofDigits_zeros_append ((-n).toNat + 1) s)
  | power hfar =>
      refine hnumeral (mantissaText_first hs) (exponentText_signed (n - 1)) ?_
      have hexponent : (1 - s.length : ℤ) + (n - 1) = n - s.length := by ring
      rw [hexponent]

/-! ### Numbers are read back -/

theorem signText_minus (negative : Bool) : SignText (if negative = true then ['-'] else []) negative := by
  cases negative with
  | false => exact .none
  | true => exact .minus

/-- The number that is read from the text of a number. -/
def reread (x : Binary64) : Binary64 := if x = .signed true .zero then .zero else x

theorem ofText_of_trim {raw : String} {x : Binary64} (h : trim raw.toList = text x) : ofText raw = reread x := by
  cases x with
  | nan =>
      rw [ofText, h]
      decide +kernel
  | signed negative m =>
      by_cases hrank : m.rank = 0
      · have hzero : m = .zero := Magnitude.ext_rank hrank
        rw [hzero] at h ⊢
        rw [ofText, h]
        cases negative <;> decide +kernel
      · have hreread : reread (.signed negative m) = .signed negative m := by
          refine if_neg fun hzero => hrank ?_
          rw [(Binary64.signed.inj hzero).2]
          rfl
        rw [text_signed negative hrank] at h
        rw [hreread]
        cases hinfinite : m.isInfinite with
        | true =>
            have hword : InfinityText (trim raw.toList) negative := by
              rw [h, magnitudeText, if_pos hinfinite]
              exact .intro (signText_minus negative)
            rw [ofText_of_infinityText hword, Magnitude.isInfinite_iff_eq.mp hinfinite, Binary64.infinity]
        | false =>
            obtain ⟨s, n, hrow, hlayout⟩ := pointText_magnitudeText hinfinite hrank
            have hwrites := writes_of_pointText (signText_minus negative) hrow.digits hlayout
            rw [← h] at hwrites
            obtain ⟨m', hm', hrounds⟩ := ofText_of_writes hwrites
            rw [hm', hrounds.unique hrow.shortest.rounds]

theorem text_reread (x : Binary64) : text (reread x) = text x := by
  rw [reread]
  split
  · rename_i hzero
    rw [hzero]
    decide
  · rfl

theorem ofText_around (x : Binary64) {before after : String} (hbefore : Blanks before.toList) (hafter : Blanks after.toList) :
    ofText (before ++ x.toText ++ after) = reread x := by
  apply ofText_of_trim
  rw [String.toList_append, String.toList_append, Binary64.toText, String.toList_ofList]
  exact (figures_text x).tight.trim_around hbefore hafter

theorem ofText_toText (x : Binary64) : ofText x.toText = reread x := by
  have haround : ofText ("" ++ x.toText ++ "") = reread x := ofText_around x nofun nofun
  rwa [String.append_empty, String.empty_append] at haround

/-- A number is read back from its text, with any blanks around it: the same number, except that a negative zero loses
its sign. So only the two zeros have the same text, and writing a value as the number that it stands for is done
after one time. -/
theorem number_read_back :
    (∀ (x : Binary64) (before after : String), Blanks before.toList → Blanks after.toList →
      ofText (before ++ x.toText ++ after) = if x = .signed true .zero then .zero else x) ∧
    (∀ x y : Binary64, x.toText = y.toText → x = y ∨ ∃ a b, x = .signed a .zero ∧ y = .signed b .zero) ∧
    ∀ raw : String, (ofText (ofText raw).toText).toText = (ofText raw).toText := by
  refine ⟨fun x _ _ => ofText_around x, fun x y h => ?_, fun raw => ?_⟩
  · have hsame : reread x = reread y := by
      rw [← ofText_toText, ← ofText_toText, h]
    rw [reread, reread] at hsame
    split at hsame <;> split at hsame
    · exact .inr ⟨true, true, ‹_›, ‹_›⟩
    · exact .inr ⟨true, false, ‹_›, hsame.symm⟩
    · exact .inr ⟨false, true, hsame, ‹_›⟩
    · exact .inl hsame
  · rw [ofText_toText, Binary64.toText, text_reread]
    rfl

/-- The least magnitude below zero, and a zero that loses its sign. -/
example : (Binary64.signed true ⟨1, by decide⟩).toText = "-5e-324" ∧
    ofText "\u00a0-5e-324\n" = .signed true ⟨1, by decide⟩ ∧ ofText (Binary64.signed true .zero).toText = .zero := by
  decide +kernel

end Number

end ODataQuery
