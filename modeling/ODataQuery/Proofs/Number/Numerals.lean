import ODataQuery.Proofs.Text.Digits

/-!
Numbers as the query language has them: an optional minus, digits, perhaps digits behind a point, and perhaps a power
of ten with its sign. Every finite number is written as one of them, in either of the two notations.
-/

namespace ODataQuery

namespace Text

/-- A point with digits behind it, or nothing. -/
inductive Fraction : List Char → Prop where
  | none : Fraction []
  | point {ds} (hds : IsDigits ds) : Fraction ('.' :: ds)

/-- A power of ten with its sign, or nothing. -/
inductive Power : List Char → Prop where
  | none : Power []
  | plus {ds} (hds : IsDigits ds) : Power ('e' :: '+' :: ds)
  | minus {ds} (hds : IsDigits ds) : Power ('e' :: '-' :: ds)

/-- A number without a sign. -/
def Unsigned (cs : List Char) : Prop :=
  ∃ whole fraction power, IsDigits whole ∧ Fraction fraction ∧ Power power ∧ cs = whole ++ fraction ++ power

/-- The numbers of the query language. -/
inductive Numeral : List Char → Prop where
  | plain {cs} (hcs : Unsigned cs) : Numeral cs
  | minus {cs} (hcs : Unsigned cs) : Numeral ('-' :: cs)

variable {cs : List Char}

theorem Fraction.figures (h : Fraction cs) : Figures cs := by
  cases h with
  | none => exact figures_nil
  | point hds => exact figures_cons.mpr ⟨rfl, hds.figures⟩

theorem Fraction.count_hyphen (h : Fraction cs) : cs.count '-' = 0 := by
  cases h with
  | none => rfl
  | point hds => rw [List.count_cons_of_ne (by decide), hds.count_eq_zero (by decide)]

theorem Power.figures (h : Power cs) : Figures cs := by
  cases h with
  | none => exact figures_nil
  | plus hds | minus hds => simpa only [figures_cons] using ⟨by decide, by decide, hds.figures⟩

theorem Power.count_hyphen_le (h : Power cs) : cs.count '-' ≤ 1 := by
  cases h with
  | none => exact Nat.zero_le _
  | plus hds | minus hds => simp [hds.count_eq_zero]

theorem Unsigned.figures (h : Unsigned cs) : Figures cs := by
  obtain ⟨whole, fraction, power, hwhole, hfraction, hpower, rfl⟩ := h
  exact figures_append.mpr ⟨figures_append.mpr ⟨hwhole.figures, hfraction.figures⟩, hpower.figures⟩

theorem Unsigned.count_hyphen_le (h : Unsigned cs) : cs.count '-' ≤ 1 := by
  obtain ⟨whole, fraction, power, hwhole, hfraction, hpower, rfl⟩ := h
  rw [List.count_append, List.count_append, hwhole.count_eq_zero (by decide), hfraction.count_hyphen]
  exact Nat.le_trans (by omega) hpower.count_hyphen_le

theorem Unsigned.any_isDigit (h : Unsigned cs) : cs.any Char.isDigit = true := by
  obtain ⟨whole, fraction, power, hwhole, -, -, rfl⟩ := h
  rw [List.any_append, List.any_append, hwhole.any]
  rfl

end Text

open Text

namespace Number

variable {ds : List Char}

theorem unsigned_positional (h : IsDigits ds) (lead : Int) : Unsigned (positional ds lead) := by
  rw [positional]
  split
  · exact ⟨['0'], _, [], isDigits_zero, .point (h.zeros_append (-lead).toNat), .none, by simp⟩
  · split
    · exact ⟨_, [], [], h.append_zeros (lead.toNat - ds.length), .none, .none, by simp⟩
    · refine ⟨_, _, [], h.take ?_, .point (h.drop ?_), .none, (List.append_nil _).symm⟩
      · omega
      · omega

theorem unsigned_scientific (h : IsDigits ds) (lead : Int) : Unsigned (scientific ds lead) := by
  have hfraction : Fraction (if 1 < ds.length then '.' :: ds.drop 1 else []) := by
    split
    · exact .point (h.drop ‹_›)
    · exact .none
  have hpower : ∀ power : Int, Power ('e' :: (if power < 0 then '-' else '+') :: digits power.natAbs) := by
    intro power
    split
    · exact .minus (isDigits_digits _)
    · exact .plus (isDigits_digits _)
  exact ⟨_, _, _, h.take Nat.one_ne_zero, hfraction, hpower _, rfl⟩

theorem unsigned_magnitudeText {m : Magnitude} (h : m.isInfinite = false) : Unsigned (magnitudeText m) := by
  rw [magnitudeText, h, if_neg Bool.false_ne_true]
  split
  · exact ⟨['0'], [], [], isDigits_zero, .none, .none, rfl⟩
  · generalize Shortest.decimal m = p
    obtain ⟨n, power⟩ := p
    dsimp only
    split
    · exact unsigned_scientific (isDigits_digits n) _
    · exact unsigned_positional (isDigits_digits n) _

theorem numeral_text {x : Binary64} (h : x.isFinite = true) : Numeral (text x) := by
  cases x with
  | nan => cases h
  | signed negative m =>
      have hunsigned : Unsigned (magnitudeText m) := unsigned_magnitudeText (Bool.not_eq_true' _ |>.mp h)
      rw [text]
      split
      · exact .minus hunsigned
      · exact .plain hunsigned

end Number

end ODataQuery
