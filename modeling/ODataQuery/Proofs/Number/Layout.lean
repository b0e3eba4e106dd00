import ODataQuery.Number.Text
import ODataQuery.Proofs.Number.Shortest
import ODataQuery.Proofs.Text.Digits

/-!
How numbers are laid out. The digits of the shortest decimal are written with a point among or before them, with zeros
behind them, or with a power of ten, and which of these it is follows from the place of the point alone. The writer
compares the magnitude with two bounds instead. These are the doubles nearest to powers of ten, one of which is no
double itself; but a magnitude is below a bound exactly if its shortest decimal is below that power.
-/

namespace ODataQuery

open Text

namespace Magnitude

variable {m : Magnitude}

theorem value_eq {scale r : Nat} (hrank : m.rank = scale * block + r) (hr : r ≤ 2 * block)
    (hscale : scale = 0 ∨ block ≤ r) : m.value = r * 2 ^ ((scale : ℤ) - 1074) := by
  rw [value, units_eq hrank hr hscale, Nat.cast_mul, Nat.cast_pow, Nat.cast_ofNat, ← zpow_natCast, mul_assoc, least,
    ← zpow_add₀ two_ne_zero]
  rfl

end Magnitude

namespace Shortest

open Decimal

variable {m : Magnitude} {c : Nat} {e : ℤ}

/-! ### Powers of ten as bounds -/

/-- A power of ten may be compared by its nearest magnitude: a shortest decimal below the power has another magnitude,
since with that one the power itself would be nearer, and as short. -/
theorem IsShortest.rank_le_iff {t : ℤ} (ht : 19 * (10 : ℚ) ^ (t - 1) < 2 * (Decimal.nearest 1 t).value) (hrank : m.rank ≠ 0)
    (h : IsShortest m c e) : (Decimal.nearest 1 t).rank ≤ m.rank ↔ t < width c + e := by
  have hbound := rounds_nearest 1 t
  have hpower : value 1 t = 10 ^ t := by rw [value, Nat.cast_one, one_mul]
  have hc := coefficient_ne_zero hrank h.rounds
  constructor
  · intro hle
    by_contra hnot
    have hless : value c e < value 1 t := by
      rw [hpower]
      exact (value_lt c e).trans_le (zpow_le_zpow_right₀ (by norm_num) (not_lt.mp hnot))
    have hsame : Decimal.nearest 1 t = m :=
      Magnitude.ext_rank (le_antisymm hle (h.rounds.rank_le hbound hless.le))
    rw [hsame] at hbound ht
    have hone : width c = 1 := le_antisymm (h.width_le 1 t hbound) (width_pos c)
    -- With one digit it is at most nine tenths of the power.
    have hnine : value c e ≤ 9 * 10 ^ (t - 1) := by
      have hdigit : (c : ℚ) ≤ 9 := by
        have hten := lt_pow_width c
        rw [hone] at hten
        exact_mod_cast Nat.le_of_lt_succ hten
      have hexponent : (10 : ℚ) ^ e ≤ 10 ^ (t - 1) := zpow_le_zpow_right₀ (by norm_num) (by omega)
      exact mul_le_mul hdigit hexponent (ten_zpow_pos e).le (by norm_num)
    have hnear := (Magnitude.abs_sub_le_abs_sub_iff' hless).mp (h.nearest 1 t hbound hone.symm)
    have hten : (10 : ℚ) ^ t = 10 * 10 ^ (t - 1) := by
      rw [← zpow_one_add₀ (by norm_num), add_sub_cancel]
    rw [hpower, hten] at hnear
    linarith
  · intro hlead
    refine hbound.rank_le h.rounds ?_
    rw [hpower]
    exact (zpow_le_zpow_right₀ (by norm_num) (by omega)).trans (le_value hc e)

theorem hugeFrom_value : Number.hugeFrom.value = 10 ^ (21 : ℤ) := by
  have hrank : Number.hugeFrom.rank = 1091 * Magnitude.block + 7629394531250000 := by decide +kernel
  rw [Magnitude.value_eq hrank (by decide) (.inr (by decide))]
  norm_num

theorem tinyBelow_value : Number.tinyBelow.value = 4722366482869645 * 2 ^ (-72 : ℤ) := by
  have hrank : Number.tinyBelow.rank = 1002 * Magnitude.block + 4722366482869645 := by decide +kernel
  rw [Magnitude.value_eq hrank (by decide) (.inr (by decide))]
  norm_num

theorem IsShortest.hugeFrom_le_iff (hrank : m.rank ≠ 0) (h : IsShortest m c e) :
    Number.hugeFrom.rank ≤ m.rank ↔ 21 < width c + e := by
  apply h.rank_le_iff _ hrank
  rw [← Number.hugeFrom, hugeFrom_value]
  norm_num

theorem IsShortest.lt_tinyBelow_iff (hrank : m.rank ≠ 0) (h : IsShortest m c e) :
    m.rank < Number.tinyBelow.rank ↔ width c + e ≤ -6 := by
  rw [← not_le, ← not_lt (a := (-6 : ℤ))]
  refine not_congr (h.rank_le_iff ?_ hrank)
  rw [← Number.tinyBelow, tinyBelow_value]
  norm_num

end Shortest

namespace Number

open Shortest

/-- The digits `s` of the shortest decimal for a magnitude, and the place `n` of the point in them: the decimal is
`s * 10 ^ (n - k)` if there are `k` digits. -/
structure ShortestRow (m : Magnitude) (s : List Char) (n : ℤ) : Prop where
  digits : IsDigits s
  head : s.head? ≠ some '0'
  last : s.getLast? ≠ some '0'
  shortest : IsShortest m (ofDigits s) (n - s.length)

/-- Digits with the point at the place `n`. -/
inductive PointText (s : List Char) (n : ℤ) : List Char → Prop where
  | behind (hlow : s.length ≤ n) (hhigh : n ≤ 21) : PointText s n (s ++ List.replicate (n - s.length).toNat '0')
  | among (hlow : 0 < n) (hless : n < s.length) (hhigh : n ≤ 21) :
      PointText s n (s.take n.toNat ++ '.' :: s.drop n.toNat)
  | before (hlow : -6 < n) (hhigh : n ≤ 0) : PointText s n ('0' :: '.' :: List.replicate (-n).toNat '0' ++ s)
  | power (hfar : 21 < n ∨ n ≤ -6) :
      PointText s n (s.take 1 ++ (if 1 < s.length then '.' :: s.drop 1 else []) ++
        'e' :: (if n - 1 < 0 then '-' else '+') :: Text.digits (n - 1).natAbs)

variable {m : Magnitude} {s : List Char} {n : ℤ}

theorem ShortestRow.unique {s' : List Char} {n' : ℤ} (hrank : m.rank ≠ 0) (h : ShortestRow m s n)
    (h' : ShortestRow m s' n') : s' = s ∧ n' = n := by
  obtain ⟨hnumber, hexponent⟩ := h.shortest.unique hrank h'.shortest
  obtain rfl : s' = s := by
    rw [← digits_ofDigits h.digits h.head, ← digits_ofDigits h'.digits h'.head, hnumber]
  exact ⟨rfl, by omega⟩

theorem shortestRow_decimal (hrank : m.rank ≠ 0) :
    ShortestRow m (Text.digits (decimal m).1) ((Text.digits (decimal m).1).length + (decimal m).2) := by
  have hshortest := isShortest_decimal hrank
  refine ⟨isDigits_digits _, head?_digits (coefficient_ne_zero hrank hshortest.rounds),
    getLast?_digits_ne_zero.mpr (hshortest.mod_ten_ne_zero hrank), ?_⟩
  rw [ofDigits_digits, add_sub_cancel_left]
  exact hshortest

theorem pointText_scientific (hfar : 21 < n ∨ n ≤ -6) : PointText s n (scientific s n) := .power hfar

theorem pointText_positional (hlow : -6 < n) (hhigh : n ≤ 21) : PointText s n (positional s n) := by
  rw [positional]
  split
  · exact .before hlow ‹_›
  · split
    · have hzeros : n.toNat - s.length = (n - s.length).toNat := by omega
      rw [hzeros]
      exact .behind ‹_› hhigh
    · exact .among (by omega) (by omega) hhigh

/-- The decimal is named, as it must not be computed. -/
theorem magnitudeText_eq {c : Nat} {e : ℤ} (hfinite : m.isInfinite = false) (hrank : m.rank ≠ 0) (h : decimal m = (c, e)) :
    magnitudeText m = if hugeFrom.rank ≤ m.rank ∨ m.rank < tinyBelow.rank
      then scientific (Text.digits c) ((Text.digits c).length + e)
      else positional (Text.digits c) ((Text.digits c).length + e) := by
  rw [magnitudeText, hfinite, if_neg Bool.false_ne_true, if_neg hrank, h]

theorem pointText_magnitudeText (hfinite : m.isInfinite = false) (hrank : m.rank ≠ 0) :
    ∃ s n, ShortestRow m s n ∧ PointText s n (magnitudeText m) := by
  have hshortest := isShortest_decimal hrank
  have hbounds := or_congr (hshortest.hugeFrom_le_iff hrank) (hshortest.lt_tinyBelow_iff hrank)
  refine ⟨_, _, shortestRow_decimal hrank, ?_⟩
  rw [Decimal.width] at hbounds
  rw [magnitudeText_eq hfinite hrank Prod.mk.eta.symm]
  split
  · exact pointText_scientific (hbounds.mp ‹_›)
  · have hnear := hbounds.not.mp ‹_›
    exact pointText_positional (by omega) (by omega)

theorem text_signed (negative : Bool) (hrank : m.rank ≠ 0) :
    text (.signed negative m) = (if negative = true then ['-'] else []) ++ magnitudeText m := by
  simp only [text, ne_eq, hrank, not_false_eq_true, and_true]

/-- The text of a number is laid out by the digits of its shortest decimal, which are unique, and by the place of the
point in them. -/
theorem text_laid_out (negative : Bool) {m : Magnitude} (hfinite : m.isInfinite = false) (hrank : m.rank ≠ 0) :
    ∃ s n cs, ShortestRow m s n ∧ (∀ s' n', ShortestRow m s' n' → s' = s ∧ n' = n) ∧ PointText s n cs ∧
      text (.signed negative m) = (if negative = true then ['-'] else []) ++ cs := by
  obtain ⟨s, n, hrow, hlayout⟩ := pointText_magnitudeText hfinite hrank
  exact ⟨s, n, _, hrow, fun s' n' h' => hrow.unique hrank h', hlayout, text_signed negative hrank⟩

/-- Half way between two decimals of its length. -/
theorem text_laid_out_half_way :
    let m := Decimal.nearest 112589990684262425 (-2)
    m.isInfinite = false ∧ m.rank ≠ 0 ∧
      ∃ s n cs, ShortestRow m s n ∧ (∀ s' n', ShortestRow m s' n' → s' = s ∧ n' = n) ∧ PointText s n cs ∧
        text (.signed true m) = ['-'] ++ cs := by
  intro m
  have hfinite : m.isInfinite = false := by decide +kernel
  have hrank : m.rank ≠ 0 := by decide +kernel
  exact ⟨hfinite, hrank, text_laid_out true hfinite hrank⟩

/-- Of two decimals the greater is written. The bounds of the layouts are next to `1e21` and `1e-6`. -/
example : text (.signed true (Decimal.nearest 112589990684262425 (-2))) = "-1125899906842624.3".toList ∧
    text (.signed false ⟨hugeFrom.rank - 1, by decide +kernel⟩) = "999999999999999900000".toList ∧
    text (.signed false hugeFrom) = "1e+21".toList ∧ text (.signed false tinyBelow) = "0.000001".toList ∧
    text (.signed false ⟨tinyBelow.rank - 1, by decide +kernel⟩) = "9.999999999999997e-7".toList := by
  decide +kernel

end Number

end ODataQuery
