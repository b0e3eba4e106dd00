import Mathlib.Algebra.Order.Field.Power
import Mathlib.Algebra.Order.Field.Rat
import Mathlib.Tactic.FieldSimp
import Mathlib.Tactic.Linarith
import Mathlib.Tactic.NormNum
import Mathlib.Tactic.Ring
import ODataQuery.Number.Decimal

/-!
Rounding to the nearest magnitude. Magnitudes are in the order of their ranks, infinity being worth the power of two
behind the last finite one, and a number is rounded to the magnitude that is nearest to it, the one of even rank of
two. That magnitude is unique and grows with the number, so that the numbers rounded to it have no gaps.
-/

namespace ODataQuery

namespace Magnitude

variable {m m' : Magnitude}

/-! ### The values of magnitudes -/

theorem ext_rank (h : m.rank = m'.rank) : m = m' := by
  cases m
  cases m'
  exact congr(⟨$h, _⟩)

theorem units_eq {scale r : Nat} (hrank : m.rank = scale * block + r) (hr : r ≤ 2 * block)
    (hscale : scale = 0 ∨ block ≤ r) : m.units = r * 2 ^ scale := by
  have hunits : m.units = (m.rank - m.scale * block) * 2 ^ m.scale := rfl
  by_cases htwo : r = 2 * block
  · -- Two blocks are one block of units doubled once more.
    have hm : m.scale = scale + 1 := by
      rw [Magnitude.scale]
      simp only [block] at *
      omega
    have hone : m.rank - m.scale * block = block := by
      rw [hm]
      simp only [block] at *
      omega
    rw [hunits, hone, hm, htwo, pow_succ]
    ring
  · have hm : m.scale = scale := by
      rw [Magnitude.scale]
      simp only [block] at *
      omega
    rw [hunits, hm, hrank, Nat.add_sub_cancel_left]

/-- A magnitude counts units that have been doubled as often as its scale says: fewer than two blocks, and at least one
if they were doubled at all. -/
theorem exists_units (m : Magnitude) : ∃ scale r, m.rank = scale * block + r ∧ r < 2 * block ∧
    (scale = 0 ∨ block ≤ r) ∧ m.units = r * 2 ^ scale := by
  obtain ⟨hrank, hr, hscale⟩ : m.rank = m.scale * block + (m.rank - m.scale * block) ∧
      m.rank - m.scale * block < 2 * block ∧ (m.scale = 0 ∨ block ≤ m.rank - m.scale * block) := by
    rw [Magnitude.scale]
    simp only [block]
    omega
  exact ⟨_, _, hrank, hr, hscale, units_eq hrank hr.le hscale⟩

theorem units_lt (h : m.rank < m'.rank) : m.units < m'.units := by
  obtain ⟨s, r, hrank, hr, hscale, hunits⟩ := m.exists_units
  obtain ⟨s', r', hrank', hr', hscale', hunits'⟩ := m'.exists_units
  rw [hunits, hunits']
  have hpos : 0 < 2 ^ s := by positivity
  rcases Nat.lt_trichotomy s s' with hs | rfl | hs
  · have hblock : block ≤ r' := hscale'.resolve_left (by omega)
    calc r * 2 ^ s < 2 * block * 2 ^ s := Nat.mul_lt_mul_of_pos_right hr hpos
      _ = block * 2 ^ (s + 1) := by ring
      _ ≤ r' * 2 ^ s' := Nat.mul_le_mul hblock (Nat.pow_le_pow_right (by decide) hs)
  · exact Nat.mul_lt_mul_of_pos_right (by omega) hpos
  · have hblock : block ≤ r := hscale.resolve_left (by omega)
    have hless : s' * block + block ≤ s * block := by
      rw [← Nat.succ_mul]
      exact Nat.mul_le_mul_right _ hs
    omega

theorem ext_units (h : m.units = m'.units) : m = m' := by
  rcases Nat.lt_trichotomy m.rank m'.rank with hlt | hsame | hlt
  · exact absurd h (units_lt hlt).ne
  · exact ext_rank hsame
  · exact absurd h (units_lt hlt).ne'

theorem units_infinity : infinity.units = block * 2 ^ 2046 :=
  units_eq (show infinity.rank = 2046 * block + block by decide) (by decide) (.inr le_rfl)

/-- The least positive magnitude, in which the others are counted. -/
def least : ℚ := 2 ^ (-1074 : ℤ)

/-- The exact value of a magnitude. That of infinity is the power of two behind the last finite one. -/
def value (m : Magnitude) : ℚ := m.units * least

theorem least_pos : 0 < least := zpow_pos (by norm_num) _

theorem value_lt (h : m.rank < m'.rank) : m.value < m'.value :=
  mul_lt_mul_of_pos_right (Nat.cast_lt.mpr (units_lt h)) least_pos

theorem value_nonneg (m : Magnitude) : 0 ≤ m.value := mul_nonneg m.units.cast_nonneg least_pos.le

theorem value_le (h : m.rank ≤ m'.rank) : m.value ≤ m'.value := by
  rcases h.eq_or_lt with heq | hlt
  · rw [ext_rank heq]
  · exact (value_lt hlt).le

theorem isInfinite_iff_eq : m.isInfinite = true ↔ m = infinity := by
  have htop : infinity.rank = top := Nat.min_self _
  rw [isInfinite, beq_iff_eq, ← htop]
  exact ⟨ext_rank, congrArg _⟩

theorem rank_lt_infinity (h : m ≠ infinity) : m.rank < infinity.rank := by
  have htop : infinity.rank = top := Nat.min_self _
  have hle := m.le_top
  have hrank : m.rank ≠ infinity.rank := fun heq => h (ext_rank heq)
  omega

/-! ### Rounding -/

/-- `q` is rounded to `m`: no magnitude is nearer, and if another one is as near, the rank of `m` is even. -/
structure Rounds (q : ℚ) (m : Magnitude) : Prop where
  nearest : ∀ m' : Magnitude, |m.value - q| ≤ |m'.value - q|
  even : ∀ m' : Magnitude, m' ≠ m → |m'.value - q| = |m.value - q| → m.rank % 2 = 0

variable {q q' : ℚ}

section

variable {a b : ℚ} (h : b < a)
include h

/-- Of two points the greater is as near as the other from the middle on, and the other up to the middle. -/
theorem abs_sub_le_abs_sub_iff : |a - q| ≤ |b - q| ↔ a + b ≤ 2 * q := by
  rcases abs_cases (a - q) with ha | ha <;> rcases abs_cases (b - q) with hb | hb <;> constructor <;> intro <;> linarith

theorem abs_sub_le_abs_sub_iff' : |b - q| ≤ |a - q| ↔ 2 * q ≤ a + b := by
  rcases abs_cases (a - q) with ha | ha <;> rcases abs_cases (b - q) with hb | hb <;> constructor <;> intro <;> linarith

end

theorem rounds_value (m : Magnitude) : Rounds m.value m where
  nearest m' := by
    rw [sub_self, abs_zero]
    exact abs_nonneg _
  even m' hne heq := by
    rw [sub_self, abs_zero, abs_eq_zero, sub_eq_zero] at heq
    rcases Nat.lt_trichotomy m'.rank m.rank with hlt | hsame | hlt
    · exact absurd heq (value_lt hlt).ne
    · exact absurd (ext_rank hsame) hne
    · exact absurd heq (value_lt hlt).ne'

/-- A smaller number is not rounded to a greater magnitude. -/
theorem Rounds.rank_le (h : Rounds q m) (h' : Rounds q' m') (hq : q ≤ q') : m.rank ≤ m'.rank := by
  by_contra hnot
  have hlt : m'.rank < m.rank := not_le.mp hnot
  have hne : m ≠ m' := by
    rintro rfl
    exact lt_irrefl _ hlt
  have hlow : m.value + m'.value ≤ 2 * q := (abs_sub_le_abs_sub_iff (value_lt hlt)).mp (h.nearest m')
  have hhigh : 2 * q' ≤ m.value + m'.value := (abs_sub_le_abs_sub_iff' (value_lt hlt)).mp (h'.nearest m)
  -- Both numbers are the middle. So both ranks are even, and a magnitude between the two is nearer.
  obtain rfl : q = q' := by linarith
  have hsame : |m.value - q| = |m'.value - q| :=
    le_antisymm (h.nearest m') (h'.nearest m)
  have heven : m.rank % 2 = 0 := h.even m' hne.symm hsame.symm
  have heven' : m'.rank % 2 = 0 := h'.even m hne hsame
  have hbetween : (ofRank (m'.rank + 1)).rank = m'.rank + 1 :=
    min_eq_left (Nat.le_trans hlt m.le_top)
  have hup : m'.value < (ofRank (m'.rank + 1)).value := value_lt (by omega)
  have hdown : (ofRank (m'.rank + 1)).value < m.value := value_lt (by omega)
  have hnear := (abs_sub_le_abs_sub_iff hdown).mp (h.nearest _)
  linarith

theorem Rounds.unique (h : Rounds q m) (h' : Rounds q m') : m = m' :=
  ext_rank (le_antisymm (h.rank_le h' le_rfl) (h'.rank_le h le_rfl))

/-! ### The nearest magnitude -/

section

variable (num : Nat) {den : Nat} (hden : 0 < den)
include hden

theorem nearestEven_bounds : 2 * (nearestEven num den * den) ≤ 2 * num + den ∧
    2 * num ≤ 2 * (nearestEven num den * den) + den ∧
    (2 * (nearestEven num den * den) = 2 * num + den ∨ 2 * num = 2 * (nearestEven num den * den) + den →
      nearestEven num den % 2 = 0) := by
  have hnum : num / den * den + num % den = num := Nat.div_add_mod' num den
  have hrest : num % den < den := Nat.mod_lt _ hden
  have hnext : (num / den + 1) * den = num / den * den + den := Nat.succ_mul ..
  rw [nearestEven]
  split
  · omega
  · split
    · omega
    · rcases Nat.mod_two_eq_zero_or_one (num / den) with hq | hq
      · rw [hq, Nat.add_zero]
        omega
      · rw [hq]
        omega

/-- No whole number is nearer to the quotient, and if another one is as near, the one that is taken is even. -/
theorem nearestEven_nearest (k : Nat) : |(nearestEven num den : ℚ) - num / den| ≤ |(k : ℚ) - num / den| ∧
    (k ≠ nearestEven num den → |(k : ℚ) - num / den| = |(nearestEven num den : ℚ) - num / den| →
      nearestEven num den % 2 = 0) := by
  obtain ⟨hlow, hhigh, heven⟩ := nearestEven_bounds num hden
  generalize nearestEven num den = r at *
  have hpos : (0 : ℚ) < den := Nat.cast_pos.mpr hden
  have hbelow : (r : ℚ) - 1 / 2 ≤ num / den := by
    rw [le_div_iff₀ hpos]
    have hcast : (2 : ℚ) * (r * den) ≤ 2 * num + den := by exact_mod_cast hlow
    linarith
  have habove : (num : ℚ) / den ≤ r + 1 / 2 := by
    rw [div_le_iff₀ hpos]
    have hcast : (2 : ℚ) * num ≤ 2 * (r * den) + den := by exact_mod_cast hhigh
    linarith
  have hends : (num : ℚ) / den = r - 1 / 2 ∨ (num : ℚ) / den = r + 1 / 2 → r % 2 = 0 := by
    intro hend
    apply heven
    rcases hend with hend | hend
    · refine .inl ?_
      rw [div_eq_iff hpos.ne'] at hend
      have hcast : (2 : ℚ) * (r * den) = 2 * num + den := by linarith
      exact_mod_cast hcast
    · refine .inr ?_
      rw [div_eq_iff hpos.ne'] at hend
      have hcast : (2 : ℚ) * num = 2 * (r * den) + den := by linarith
      exact_mod_cast hcast
  generalize (num : ℚ) / den = y at *
  rcases Nat.lt_trichotomy k r with hk | rfl | hk
  · have hcast : (k : ℚ) + 1 ≤ r := by exact_mod_cast hk
    refine ⟨(abs_sub_le_abs_sub_iff (by linarith)).mpr (by linarith), fun _ hsame => hends (.inl ?_)⟩
    have hmiddle := (abs_sub_le_abs_sub_iff' (a := (r : ℚ)) (b := k) (q := y) (by linarith)).mp hsame.le
    linarith
  · exact ⟨le_rfl, fun hne => absurd rfl hne⟩
  · have hcast : (r : ℚ) + 1 ≤ k := by exact_mod_cast hk
    refine ⟨(abs_sub_le_abs_sub_iff' (by linarith)).mpr (by linarith), fun _ hsame => hends (.inr ?_)⟩
    have hmiddle := (abs_sub_le_abs_sub_iff (a := (k : ℚ)) (b := r) (q := y) (by linarith)).mp hsame.le
    linarith

end

/-- A magnitude lies on the grid of a scale, or below its first block. -/
theorem units_grid (m : Magnitude) (scale : Nat) :
    (∃ k, m.units = k * 2 ^ scale) ∨ 0 < scale ∧ m.units < block * 2 ^ scale := by
  obtain ⟨s, r, -, hr, -, hunits⟩ := m.exists_units
  rcases Nat.lt_or_ge s scale with hs | hs
  · refine .inr ⟨by omega, ?_⟩
    calc m.units = r * 2 ^ s := hunits
      _ < 2 * block * 2 ^ s := Nat.mul_lt_mul_of_pos_right hr (by positivity)
      _ = block * 2 ^ (s + 1) := by ring
      _ ≤ block * 2 ^ scale := Nat.mul_le_mul_left _ (Nat.pow_le_pow_right (by decide) hs)
  · refine .inl ⟨r * 2 ^ (s - scale), ?_⟩
    rw [hunits, mul_assoc, ← pow_add, Nat.sub_add_cancel hs]

/-- Rounding may be judged in units. -/
theorem rounds_of_units {x : ℚ} (hnearest : ∀ m' : Magnitude, |(m.units : ℚ) - x| ≤ |(m'.units : ℚ) - x|)
    (heven : ∀ m' : Magnitude, m' ≠ m → |(m'.units : ℚ) - x| = |(m.units : ℚ) - x| → m.rank % 2 = 0) :
    Rounds (x * least) m := by
  have hdist : ∀ m' : Magnitude, |m'.value - x * least| = |(m'.units : ℚ) - x| * least := by
    intro m'
    rw [value, ← sub_mul, abs_mul, abs_of_pos least_pos]
  constructor
  · intro m'
    rw [hdist, hdist]
    exact mul_le_mul_of_nonneg_right (hnearest m') least_pos.le
  · intro m' hne hsame
    rw [hdist, hdist] at hsame
    exact heven m' hne (mul_right_cancel₀ least_pos.ne' hsame)

/-- From the value of infinity on, everything is rounded to infinity. -/
theorem rounds_infinity (h : infinity.value ≤ q) : Rounds q infinity := by
  have hless : ∀ m' : Magnitude, m' ≠ infinity → m'.value < infinity.value := fun _ hne => value_lt (rank_lt_infinity hne)
  constructor
  · intro m'
    by_cases hm : m' = infinity
    · rw [hm]
    · rw [abs_sub_le_abs_sub_iff (hless m' hm)]
      linarith [hless m' hm]
  · intro m' hne hsame
    have hmiddle := (abs_sub_le_abs_sub_iff' (hless m' hne)).mp hsame.le
    linarith [hless m' hne]

/-- On the grid of a scale, `y` is rounded to `r` points if no other number of points is nearer, or as near as an odd
`r`. -/
structure RoundsToPoints (y : ℚ) (scale r : Nat) : Prop where
  nearest : ∀ k : Nat, |(r : ℚ) - y| ≤ |(k : ℚ) - y|
  even : ∀ k : Nat, k ≠ r → |(k : ℚ) - y| = |(r : ℚ) - y| → r % 2 = 0
  le_two_blocks : r ≤ 2 * block
  block_le_points : scale = 0 ∨ block ≤ r
  block_le : scale = 0 ∨ (block : ℚ) ≤ y

namespace RoundsToPoints

variable {y : ℚ} {scale r : Nat}

theorem abs_points (y : ℚ) (scale k : Nat) :
    |((k * 2 ^ scale : Nat) : ℚ) - y * 2 ^ scale| = |(k : ℚ) - y| * 2 ^ scale := by
  have hpos : (0 : ℚ) < 2 ^ scale := by positivity
  push_cast
  rw [← sub_mul, abs_mul, abs_of_pos hpos]

/-- A magnitude below the first block of the grid is farther. -/
theorem lt_below (h : RoundsToPoints y scale r) (hscale : 0 < scale) (hless : m'.units < block * 2 ^ scale) :
    |((r * 2 ^ scale : Nat) : ℚ) - y * 2 ^ scale| < |(m'.units : ℚ) - y * 2 ^ scale| := by
  have hpos : (0 : ℚ) < 2 ^ scale := by positivity
  have hy : (block : ℚ) ≤ y := h.block_le.resolve_left hscale.ne'
  have hcast : (m'.units : ℚ) < block * 2 ^ scale := by exact_mod_cast hless
  calc |((r * 2 ^ scale : Nat) : ℚ) - y * 2 ^ scale| ≤ |(block : ℚ) - y| * 2 ^ scale := by
        rw [abs_points]
        exact mul_le_mul_of_nonneg_right (h.nearest block) hpos.le
    _ = y * 2 ^ scale - block * 2 ^ scale := by rw [abs_of_nonpos (by linarith)]; ring
    _ < y * 2 ^ scale - m'.units := by linarith
    _ ≤ |(m'.units : ℚ) - y * 2 ^ scale| := by rw [abs_sub_comm]; exact le_abs_self _

theorem rounds (h : RoundsToPoints y scale r) (hrank : m.rank = scale * block + r) :
    Rounds (y * 2 ^ scale * least) m := by
  have hpos : (0 : ℚ) < 2 ^ scale := by positivity
  have hunits := units_eq hrank h.le_two_blocks h.block_le_points
  apply rounds_of_units
  · intro m'
    rw [hunits]
    rcases m'.units_grid scale with ⟨k, hk⟩ | ⟨hscale, hless⟩
    · rw [hk, abs_points, abs_points]
      exact mul_le_mul_of_nonneg_right (h.nearest k) hpos.le
    · exact (h.lt_below hscale hless).le
  · intro m' hne hsame
    rw [hunits] at hsame
    rcases m'.units_grid scale with ⟨k, hk⟩ | ⟨hscale, hless⟩
    · have hkr : k ≠ r := by
        rintro rfl
        exact hne (ext_units (hk.trans hunits.symm))
      rw [hk, abs_points, abs_points] at hsame
      have heven := h.even k hkr (mul_right_cancel₀ hpos.ne' hsame)
      simp only [block] at hrank
      omega
    · exact absurd hsame (h.lt_below hscale hless).ne'

/-- Behind the last rank there is infinity. -/
theorem rounds_ofRank (h : RoundsToPoints y scale r) : Rounds (y * 2 ^ scale * least) (ofRank (scale * block + r)) := by
  by_cases hfinite : scale * block + r ≤ top
  · exact h.rounds (min_eq_left hfinite)
  · have hinfinity : ofRank (scale * block + r) = infinity := ext_rank ((min_eq_right (by omega)).trans (Nat.min_self _).symm)
    rw [hinfinity]
    have hr := h.le_two_blocks
    have hscale : 2046 ≤ scale := by
      simp only [top, block] at *
      omega
    apply rounds_infinity
    rw [value, units_infinity]
    have hy : (block : ℚ) ≤ y := h.block_le.resolve_left (by omega)
    have hpow : (2 : ℚ) ^ 2046 ≤ 2 ^ scale := pow_le_pow_right₀ (by norm_num) hscale
    have hunits : ((block * 2 ^ 2046 : Nat) : ℚ) ≤ y * 2 ^ scale := by
      rw [Nat.cast_mul, Nat.cast_pow, Nat.cast_ofNat]
      exact mul_le_mul hy hpow (by positivity) (block.cast_nonneg.trans hy)
    exact mul_le_mul_of_nonneg_right hunits least_pos.le

end RoundsToPoints

/-- The scale is chosen so that the quotient has fewer than two blocks of units, and at least one unless the scale is
least. -/
theorem scale_bounds (num : Nat) {den : Nat} (hden : 0 < den) :
    let scale := (num / den).log2 - 52
    num < 2 * block * (den * 2 ^ scale) ∧ (scale = 0 ∨ block * (den * 2 ^ scale) ≤ num) := by
  intro scale
  have hblock : block = 2 ^ 52 := by decide
  constructor
  · have hquotient : num / den < 2 * block * 2 ^ scale := by
      calc num / den < 2 ^ ((num / den).log2 + 1) := Nat.lt_log2_self
        _ ≤ 2 ^ (scale + 53) := Nat.pow_le_pow_right (by decide) (by omega)
        _ = 2 * block * 2 ^ scale := by rw [hblock, pow_add]; ring
    calc num < 2 * block * 2 ^ scale * den := (Nat.div_lt_iff_lt_mul hden).mp hquotient
      _ = 2 * block * (den * 2 ^ scale) := by ring
  · by_cases hzero : scale = 0
    · exact .inl hzero
    · have hlog : (num / den).log2 = scale + 52 := by omega
      have hne : num / den ≠ 0 := by
        intro h
        rw [h, Nat.log2_zero] at hlog
        omega
      refine .inr ?_
      calc block * (den * 2 ^ scale) = 2 ^ (num / den).log2 * den := by rw [hlog, hblock, pow_add]; ring
        _ ≤ num / den * den := Nat.mul_le_mul_right den (Nat.log2_self_le hne)
        _ ≤ num := Nat.div_mul_le_self num den

theorem rounds_nearest (num : Nat) {den : Nat} (hden : 0 < den) : Rounds (num / den * least) (nearest num den) := by
  obtain ⟨htwo, hone⟩ := scale_bounds num hden
  rw [nearest]
  generalize (num / den).log2 - 52 = scale at *
  have hpow : Nat.pow 2 scale = 2 ^ scale := rfl
  rw [hpow]
  have hscaled : 0 < den * 2 ^ scale := by positivity
  -- In units the number is the quotient on the grid of the scale.
  have hgrid : (num : ℚ) / den = num / ((den * 2 ^ scale : Nat) : ℚ) * 2 ^ scale := by
    push_cast
    have hne : (den : ℚ) ≠ 0 := Nat.cast_ne_zero.mpr hden.ne'
    field_simp
  obtain ⟨hlow, hhigh, -⟩ := nearestEven_bounds num hscaled
  rw [hgrid]
  refine RoundsToPoints.rounds_ofRank ⟨fun k => (nearestEven_nearest num hscaled k).1,
    fun k => (nearestEven_nearest num hscaled k).2, ?_, ?_, ?_⟩
  · generalize nearestEven num (den * 2 ^ scale) = r at *
    have hless : 2 * r * (den * 2 ^ scale) < (4 * block + 1) * (den * 2 ^ scale) := by linarith
    have := Nat.lt_of_mul_lt_mul_right hless
    omega
  · generalize nearestEven num (den * 2 ^ scale) = r at *
    refine hone.imp_right fun hone => ?_
    have hless : 2 * block * (den * 2 ^ scale) ≤ (2 * r + 1) * (den * 2 ^ scale) := by linarith
    have := Nat.le_of_mul_le_mul_right hless hscaled
    omega
  · refine hone.imp_right fun hone => ?_
    rw [le_div_iff₀ (Nat.cast_pos.mpr hscaled)]
    exact_mod_cast hone

theorem value_infinity : infinity.value = 2 ^ (1024 : ℤ) := by
  have hblock : (block : ℚ) = 2 ^ (52 : ℤ) := by
    norm_num [block]
  rw [value, units_infinity, Nat.cast_mul, Nat.cast_pow, Nat.cast_ofNat, ← zpow_natCast, hblock, least,
    ← zpow_add₀ two_ne_zero, ← zpow_add₀ two_ne_zero]
  rfl

/-- Half way from the last finite magnitude to the value of infinity. -/
def overflow : ℚ := 2 ^ (1024 : ℤ) - 2 ^ (970 : ℤ)

/-- The last finite magnitude. -/
def last : Magnitude := ofRank (top - 1)

theorem value_last : infinity.value + last.value = 2 * overflow := by
  have hrank : last.rank = 2045 * block + (2 * block - 1) := by decide
  have hunits : last.units = (2 * block - 1) * 2 ^ 2045 := units_eq hrank (by decide) (.inr (by decide))
  have hblock : (((2 * block - 1 : Nat)) : ℚ) = 2 ^ (53 : ℤ) - 1 := by
    norm_num [block]
  have hlast : last.value = 2 ^ (1024 : ℤ) - 2 ^ (971 : ℤ) := by
    have hexponent : (2 : ℚ) ^ (2045 : ℤ) * least = 2 ^ (971 : ℤ) := by
      rw [least, ← zpow_add₀ two_ne_zero]
      rfl
    have hsum : (2 : ℚ) ^ (53 : ℤ) * 2 ^ (971 : ℤ) = 2 ^ (1024 : ℤ) := by
      rw [← zpow_add₀ two_ne_zero]
      rfl
    rw [value, hunits, Nat.cast_mul, Nat.cast_pow, Nat.cast_ofNat, ← zpow_natCast, hblock, mul_assoc]
    calc _ = ((2 : ℚ) ^ (53 : ℤ) - 1) * 2 ^ (971 : ℤ) := congrArg _ hexponent
      _ = 2 ^ (53 : ℤ) * 2 ^ (971 : ℤ) - 2 ^ (971 : ℤ) := sub_one_mul _ _
      _ = 2 ^ (1024 : ℤ) - 2 ^ (971 : ℤ) := by rw [hsum]
  have hdouble : (2 : ℚ) * 2 ^ (970 : ℤ) = 2 ^ (971 : ℤ) := by
    rw [← zpow_one_add₀ two_ne_zero]
    rfl
  rw [value_infinity, hlast, overflow, ← hdouble]
  ring

/-- Rounding overflows from the middle on, because the last finite magnitude has an odd rank. -/
theorem Rounds.isInfinite_iff (h : Rounds q m) : m.isInfinite = true ↔ overflow ≤ q := by
  have hmiddle := value_last
  have hless : last.value < infinity.value := value_lt (by decide)
  rw [isInfinite_iff_eq]
  constructor
  · rintro rfl
    have hnear := (abs_sub_le_abs_sub_iff hless).mp (h.nearest last)
    linarith
  · intro hq
    by_contra hne
    have hrank : m.rank ≤ last.rank := by
      have hm := rank_lt_infinity hne
      have hlast : infinity.rank = last.rank + 1 := by decide
      omega
    have hvalue : m.value ≤ last.value := value_le hrank
    have hnear := (abs_sub_le_abs_sub_iff' (hvalue.trans_lt hless)).mp (h.nearest infinity)
    have heq : m = last := by
      apply ext_rank
      by_contra hneq
      have := value_lt (lt_of_le_of_ne hrank hneq)
      linarith
    subst heq
    have hsame : |infinity.value - q| = |last.value - q| :=
      le_antisymm ((abs_sub_le_abs_sub_iff hless).mpr (by linarith)) (h.nearest infinity)
    exact absurd (h.even infinity (fun h => hne h.symm) hsame) (by decide)

theorem value_zero : zero.value = 0 := by
  have hunits : zero.units = 0 := by decide
  rw [value, hunits, Nat.cast_zero, zero_mul]

/-- Less than half of the least magnitude is rounded to nothing. -/
theorem rounds_zero (hq : 0 ≤ q) (hless : 2 * q < least) : Rounds q zero := by
  have hleast : ∀ m' : Magnitude, m' ≠ zero → least ≤ m'.value := by
    intro m' hne
    have hunits : m'.units ≠ 0 := fun h => hne (ext_units (h.trans (by decide)))
    have hone : (1 : ℚ) ≤ m'.units := Nat.one_le_cast.mpr (Nat.pos_of_ne_zero hunits)
    calc least = 1 * least := (one_mul _).symm
      _ ≤ m'.units * least := mul_le_mul_of_nonneg_right hone least_pos.le
  have hzero := value_zero
  constructor
  · intro m'
    by_cases hm : m' = zero
    · rw [hm]
    · have := hleast m' hm
      rw [abs_sub_le_abs_sub_iff' (by linarith [least_pos])]
      linarith
  · intro m' hne hsame
    have := hleast m' hne
    have hmiddle := (abs_sub_le_abs_sub_iff (by linarith [least_pos])).mp hsame.le
    linarith

end Magnitude

/-! ### Decimals -/

namespace Decimal

variable {coefficient : Nat}

/-- The number `coefficient * 10 ^ exponent`. -/
def value (coefficient : Nat) (exponent : ℤ) : ℚ := coefficient * 10 ^ exponent

theorem ten_zpow_pos (exponent : ℤ) : (0 : ℚ) < 10 ^ exponent := zpow_pos (by norm_num) _

theorem value_nonneg (coefficient : Nat) (exponent : ℤ) : 0 ≤ value coefficient exponent :=
  mul_nonneg coefficient.cast_nonneg (ten_zpow_pos _).le

theorem width_pos (n : Nat) : 0 < width n := Nat.length_toDigits_pos

theorem lt_pow_width (n : Nat) : n < 10 ^ width n :=
  (Nat.length_toDigits_le_iff (by decide) (width_pos n)).mp le_rfl

theorem pow_le_of_lt_width {n k : Nat} (hn : n ≠ 0) (h : k < width n) : 10 ^ k ≤ n := by
  rcases Nat.eq_zero_or_pos k with rfl | hk
  · exact Nat.pos_of_ne_zero hn
  · by_contra hless
    have := (Nat.length_toDigits_le_iff (by decide) hk).mpr (not_le.mp hless)
    exact absurd h (not_lt.mpr this)

theorem value_lt (coefficient : Nat) (exponent : ℤ) :
    value coefficient exponent < 10 ^ (width coefficient + exponent) := by
  have hcast : (coefficient : ℚ) < 10 ^ (width coefficient : ℤ) := by
    rw [zpow_natCast]
    exact_mod_cast lt_pow_width coefficient
  rw [zpow_add₀ (by norm_num)]
  exact mul_lt_mul_of_pos_right hcast (ten_zpow_pos _)

theorem le_value (hpos : coefficient ≠ 0) (exponent : ℤ) :
    10 ^ (width coefficient + exponent - 1) ≤ value coefficient exponent := by
  obtain ⟨k, hk⟩ : ∃ k, width coefficient = k + 1 := ⟨_, (Nat.succ_pred_eq_of_pos (width_pos _)).symm⟩
  have hcast : (10 : ℚ) ^ k ≤ coefficient := by
    exact_mod_cast pow_le_of_lt_width hpos (by omega)
  have hexponent : (width coefficient + exponent - 1 : ℤ) = k + exponent := by
    rw [hk]
    push_cast
    ring
  rw [hexponent, zpow_add₀ (by norm_num), zpow_natCast]
  exact mul_le_mul_of_nonneg_right hcast (ten_zpow_pos _).le

theorem cast_pow (base k : Nat) : ((Nat.pow base k : Nat) : ℚ) = (base : ℚ) ^ (k : ℤ) :=
  (Nat.cast_pow base k).trans (zpow_natCast _ _).symm

theorem zpow_le_of_pow_le {a b j k : Nat} (h : Nat.pow a j ≤ Nat.pow b k) : (a : ℚ) ^ (j : ℤ) ≤ (b : ℚ) ^ (k : ℤ) := by
  rw [← cast_pow, ← cast_pow]
  exact Nat.cast_le.mpr h

/-- The exponent is kept apart, so that the power is not computed. -/
theorem pow_mul_least {k : Nat} (hk : 1074 = k) : ((Nat.pow 2 k : Nat) : ℚ) * Magnitude.least = 1 := by
  have hexponent : (-1074 : ℤ) = -(k : ℤ) := by omega
  rw [cast_pow, Magnitude.least, hexponent, Nat.cast_ofNat, ← zpow_add₀ two_ne_zero, add_neg_cancel, zpow_zero]

/-- What begins behind so many zeros is less than half of the least magnitude. -/
theorem tiny_lt : 2 * (10 : ℚ) ^ (-331 : ℤ) ≤ Magnitude.least := by
  have hpow : (2 : ℚ) ^ (1075 : ℤ) ≤ 10 ^ (331 : ℤ) := zpow_le_of_pow_le (a := 2) (b := 10) (by decide +kernel)
  have hdouble : (2 : ℚ) * 2 ^ (-1075 : ℤ) = Magnitude.least := by
    rw [Magnitude.least, ← zpow_one_add₀ two_ne_zero]
    rfl
  rw [← hdouble, zpow_neg, zpow_neg]
  exact mul_le_mul_of_nonneg_left (inv_anti₀ (zpow_pos two_pos _) hpow) two_pos.le

/-- What has so many digits before the point is beyond the finite magnitudes. -/
theorem infinity_le_huge : Magnitude.infinity.value ≤ (10 : ℚ) ^ (330 : ℤ) :=
  Magnitude.value_infinity.trans_le (zpow_le_of_pow_le (a := 2) (b := 10) (by decide +kernel))

/-- A decimal is rounded to the magnitude that is found for it. -/
theorem rounds_nearest (coefficient : Nat) (exponent : ℤ) :
    (nearest coefficient exponent).Rounds (value coefficient exponent) := by
  have hnonneg := value_nonneg coefficient exponent
  rw [nearest]
  generalize hbits : 1074 = bits
  have hleast := pow_mul_least hbits
  generalize Nat.pow 2 bits = shift at *
  split
  · rename_i hsmall
    apply Magnitude.rounds_zero hnonneg
    rcases hsmall with rfl | hlead
    · rw [value, Nat.cast_zero, zero_mul, mul_zero]
      exact Magnitude.least_pos
    · have hten : (10 : ℚ) ^ (width coefficient + exponent) ≤ 10 ^ (-331 : ℤ) :=
        zpow_le_zpow_right₀ (by norm_num) (by omega)
      linarith [value_lt coefficient exponent, tiny_lt]
  · rename_i hnot
    rw [not_or] at hnot
    split
    · rename_i hlead
      apply Magnitude.rounds_infinity
      have hten : (10 : ℚ) ^ (330 : ℤ) ≤ 10 ^ (width coefficient + exponent - 1) :=
        zpow_le_zpow_right₀ (by norm_num) (by omega)
      linarith [le_value hnot.1 exponent, infinity_le_huge]
    · split
      · rename_i hexponent
        obtain ⟨k, rfl⟩ := Int.eq_ofNat_of_zero_le hexponent
        have hunits : value coefficient k = ((coefficient * Nat.pow 10 k * shift : Nat) : ℚ) / (1 : Nat) * Magnitude.least := by
          rw [value, Nat.cast_mul, Nat.cast_mul, cast_pow, Nat.cast_one, div_one, mul_assoc _ (shift : ℚ), hleast, mul_one]
          rfl
        rw [hunits]
        exact Magnitude.rounds_nearest _ Nat.one_pos
      · rename_i hexponent
        obtain ⟨k, hk⟩ := Int.eq_ofNat_of_zero_le (show 0 ≤ -exponent by omega)
        have hunits : value coefficient exponent =
            ((coefficient * shift : Nat) : ℚ) / ((Nat.pow 10 (-exponent).toNat : Nat) : ℚ) * Magnitude.least := by
          rw [hk, Int.toNat_natCast, cast_pow, Nat.cast_mul, div_mul_eq_mul_div, mul_assoc, hleast, mul_one, ← hk, zpow_neg,
            Nat.cast_ofNat, div_inv_eq_mul]
          rfl
        rw [hunits]
        exact Magnitude.rounds_nearest _ (Nat.pow_pos (by decide))

theorem nearest_eq_iff {m : Magnitude} {coefficient : Nat} {exponent : ℤ} :
    nearest coefficient exponent = m ↔ m.Rounds (value coefficient exponent) := by
  constructor
  · rintro rfl
    exact rounds_nearest coefficient exponent
  · intro h
    exact (rounds_nearest coefficient exponent).unique h

end Decimal

end ODataQuery
