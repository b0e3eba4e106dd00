import ODataQuery.Number.Shortest
import ODataQuery.Proofs.Number.Rounding

/-!
The decimal that is found for a magnitude. It has the fewest digits of all decimals that read back, is the nearest of
those with as few, and the greater of two that are equally near. The search goes over grids of decimals from the
coarsest on, and the numbers that read back have no gaps: if a grid has any of them, one is next to the magnitude.
-/

namespace ODataQuery

namespace Decimal

variable {coefficient coefficient' : Nat} {exponent : ℤ}

theorem value_mul_zpow (coefficient : Nat) (exponent k : ℤ) :
    value coefficient exponent * 10 ^ k = value coefficient (exponent + k) := by
  rw [value, value, mul_assoc, ← zpow_add₀ (by norm_num)]

theorem value_mul_pow (coefficient k : Nat) (exponent : ℤ) :
    value (coefficient * 10 ^ k) exponent = value coefficient (exponent + k) := by
  rw [← value_mul_zpow, value, value, zpow_natCast]
  push_cast
  ring

theorem value_le_value (h : coefficient ≤ coefficient') (exponent : ℤ) :
    value coefficient exponent ≤ value coefficient' exponent :=
  mul_le_mul_of_nonneg_right (Nat.cast_le.mpr h) (ten_zpow_pos _).le

/-- The decimals that read back have no gaps. -/
theorem rounds_between {m : Magnitude} {a b : ℚ} (ha : m.Rounds a) (hb : m.Rounds b)
    (hle : a ≤ value coefficient exponent) (hge : value coefficient exponent ≤ b) :
    m.Rounds (value coefficient exponent) := by
  have h := rounds_nearest coefficient exponent
  have heq : nearest coefficient exponent = m :=
    Magnitude.ext_rank (le_antisymm (h.rank_le hb hge) (ha.rank_le h hle))
  rwa [heq] at h

end Decimal

namespace Shortest

open Decimal

variable {m : Magnitude} {n k place : Nat}

/-! ### Grids -/

/-- So many units of `10 ^ -1074` read back as `m`. -/
def Reads (m : Magnitude) (n : Nat) : Prop := m.Rounds (value n (-1074))

theorem value_place (n place : Nat) : value n ((place : ℤ) - 1074) = value (n * 10 ^ place) (-1074) := by
  rw [value_mul_pow, neg_add_eq_sub]

theorem readsBack_iff : readsBack m n place = true ↔ Reads m (n * 10 ^ place) := by
  rw [readsBack, beq_iff_eq, nearest_eq_iff, value_place]
  rfl

/-- The exponent is kept apart, so that the power is not computed. -/
theorem pow_five_mul {k : Nat} (hk : 1074 = k) : ((Nat.pow 5 k : Nat) : ℚ) * 10 ^ (-1074 : ℤ) = Magnitude.least := by
  have hexponent : (-1074 : ℤ) = -(k : ℤ) := by omega
  have hten : (10 : ℚ) = 5 * 2 := by norm_num
  rw [cast_pow, Magnitude.least, hexponent, Nat.cast_ofNat, hten, mul_zpow, ← mul_assoc,
    ← zpow_add₀ (by norm_num), add_neg_cancel, zpow_zero, one_mul]

theorem value_exact (m : Magnitude) : m.value = value (exact m) (-1074) := by
  rw [exact]
  generalize hbits : 1074 = bits
  rw [value, Nat.cast_mul, mul_assoc, Magnitude.value, ← pow_five_mul hbits, ← hbits]

theorem reads_exact (m : Magnitude) : Reads m (exact m) := by
  rw [Reads, ← value_exact]
  exact m.rounds_value

theorem Reads.between {a b c : Nat} (ha : Reads m a) (hb : Reads m b) (hac : a ≤ c) (hcb : c ≤ b) : Reads m c :=
  rounds_between ha hb (value_le_value hac _) (value_le_value hcb _)

/-- No grid point below the exact value reads back unless the last one does. -/
theorem Reads.below (h : Reads m (k * 10 ^ place)) (hk : k ≤ exact m / 10 ^ place) :
    Reads m (exact m / 10 ^ place * 10 ^ place) :=
  h.between (reads_exact m) (Nat.mul_le_mul_right _ hk) (Nat.div_mul_le_self _ _)

theorem Reads.above (h : Reads m (k * 10 ^ place)) (hk : exact m / 10 ^ place < k) :
    Reads m ((exact m / 10 ^ place + 1) * 10 ^ place) := by
  refine (reads_exact m).between h ?_ (Nat.mul_le_mul_right _ hk)
  exact (Nat.lt_mul_of_div_lt (Nat.lt_succ_self _) (by positivity)).le

theorem not_reads_of_neighbour? (h : neighbour? m (exact m) place = none) (k : Nat) : ¬ Reads m (k * 10 ^ place) := by
  intro hk
  rw [neighbour?] at h
  rcases Nat.lt_or_ge (exact m / 10 ^ place) k with hless | hge
  · have habove : readsBack m (exact m / Nat.pow 10 place + 1) place = true := readsBack_iff.mpr (hk.above hless)
    rw [habove] at h
    cases hbelow : readsBack m (exact m / Nat.pow 10 place) place <;> rw [hbelow] at h <;> cases h
  · have hbelow : readsBack m (exact m / Nat.pow 10 place) place = true := readsBack_iff.mpr (hk.below hge)
    rw [hbelow] at h
    cases habove : readsBack m (exact m / Nat.pow 10 place + 1) place <;> rw [habove] at h <;> cases h

/-- `n` points are the nearest to the exact value of those that read back, and more than any that are as near. -/
structure Nearest (m : Magnitude) (n place : Nat) : Prop where
  reads : Reads m (n * 10 ^ place)
  fewer : ∀ k, Reads m (k * 10 ^ place) → k < n → n * 10 ^ place + k * 10 ^ place ≤ 2 * exact m
  more : ∀ k, Reads m (k * 10 ^ place) → n < k → 2 * exact m < n * 10 ^ place + k * 10 ^ place

theorem nearest_below (hreads : Reads m (exact m / 10 ^ place * 10 ^ place))
    (h : 2 * (exact m % 10 ^ place) < 10 ^ place ∨ ¬ Reads m ((exact m / 10 ^ place + 1) * 10 ^ place)) :
    Nearest m (exact m / 10 ^ place) place where
  reads := hreads
  fewer k _ hk := by
    have hle : k * 10 ^ place ≤ exact m / 10 ^ place * 10 ^ place := Nat.mul_le_mul_right _ hk.le
    have hexact := Nat.div_mul_le_self (exact m) (10 ^ place)
    omega
  more k hk hless := by
    have hhalf := h.resolve_right (not_not.mpr (hk.above hless))
    have hnext : (exact m / 10 ^ place + 1) * 10 ^ place ≤ k * 10 ^ place := Nat.mul_le_mul_right _ hless
    have hsplit := Nat.div_add_mod' (exact m) (10 ^ place)
    rw [Nat.succ_mul] at hnext
    omega

theorem nearest_above (hreads : Reads m ((exact m / 10 ^ place + 1) * 10 ^ place))
    (h : ¬ 2 * (exact m % 10 ^ place) < 10 ^ place ∨ ¬ Reads m (exact m / 10 ^ place * 10 ^ place)) :
    Nearest m (exact m / 10 ^ place + 1) place where
  reads := hreads
  fewer k hk hless := by
    have hhalf := h.resolve_right (not_not.mpr (hk.below (Nat.le_of_lt_succ hless)))
    have hle : k * 10 ^ place ≤ exact m / 10 ^ place * 10 ^ place := Nat.mul_le_mul_right _ (Nat.le_of_lt_succ hless)
    have hsplit := Nat.div_add_mod' (exact m) (10 ^ place)
    rw [Nat.succ_mul]
    omega
  more k _ hk := by
    have hle : (exact m / 10 ^ place + 1) * 10 ^ place ≤ k * 10 ^ place := Nat.mul_le_mul_right _ hk.le
    have hexact : exact m < (exact m / 10 ^ place + 1) * 10 ^ place :=
      Nat.lt_mul_of_div_lt (Nat.lt_succ_self _) (by positivity)
    omega

theorem nearest_of_neighbour? (h : neighbour? m (exact m) place = some n) :
    Nearest m n place ∧ (n = exact m / 10 ^ place ∨ n = exact m / 10 ^ place + 1) := by
  have hnot : ∀ {k}, readsBack m k place = false → ¬ Reads m (k * 10 ^ place) :=
    fun hk => readsBack_iff.not.mp (Bool.eq_false_iff.mp hk)
  have hpow : Nat.pow 10 place = 10 ^ place := rfl
  rw [neighbour?, hpow] at h
  split at h
  · rename_i hbelow habove
    split at h
    · cases h
      exact ⟨nearest_below (readsBack_iff.mp hbelow) (.inl ‹_›), .inl rfl⟩
    · cases h
      exact ⟨nearest_above (readsBack_iff.mp habove) (.inl ‹_›), .inr rfl⟩
  · rename_i hbelow habove
    cases h
    exact ⟨nearest_below (readsBack_iff.mp hbelow) (.inr (hnot habove)), .inl rfl⟩
  · rename_i hbelow habove
    cases h
    exact ⟨nearest_above (readsBack_iff.mp habove) (.inr (hnot hbelow)), .inr rfl⟩
  · cases h

/-- The search ends on the coarsest grid below the one it starts from that has anything which reads back. -/
theorem search_eq {start : Nat} (hstart : 0 < start) : ∃ n place, search m (exact m) start = (n, place) ∧ place < start ∧
    Nearest m n place ∧ (n = exact m / 10 ^ place ∨ n = exact m / 10 ^ place + 1) ∧
    ∀ p, place < p → p < start → ∀ k, ¬ Reads m (k * 10 ^ p) := by
  induction start with
  | zero => cases hstart
  | succ start ih =>
      cases hfound : neighbour? m (exact m) start with
      | some n =>
          obtain ⟨hnearest, hn⟩ := nearest_of_neighbour? hfound
          exact ⟨n, start, by rw [search, hfound], Nat.lt_succ_self _, hnearest, hn, fun p hp hp' => by omega⟩
      | none =>
          have hnone := not_reads_of_neighbour? hfound
          have hpos : 0 < start := by
            -- The finest grid has the exact value itself.
            rcases Nat.eq_zero_or_pos start with rfl | hpos
            · exact absurd (by rw [pow_zero, mul_one]; exact reads_exact m) (hnone (exact m))
            · exact hpos
          obtain ⟨n, place, hsearch, hplace, hnearest, hn, hcoarser⟩ := ih hpos
          refine ⟨n, place, by rw [search, hfound]; exact hsearch, by omega, hnearest, hn, fun p hp hp' => ?_⟩
          rcases Nat.lt_succ_iff_lt_or_eq.mp hp' with hless | rfl
          · exact hcoarser p hp hless
          · exact hnone

/-! ### Zeros at the end -/

theorem strip_mul_pow (zeros n : Nat) : (strip zeros n).1 * 10 ^ (strip zeros n).2 = n := by
  induction zeros generalizing n with
  | zero => rw [strip, pow_zero, mul_one]
  | succ zeros ih =>
      rw [strip]
      split
      · rename_i hzero
        have hrest := ih (n / 10)
        rw [pow_succ, ← mul_assoc, hrest]
        omega
      · rw [pow_zero, mul_one]

theorem strip_mod {zeros n : Nat} (hpos : 0 < n) (hn : n < 10 ^ zeros) : (strip zeros n).1 % 10 ≠ 0 := by
  induction zeros generalizing n with
  | zero =>
      rw [pow_zero] at hn
      omega
  | succ zeros ih =>
      rw [strip]
      rw [pow_succ] at hn
      split
      · exact ih (by omega) (by omega)
      · assumption

/-! ### The shortest decimal -/

/-- `coefficient * 10 ^ exponent` reads back as `m`. No decimal with fewer digits does, and with as many none that is
nearer to the magnitude, or greater and as near. -/
structure IsShortest (m : Magnitude) (coefficient : Nat) (exponent : ℤ) : Prop where
  rounds : m.Rounds (value coefficient exponent)
  width_le : ∀ c e, m.Rounds (value c e) → width coefficient ≤ width c
  nearest : ∀ c e, m.Rounds (value c e) → width c = width coefficient →
    |value coefficient exponent - m.value| ≤ |value c e - m.value|
  greater : ∀ c e, m.Rounds (value c e) → width c = width coefficient →
    |value c e - m.value| = |value coefficient exponent - m.value| → value c e ≤ value coefficient exponent

/-- A number is on the grid, or below a point of the grid that reads back and does not exceed the exact value. -/
def Beside (m : Magnitude) (place : Nat) (q : ℚ) : Prop :=
  ∃ k, Reads m (k * 10 ^ place) ∧
    (q = value (k * 10 ^ place) (-1074) ∨ q < value (k * 10 ^ place) (-1074) ∧ k * 10 ^ place ≤ exact m)

theorem value_add (a b : Nat) : value a (-1074) + value b (-1074) = value (a + b) (-1074) := by
  rw [value, value, value, Nat.cast_add, add_mul]

theorem value_lt_value {a b : Nat} (h : a < b) : value a (-1074) < value b (-1074) :=
  mul_lt_mul_of_pos_right (Nat.cast_lt.mpr h) (ten_zpow_pos _)

theorem two_mul_value (m : Magnitude) : 2 * m.value = value (2 * exact m) (-1074) := by
  rw [value_exact, two_mul, two_mul, value_add]

/-- The points found on the grid are nearer to the magnitude than everything beside the grid. -/
theorem Nearest.middle (h : Nearest m n place) {q : ℚ} (hq : Beside m place q) :
    (q < value (n * 10 ^ place) (-1074) → value (n * 10 ^ place) (-1074) + q ≤ 2 * m.value) ∧
      (value (n * 10 ^ place) (-1074) < q → 2 * m.value < value (n * 10 ^ place) (-1074) + q) := by
  obtain ⟨k, hreads, hk⟩ := hq
  have hmono : ∀ {a b : Nat}, a ≤ b → a * 10 ^ place ≤ b * 10 ^ place := fun h => Nat.mul_le_mul_right _ h
  rw [two_mul_value]
  rcases Nat.lt_trichotomy k n with hless | rfl | hmore
  · have hfewer := value_le_value (h.fewer k hreads hless) (-1074)
    have hle := value_le_value (hmono hless.le) (-1074)
    rw [← value_add] at hfewer
    rcases hk with rfl | ⟨hk, -⟩
    · exact ⟨fun _ => hfewer, fun hlt => absurd hle (not_le.mpr hlt)⟩
    · exact ⟨fun _ => by linarith, fun hlt => by linarith⟩
  · rcases hk with rfl | ⟨hk, hexact⟩
    · exact ⟨fun hlt => absurd hlt (lt_irrefl _), fun hlt => absurd hlt (lt_irrefl _)⟩
    · have hle := value_le_value hexact (-1074)
      rw [two_mul, ← value_add]
      exact ⟨fun _ => by linarith, fun hlt => by linarith⟩
  · have hmiddle := h.more k hreads hmore
    have hle := hmono hmore.le
    rcases hk with rfl | ⟨-, hexact⟩
    · have hlt := value_lt_value hmiddle
      rw [← value_add] at hlt
      have := value_le_value hle (-1074)
      exact ⟨fun hlt' => by linarith, fun _ => hlt⟩
    · omega

/-- A decimal that reads back is the shortest one if it is found on a grid, none has fewer digits, and those with as few
lie beside the grid. -/
theorem Nearest.isShortest {c : Nat} {e : ℤ} (h : Nearest m n place) (hvalue : value c e = value (n * 10 ^ place) (-1074))
    (hwidth : ∀ c' e', m.Rounds (value c' e') → width c ≤ width c')
    (hbeside : ∀ c' e', m.Rounds (value c' e') → width c' = width c → Beside m place (value c' e')) :
    IsShortest m c e where
  rounds := hvalue ▸ h.reads
  width_le := hwidth
  nearest c' e' hrounds hsame := by
    obtain ⟨hfewer, hmore⟩ := h.middle (hbeside c' e' hrounds hsame)
    rw [← hvalue] at hfewer hmore
    rcases lt_trichotomy (value c' e') (value c e) with hless | heq | hless
    · exact (Magnitude.abs_sub_le_abs_sub_iff hless).mpr (hfewer hless)
    · rw [heq]
    · rw [Magnitude.abs_sub_le_abs_sub_iff' hless, add_comm]
      exact (hmore hless).le
  greater c' e' hrounds hsame hdist := by
    obtain ⟨-, hmore⟩ := h.middle (hbeside c' e' hrounds hsame)
    rw [← hvalue] at hmore
    by_contra hnot
    have hless : value c e < value c' e' := not_le.mp hnot
    have hmiddle := (Magnitude.abs_sub_le_abs_sub_iff hless).mp hdist.le
    linarith [hmore hless]

/-! ### The first digit -/

theorem exact_ne_zero (hrank : m.rank ≠ 0) : exact m ≠ 0 := by
  have hunits : m.units ≠ 0 := by
    intro h
    have hzero : m = Magnitude.zero := Magnitude.ext_units (h.trans (by decide))
    exact hrank (congrArg Magnitude.rank hzero)
  rw [exact]
  generalize 1074 = bits
  exact Nat.mul_ne_zero hunits (Nat.pow_pos (by decide)).ne'

theorem coefficient_ne_zero {c : Nat} {e : ℤ} (hrank : m.rank ≠ 0) (h : m.Rounds (value c e)) : c ≠ 0 := by
  rintro rfl
  have hzero : value 0 e = Magnitude.zero.value := by rw [Magnitude.value_zero, value, Nat.cast_zero, zero_mul]
  rw [hzero] at h
  exact hrank (congrArg Magnitude.rank (h.unique Magnitude.zero.rounds_value))

theorem value_pow (k : Nat) : value (10 ^ k) (-1074) = 10 ^ ((k : ℤ) - 1074) := by
  rw [value, Nat.cast_pow, Nat.cast_ofNat, ← zpow_natCast, ← zpow_add₀ (by norm_num)]
  rfl

theorem lt_of_zpow_lt {j k : ℤ} (h : (10 : ℚ) ^ j < 10 ^ k) : j < k := (zpow_lt_zpow_iff_right₀ (by norm_num)).mp h

/-- If no power of ten around the exact value reads back, what does so has the first digit at the same place. -/
theorem width_add_eq {c : Nat} {e : ℤ} (hrank : m.rank ≠ 0) (hlow : ¬ Reads m (10 ^ (width (exact m) - 1)))
    (hhigh : ¬ Reads m (10 ^ width (exact m))) (h : m.Rounds (value c e)) : width c + e = width (exact m) - 1074 := by
  have hexact := exact_ne_zero hrank
  have hpos := width_pos (exact m)
  have hbelow : value (10 ^ (width (exact m) - 1)) (-1074) < value c e := by
    by_contra hnot
    have hle := value_le_value (pow_le_of_lt_width hexact (Nat.sub_lt hpos Nat.one_pos)) (-1074)
    exact hlow (rounds_between h (reads_exact m) (not_lt.mp hnot) hle)
  have habove : value c e < value (10 ^ width (exact m)) (-1074) := by
    by_contra hnot
    have hle := value_le_value (lt_pow_width (exact m)).le (-1074)
    exact hhigh (rounds_between (reads_exact m) h hle (not_lt.mp hnot))
  rw [value_pow] at hbelow habove
  have hless := lt_of_zpow_lt (hbelow.trans (value_lt c e))
  have hmore := lt_of_zpow_lt ((le_value (coefficient_ne_zero hrank h) e).trans_lt habove)
  omega

theorem value_strip (zeros n place : Nat) :
    value (strip zeros n).1 ((place + (strip zeros n).2 : ℤ) - 1074) = value (n * 10 ^ place) (-1074) := by
  have hexponent : (place + (strip zeros n).2 : ℤ) - 1074 = ((place : ℤ) - 1074) + (strip zeros n).2 := by ring
  rw [hexponent, ← value_mul_pow, strip_mul_pow, value_place]

section

variable {c : Nat} {e : ℤ}

theorem value_grid (hplace : e + 1074 = place) : value c e = value (c * 10 ^ place) (-1074) := by
  rw [← value_place, ← hplace, add_sub_cancel_right]

/-- A decimal that reads back is on the grid of its last digit. -/
theorem reads_of_rounds (h : m.Rounds (value c e)) (hplace : e + 1074 = place) : Reads m (c * 10 ^ place) := by
  rw [Reads, ← value_grid hplace]
  exact h

end

section

variable (hrank : m.rank ≠ 0) (hnearest : Nearest m n place)
include hrank hnearest

/-- If the search ends behind the first digit, all that reads back has its first digit at one place and its last digit
on the grid or before. -/
theorem isShortest_behind (hplace : place + 1 < width (exact m))
    (hcoarser : ∀ p, place < p → p < width (exact m) → ∀ k, ¬ Reads m (k * 10 ^ p)) :
    IsShortest m (strip (width n) n).1 ((place + (strip (width n) n).2 : ℤ) - 1074) := by
  have hcoarsest := hcoarser (width (exact m) - 1) (by omega) (by omega)
  have hlow : ¬ Reads m (10 ^ (width (exact m) - 1)) := by
    rw [← one_mul (10 ^ _)]
    exact hcoarsest 1
  have hhigh : ¬ Reads m (10 ^ width (exact m)) := by
    rw [← Nat.sub_add_cancel (width_pos (exact m)), pow_succ']
    exact hcoarsest 10
  have hlead : ∀ c e, m.Rounds (value c e) → width c + e = width (exact m) - 1074 :=
    fun c e h => width_add_eq hrank hlow hhigh h
  have hend : ∀ c e, m.Rounds (value c e) → e + 1074 ≤ place := by
    intro c e h
    by_contra hnot
    obtain ⟨k, hk⟩ := Int.eq_ofNat_of_zero_le (show 0 ≤ e + 1074 by omega)
    have := hlead c e h
    have := width_pos c
    exact hcoarser k (by omega) (by omega) c (reads_of_rounds h hk)
  have hvalue := value_strip (width n) n place
  have hfound : m.Rounds (value _ _) := hvalue ▸ (show m.Rounds (value (n * 10 ^ place) (-1074)) from hnearest.reads)
  have hfirst := hlead _ _ hfound
  have hlast := hend _ _ hfound
  refine hnearest.isShortest hvalue (fun c e h => ?_) fun c e h hsame => ?_
  · have := hlead c e h
    have := hend c e h
    omega
  · have := hlead c e h
    have hon : e + 1074 = place := by omega
    exact ⟨c, reads_of_rounds h hon, .inl (value_grid hon)⟩

/-- If the search ends at the first digit, one digit is enough. -/
theorem isShortest_first (hplace : place + 1 = width (exact m))
    (hn : n = exact m / 10 ^ place ∨ n = exact m / 10 ^ place + 1) :
    IsShortest m (strip (width n) n).1 ((place + (strip (width n) n).2 : ℤ) - 1074) := by
  have hpow : 0 < 10 ^ place := Nat.pow_pos (by decide)
  have hlow : 1 ≤ exact m / 10 ^ place :=
    (Nat.one_le_div_iff hpow).mpr (pow_le_of_lt_width (exact_ne_zero hrank) (by omega))
  have hhigh : exact m / 10 ^ place < 10 := by
    rw [Nat.div_lt_iff_lt_mul hpow, ← pow_succ', hplace]
    exact lt_pow_width _
  have hone : width (strip (width n) n).1 = 1 := by
    have hten := strip_mod (Nat.lt_of_lt_of_le Nat.one_pos (by omega)) (lt_pow_width n)
    have hmul := strip_mul_pow (width n) n
    generalize strip (width n) n = found at *
    have hle : found.1 ≤ n := by
      rw [← hmul]
      exact Nat.le_mul_of_pos_right _ (Nat.pow_pos (by decide))
    have hsmall : found.1 < 10 ^ 1 := by omega
    exact le_antisymm ((Nat.length_toDigits_le_iff (by decide) Nat.one_pos).mpr hsmall) (width_pos _)
  refine hnearest.isShortest (value_strip (width n) n place) (fun c e _ => hone ▸ width_pos c) fun c e h hsame => ?_
  rcases lt_or_ge (e + 1074) (place : ℤ) with hfine | hcoarse
  · -- Such a decimal is smaller than one point of the grid.
    have hone' : (10 : ℚ) ^ (width c + e) ≤ 10 ^ ((place : ℤ) - 1074) :=
      zpow_le_zpow_right₀ (by norm_num) (by omega)
    have hpoint : value (10 ^ place) (-1074) ≤ value (exact m / 10 ^ place * 10 ^ place) (-1074) :=
      value_le_value (Nat.le_mul_of_pos_left _ hlow) (-1074)
    have hless : value c e < value (exact m / 10 ^ place * 10 ^ place) (-1074) :=
      (value_lt c e).trans_le (hone'.trans (value_pow place ▸ hpoint))
    have hexact : exact m / 10 ^ place * 10 ^ place ≤ exact m := Nat.div_mul_le_self _ _
    exact ⟨_, rounds_between h (reads_exact m) hless.le (value_le_value hexact _), .inr ⟨hless, hexact⟩⟩
  · obtain ⟨k, hk⟩ := Int.eq_ofNat_of_zero_le (show 0 ≤ e + 1074 by omega)
    obtain ⟨j, rfl⟩ := Nat.exists_eq_add_of_le (show place ≤ k by omega)
    have hsplit : c * 10 ^ (place + j) = c * 10 ^ j * 10 ^ place := by ring
    rw [value_grid hk, hsplit]
    exact ⟨_, hsplit ▸ reads_of_rounds h hk, .inl rfl⟩

end

/-- The search is rewritten, not computed. -/
theorem decimal_eq (h : search m (exact m) (width (exact m)) = (n, place)) :
    decimal m = ((strip (width n) n).1, (place + (strip (width n) n).2 : ℤ) - 1074) := by
  have hpoints : (search m (exact m) (width (exact m))).1 = n := congrArg Prod.fst h
  have hplace : (search m (exact m) (width (exact m))).2 = place := congrArg Prod.snd h
  rw [decimal, hpoints, hplace]

/-- The decimal that is found is the shortest. -/
theorem isShortest_decimal (hrank : m.rank ≠ 0) : IsShortest m (decimal m).1 (decimal m).2 := by
  obtain ⟨n, place, hsearch, hplace, hnearest, hn, hcoarser⟩ := search_eq (m := m) (width_pos (exact m))
  rw [decimal_eq hsearch]
  rcases Nat.lt_or_ge (place + 1) (width (exact m)) with hbehind | hfirst
  · exact isShortest_behind hrank hnearest hbehind hcoarser
  · exact isShortest_first hrank hnearest (by omega) hn

/-! ### The shortest decimal is one -/

namespace IsShortest

variable {c c' : Nat} {e e' : ℤ}

/-- Decimals of one value have their first digit at the same place. -/
theorem width_add_eq (hc : c ≠ 0) (hc' : c' ≠ 0) (hvalue : value c e = value c' e') : width c + e = width c' + e' := by
  have hle : ∀ {c c' : Nat} {e e' : ℤ}, c ≠ 0 → value c e = value c' e' → width c + e ≤ width c' + e' := by
    intro c c' e e' hc hvalue
    have := lt_of_zpow_lt ((le_value hc e).trans_lt (hvalue.trans_lt (value_lt c' e')))
    omega
  exact le_antisymm (hle hc hvalue) (hle hc' hvalue.symm)

theorem unique (hrank : m.rank ≠ 0) (h : IsShortest m c e) (h' : IsShortest m c' e') : c = c' ∧ e = e' := by
  have hwidth : width c = width c' := le_antisymm (h.width_le c' e' h'.rounds) (h'.width_le c e h.rounds)
  have hdist : |value c' e' - m.value| = |value c e - m.value| :=
    le_antisymm (h'.nearest c e h.rounds hwidth) (h.nearest c' e' h'.rounds hwidth.symm)
  have hvalue : value c e = value c' e' :=
    le_antisymm (h'.greater c e h.rounds hwidth hdist.symm) (h.greater c' e' h'.rounds hwidth.symm hdist)
  have hlead := width_add_eq (coefficient_ne_zero hrank h.rounds) (coefficient_ne_zero hrank h'.rounds) hvalue
  obtain rfl : e = e' := by omega
  exact ⟨Nat.cast_injective (mul_right_cancel₀ (ten_zpow_pos e).ne' hvalue), rfl⟩

/-- Without a zero at its end it would be shorter. -/
theorem mod_ten_ne_zero (hrank : m.rank ≠ 0) (h : IsShortest m c e) : c % 10 ≠ 0 := by
  intro hzero
  obtain ⟨k, rfl⟩ := Nat.dvd_of_mod_eq_zero hzero
  have hvalue : value (10 * k) e = value k (e + 1) := by
    rw [mul_comm]
    exact value_mul_pow k 1 e
  have hrounds : m.Rounds (value k (e + 1)) := hvalue ▸ h.rounds
  have hlead := width_add_eq (coefficient_ne_zero hrank h.rounds) (coefficient_ne_zero hrank hrounds) hvalue
  have := h.width_le k (e + 1) hrounds
  omega

end IsShortest

end Shortest

end ODataQuery
