import Mathlib.Algebra.Order.Ring.Nat
import Mathlib.Tactic.Ring
import ODataQuery.Proofs.Text.Characters

/-!
Rows of digits. The digits of a number are a row without zeros in front, and the number is read off them; zeros may be
set in front of a row up to a width. A row ends at the first character that is no digit.
-/

namespace ODataQuery.Text

/-- Digits, one at least. -/
def IsDigits (cs : List Char) : Prop := cs ≠ [] ∧ ∀ c ∈ cs, c.isDigit = true

variable {ds : List Char}

theorem isDigits_zero : IsDigits ['0'] :=
  ⟨List.cons_ne_nil _ _, List.forall_mem_singleton.mpr rfl⟩

theorem isDigits_digits (n : Nat) : IsDigits (digits n) :=
  ⟨Nat.toDigits_ne_nil, fun _ => isDigit_of_mem_digits⟩

theorem isDigit_of_mem_zeros {n : Nat} {c : Char} (h : c ∈ List.replicate n '0') : c.isDigit = true := by
  rw [List.eq_of_mem_replicate h]
  rfl

theorem IsDigits.append_zeros (h : IsDigits ds) (n : Nat) : IsDigits (ds ++ List.replicate n '0') :=
  ⟨List.append_ne_nil_of_left_ne_nil h.1 _, List.forall_mem_append.mpr ⟨h.2, fun _ => isDigit_of_mem_zeros⟩⟩

theorem IsDigits.zeros_append (h : IsDigits ds) (n : Nat) : IsDigits (List.replicate n '0' ++ ds) :=
  ⟨List.append_ne_nil_of_right_ne_nil _ h.1, List.forall_mem_append.mpr ⟨fun _ => isDigit_of_mem_zeros, h.2⟩⟩

theorem IsDigits.take (h : IsDigits ds) {n : Nat} (hn : n ≠ 0) : IsDigits (ds.take n) :=
  ⟨by simp [hn, h.1], fun c hc => h.2 c (List.mem_of_mem_take hc)⟩

theorem IsDigits.drop (h : IsDigits ds) {n : Nat} (hn : n < ds.length) : IsDigits (ds.drop n) :=
  ⟨by simpa using hn, fun c hc => h.2 c (List.mem_of_mem_drop hc)⟩

theorem IsDigits.not_mem (h : IsDigits ds) {c : Char} (hc : c.isDigit = false) : c ∉ ds := by
  intro hmem
  cases hc.symm.trans (h.2 c hmem)

theorem IsDigits.figures (h : IsDigits ds) : Figures ds := by
  intro c hc
  exact isFigure_of_isDigit (h.2 c hc)

theorem IsDigits.count_eq_zero (h : IsDigits ds) {c : Char} (hc : c.isDigit = false) : ds.count c = 0 :=
  List.count_eq_zero.mpr (h.not_mem hc)

theorem IsDigits.any (h : IsDigits ds) : ds.any Char.isDigit = true := by
  obtain ⟨c, hc⟩ := List.exists_mem_of_ne_nil ds h.1
  exact List.any_eq_true.mpr ⟨c, hc, h.2 c hc⟩

theorem exists_digits_eq_cons (n : Nat) : ∃ c cs, digits n = c :: cs ∧ c.isDigit = true := by
  cases h : digits n with
  | nil => exact absurd h Nat.toDigits_ne_nil
  | cons c cs => exact ⟨c, cs, rfl, isDigit_of_mem_digits (by rw [h]; exact List.mem_cons_self)⟩

/-- No zero stands in front of other digits. -/
theorem digits_ne_zero_cons (n : Nat) (c : Char) (ds : List Char) : digits n ≠ '0' :: c :: ds := by
  induction n using Nat.strongRecOn generalizing c ds with
  | ind n ih =>
      intro h
      by_cases hsmall : n < 10
      · have hone : digits n = [n.digitChar] := Nat.toDigits_of_lt_base hsmall
        simp [hone] at h
      · have hlast : digits n = digits (n / 10) ++ [(n % 10).digitChar] :=
          Nat.toDigits_of_base_le (by decide) (by omega)
        rw [hlast] at h
        match hfront : digits (n / 10) with
        | [] => exact Nat.toDigits_ne_nil hfront
        | [z] =>
            rw [hfront] at h
            obtain ⟨rfl, -⟩ := List.cons.inj h
            have hvalue : n / 10 = ofDigits ['0'] := by
              rw [← hfront, ofDigits, digits, Nat.ofDigitChars_ten_toDigits]
            have hzero : ofDigits ['0'] = 0 := by decide
            omega
        | z :: d :: ds' =>
            rw [hfront] at h
            obtain ⟨rfl, -⟩ := List.cons.inj h
            exact ih (n / 10) (by omega) d ds' hfront

/-! ### Rows and their numbers -/

theorem ofDigits_digits (n : Nat) : ofDigits (digits n) = n := Nat.ofDigitChars_ten_toDigits

theorem ofDigits_append (as bs : List Char) : ofDigits (as ++ bs) = 10 ^ bs.length * ofDigits as + ofDigits bs := by
  rw [ofDigits, Nat.ofDigitChars_append, Nat.ofDigitChars_eq_ofDigitChars_zero]
  rfl

theorem ofDigits_cons (c : Char) (cs : List Char) :
    ofDigits (c :: cs) = 10 ^ cs.length * (c.toNat - 48) + ofDigits cs := by
  rw [ofDigits, Nat.ofDigitChars_cons, Nat.ofDigitChars_eq_ofDigitChars_zero, Nat.mul_zero, Nat.zero_add]
  rfl

theorem ofDigits_zeros_append (n : Nat) (ds : List Char) : ofDigits (List.replicate n '0' ++ ds) = ofDigits ds := by
  have hzeros : ofDigits (List.replicate n '0') = 0 := Nat.ofDigitChars_replicate_zero
  rw [ofDigits_append, hzeros, Nat.mul_zero, Nat.zero_add]

theorem ofDigits_append_zeros (ds : List Char) (n : Nat) :
    ofDigits (ds ++ List.replicate n '0') = 10 ^ n * ofDigits ds := by
  have hzeros : ofDigits (List.replicate n '0') = 0 := Nat.ofDigitChars_replicate_zero
  rw [ofDigits_append, hzeros, List.length_replicate, Nat.add_zero]

theorem ofDigits_lt (h : ∀ c ∈ ds, c.isDigit = true) : ofDigits ds < 10 ^ ds.length := by
  induction ds with
  | nil => exact Nat.one_pos
  | cons c cs ih =>
      obtain ⟨hc, hcs⟩ := List.forall_mem_cons.mp h
      have hrest := ih hcs
      have hbounds := bounds_of_isDigit hc
      have hlead : 10 ^ cs.length * (c.toNat - 48) ≤ 10 ^ cs.length * 9 := Nat.mul_le_mul_left _ (by omega)
      rw [ofDigits_cons, List.length_cons, pow_succ]
      omega

/-- Rows of one length that write the same number are the same. -/
theorem ofDigits_inj {ds' : List Char} (h : ∀ c ∈ ds, c.isDigit = true) (h' : ∀ c ∈ ds', c.isDigit = true)
    (hlength : ds.length = ds'.length) (heq : ofDigits ds = ofDigits ds') : ds = ds' := by
  induction ds generalizing ds' with
  | nil => exact (List.length_eq_zero_iff.mp hlength.symm).symm
  | cons c cs ih =>
      obtain ⟨c', cs', rfl⟩ := List.exists_cons_of_length_eq_add_one hlength.symm
      obtain ⟨hc, hcs⟩ := List.forall_mem_cons.mp h
      obtain ⟨hc', hcs'⟩ := List.forall_mem_cons.mp h'
      have hsame : cs.length = cs'.length := Nat.succ.inj hlength
      have hrest := ofDigits_lt hcs
      have hrest' := ofDigits_lt hcs'
      rw [ofDigits_cons, ofDigits_cons, hsame] at heq
      rw [hsame] at hrest
      -- The first digit is the quotient by the power of the others, and what these write is the rest.
      have hpos : 0 < 10 ^ cs'.length := Nat.pow_pos (by decide)
      have hfirst : c.toNat - 48 = c'.toNat - 48 := by
        have hquotient := congrArg (· / 10 ^ cs'.length) heq
        simpa only [Nat.mul_add_div hpos, Nat.div_eq_of_lt hrest, Nat.div_eq_of_lt hrest', Nat.add_zero] using hquotient
      have hbounds := bounds_of_isDigit hc
      have hbounds' := bounds_of_isDigit hc'
      have hchar : c = c' := Char.toNat_inj.mp (by omega)
      rw [hfirst] at heq
      rw [hchar, ih hcs hcs' hsame (Nat.add_left_cancel heq)]

theorem ofDigits_pos (h : IsDigits ds) (hzero : ds.head? ≠ some '0') : 10 ^ (ds.length - 1) ≤ ofDigits ds := by
  cases ds with
  | nil => exact absurd rfl h.1
  | cons c cs =>
      have hbounds := bounds_of_isDigit (h.2 c List.mem_cons_self)
      have hne : c.toNat ≠ 48 := by
        intro heq
        have hchar : c = '0' := Char.toNat_inj.mp heq
        exact hzero (congrArg some hchar)
      rw [ofDigits_cons, List.length_cons, Nat.add_sub_cancel]
      exact Nat.le_add_right_of_le (Nat.le_mul_of_pos_right _ (by omega))

/-- A row without zeros in front is the row of its number. -/
theorem digits_ofDigits (h : IsDigits ds) (hzero : ds.head? ≠ some '0') : digits (ofDigits ds) = ds := by
  have hlength : (digits (ofDigits ds)).length = ds.length := by
    have hpos : 0 < ds.length := List.length_pos_iff.mpr h.1
    apply le_antisymm
    · exact (Nat.length_toDigits_le_iff (by decide) hpos).mpr (ofDigits_lt h.2)
    · by_contra hless
      rcases Nat.eq_zero_or_pos (ds.length - 1) with hone | hmore
      · have : 0 < (digits (ofDigits ds)).length := Nat.length_toDigits_pos
        omega
      · have hsmall := (Nat.length_toDigits_le_iff (n := ofDigits ds) (b := 10) (by decide) hmore).mp (by
          rw [digits] at hless
          omega)
        exact absurd (ofDigits_pos h hzero) (not_le.mpr hsmall)
  exact ofDigits_inj (isDigits_digits _).2 h.2 hlength (ofDigits_digits _)

theorem head?_digits {n : Nat} (hn : n ≠ 0) : (digits n).head? ≠ some '0' := by
  intro hzero
  obtain ⟨cs, hcs⟩ := List.head?_eq_some_iff.mp hzero
  cases cs with
  | nil =>
      have hvalue := ofDigits_digits n
      rw [hcs] at hvalue
      exact hn hvalue.symm
  | cons c cs => exact digits_ne_zero_cons n c cs hcs

theorem getLast?_digits (n : Nat) : (digits n).getLast? = some (n % 10).digitChar := by
  by_cases hsmall : n < 10
  · have hone : digits n = [n.digitChar] := Nat.toDigits_of_lt_base hsmall
    rw [hone, Nat.mod_eq_of_lt hsmall]
    rfl
  · have hlast : digits n = digits (n / 10) ++ [(n % 10).digitChar] :=
      Nat.toDigits_of_base_le (by decide) (by omega)
    rw [hlast, List.getLast?_concat]

/-- A row ends in a zero exactly if its number is a multiple of ten. -/
theorem getLast?_digits_ne_zero {n : Nat} : (digits n).getLast? ≠ some '0' ↔ n % 10 ≠ 0 := by
  have hdigit : ∀ d < 10, d.digitChar = '0' ↔ d = 0 := by decide
  rw [getLast?_digits, ne_eq, Option.some_inj, hdigit _ (Nat.mod_lt _ (by decide))]

/-! ### Rows of a width -/

theorem isDigits_padded (width n : Nat) : IsDigits (padded width n) := (isDigits_digits n).zeros_append _

theorem ofDigits_padded (width n : Nat) : ofDigits (padded width n) = n := by
  rw [padded, ofDigits_zeros_append, ofDigits_digits]

theorem length_padded {width n : Nat} (hwidth : 0 < width) (hn : n < 10 ^ width) : (padded width n).length = width := by
  have hle : (digits n).length ≤ width := (Nat.length_toDigits_le_iff (by decide) hwidth).mpr hn
  rw [padded, List.length_append, List.length_replicate]
  omega

theorem padded_ofDigits (h : IsDigits ds) : padded ds.length (ofDigits ds) = ds := by
  have hlength := length_padded (List.length_pos_iff.mpr h.1) (ofDigits_lt h.2)
  exact ofDigits_inj (isDigits_padded _ _).2 h.2 hlength (ofDigits_padded _ _)

/-! ### Reading a row -/

theorem readDigits_append {ds rest : List Char} (hds : ∀ c ∈ ds, c.isDigit = true)
    (hrest : ∀ c ∈ rest.head?, c.isDigit = false) : readDigits (ds ++ rest) = (ds, rest) := by
  rw [readDigits, List.takeWhile_append_of_pos hds, List.dropWhile_append_of_pos hds]
  cases rest with
  | nil => simp
  | cons c cs =>
      have hc : c.isDigit = false := hrest c rfl
      simp [hc]

theorem digitsUpTo_append {most : Nat} {ds rest : List Char} (hds : ∀ c ∈ ds, c.isDigit = true) (hmost : ds.length ≤ most)
    (hend : ds.length = most ∨ ∀ c ∈ rest.head?, c.isDigit = false) : digitsUpTo most (ds ++ rest) = (ds, rest) := by
  induction ds generalizing most with
  | nil =>
      cases most with
      | zero => cases rest <;> rfl
      | succ most =>
          cases rest with
          | nil => rfl
          | cons c rest => rw [List.nil_append, digitsUpTo, hend.resolve_left nofun c rfl, if_neg Bool.false_ne_true]
  | cons c ds ih =>
      obtain ⟨hc, hds⟩ := List.forall_mem_cons.mp hds
      cases most with
      | zero => cases hmost
      | succ most =>
          rw [List.cons_append, digitsUpTo, if_pos hc,
            ih hds (Nat.le_of_succ_le_succ hmost) (hend.imp_left Nat.succ.inj)]

theorem digitsUpTo_bounds (most : Nat) (cs : List Char) :
    (∀ c ∈ (digitsUpTo most cs).1, c.isDigit = true) ∧ (digitsUpTo most cs).1.length ≤ most := by
  induction most generalizing cs with
  | zero =>
      cases cs <;> exact ⟨nofun, le_rfl⟩
  | succ most ih =>
      cases cs with
      | nil => exact ⟨nofun, Nat.zero_le _⟩
      | cons c cs =>
          obtain ⟨hdigits, hlength⟩ := ih cs
          rw [digitsUpTo]
          split
          · exact ⟨List.forall_mem_cons.mpr ⟨‹_›, hdigits⟩, Nat.succ_le_succ hlength⟩
          · exact ⟨nofun, Nat.zero_le _⟩

end ODataQuery.Text
