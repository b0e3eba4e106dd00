import ODataQuery.Attribute.Inference
import ODataQuery.Proofs.Text.Characters

/-!
Unique identifiers. The recognizer takes the groups off one after the other; what it recognizes are the groups of
hexadecimal digits with hyphens between them, and from this one sees which characters an identifier has.
-/

namespace ODataQuery.Text

/-- Groups of 8, 4, 4, 4 and 12 hexadecimal digits, with hyphens between them. -/
def IsIdentifier (cs : List Char) : Prop :=
  ∃ groups : List (List Char), groups.map List.length = [8, 4, 4, 4, 12] ∧
    (∀ g ∈ groups, ∀ c ∈ g, isHexDigit c = true) ∧ cs = ['-'].intercalate groups

theorem exists_groups {lengths : List Nat} {cs : List Char} (h : isHyphenated lengths cs = true) :
    ∃ groups : List (List Char), groups.map List.length = lengths ∧
      (∀ g ∈ groups, ∀ c ∈ g, isHexDigit c = true) ∧ cs = ['-'].intercalate groups := by
  fun_induction isHyphenated lengths cs with
  | case1 cs =>
      rw [List.isEmpty_iff] at h
      exact ⟨[], rfl, nofun, h⟩
  | case2 n cs =>
      simp only [Bool.and_eq_true, beq_iff_eq, List.all_eq_true] at h
      exact ⟨[cs], by simpa using h.1, by simpa using h.2, (List.intercalate_singleton ..).symm⟩
  | case3 n lengths cs hne ih =>
      simp only [Bool.and_eq_true, beq_iff_eq, List.all_eq_true] at h
      obtain ⟨⟨⟨hlength, hhex⟩, hhyphen⟩, hrest⟩ := h
      obtain ⟨groups, hlengths, hgroups, hcs⟩ := ih hrest
      -- The first group ends at a hyphen, behind which the other groups stand.
      obtain ⟨rest, hdrop⟩ := List.head?_eq_some_iff.mp hhyphen
      have hbehind : cs.drop (n + 1) = rest := by
        rw [← List.tail_drop, hdrop, List.tail_cons]
      have hne' : groups ≠ [] := by
        rintro rfl
        exact hne hlengths.symm
      refine ⟨cs.take n :: groups, ?_, List.forall_mem_cons.mpr ⟨hhex, hgroups⟩, ?_⟩
      · rw [List.map_cons, hlength, hlengths]
      · rw [List.intercalate_cons_of_ne_nil hne', ← hcs, hbehind, List.append_assoc, List.singleton_append,
          ← hdrop, List.take_append_drop]

theorem isIdentifier_of_isGuid {s : String} (h : isGuid s = true) : IsIdentifier s.toList := exists_groups h

/-! ### The characters of an identifier -/

theorem isFigure_of_isHexDigit {c : Char} (h : isHexDigit c = true) : isFigure c = true := by
  rw [isHexDigit, Bool.or_assoc, Bool.or_eq_true] at h
  cases h with
  | inl hdigit => exact isFigure_of_isDigit hdigit
  | inr hletter =>
      simp only [Bool.or_eq_true, Bool.and_eq_true, decide_eq_true_eq, Char.le_def,
        UInt32.le_iff_toNat_le] at hletter
      have halphanum : c.isAlphanum = true := by
        rcases hletter with ⟨ha, hf⟩ | ⟨ha, hf⟩
        · exact isAlphanum_iff.mpr (.inl (.inr ⟨ha, Nat.le_trans hf (by decide)⟩))
        · exact isAlphanum_iff.mpr (.inl (.inl ⟨ha, Nat.le_trans hf (by decide)⟩))
      rw [isFigure, halphanum]
      rfl

theorem count_intercalate {c : Char} {groups : List (List Char)} (h : ∀ g ∈ groups, c ∉ g) :
    ([c].intercalate groups).count c = groups.length - 1 := by
  induction groups with
  | nil => rfl
  | cons g groups ih =>
      obtain ⟨hg, hgroups⟩ := List.forall_mem_cons.mp h
      cases groups with
      | nil => rw [List.intercalate_singleton, List.count_eq_zero.mpr hg]; rfl
      | cons g' groups =>
          rw [List.intercalate_cons_cons, List.count_append, List.count_append, List.count_eq_zero.mpr hg,
            ih hgroups, List.count_singleton_self]
          simp [Nat.add_comm]

variable {cs : List Char}

theorem IsIdentifier.count_hyphen (h : IsIdentifier cs) : cs.count '-' = 4 := by
  obtain ⟨groups, hlengths, hgroups, rfl⟩ := h
  have hfive : groups.length = 5 := by
    rw [← List.length_map List.length, hlengths]
    rfl
  rw [count_intercalate, hfive]
  intro g hg hmem
  exact absurd (hgroups g hg _ hmem) (by decide)

theorem figures_intercalate {c : Char} (hc : isFigure c = true) {groups : List (List Char)}
    (h : ∀ g ∈ groups, Figures g) : Figures ([c].intercalate groups) := by
  induction groups with
  | nil => exact figures_nil
  | cons g groups ih =>
      obtain ⟨hg, hgroups⟩ := List.forall_mem_cons.mp h
      cases groups with
      | nil => rwa [List.intercalate_singleton]
      | cons g' groups =>
          rw [List.intercalate_cons_cons, figures_append, figures_append]
          exact ⟨⟨hg, figures_cons.mpr ⟨hc, figures_nil⟩⟩, ih hgroups⟩

theorem IsIdentifier.figures (h : IsIdentifier cs) : Figures cs := by
  obtain ⟨groups, -, hgroups, rfl⟩ := h
  exact figures_intercalate (by decide) fun g hg c hc => isFigure_of_isHexDigit (hgroups g hg c hc)

end ODataQuery.Text
