import Mathlib.Data.List.DropRight
import Mathlib.Data.List.TakeWhile
import ODataQuery.Proofs.Text.Characters
import ODataQuery.Text.Folded

/-!
The blanks around a text. A text is what trimming leaves of it, with blanks before and behind. What is left has
none there, so that trimming it again changes nothing. Lower case keeps the blanks, and makes of a word of letters
what folding makes of it.
-/

namespace ODataQuery.Text

/-- All characters are blanks. -/
def Blanks (cs : List Char) : Prop := ∀ c ∈ cs, isBlank c = true

theorem toList_trimmed (s : String) : (trimmed s).toList = trim s.toList := String.toList_ofList

theorem exists_around (cs : List Char) :
    ∃ before after, Blanks before ∧ Blanks after ∧ cs = before ++ trim cs ++ after := by
  refine ⟨cs.takeWhile isBlank, (trimStart cs).rtakeWhile isBlank, ?_, ?_, ?_⟩
  · intro c hc
    exact List.mem_takeWhile_imp hc
  · intro c hc
    exact List.mem_rtakeWhile_imp hc
  · have hend : trim cs ++ (trimStart cs).rtakeWhile isBlank = trimStart cs :=
      List.rdropWhile_append_rtakeWhile ..
    rw [List.append_assoc, hend]
    exact List.takeWhile_append_dropWhile.symm

theorem trimStart_trim (cs : List Char) : trimStart (trim cs) = trim cs := by
  cases hcs : trim cs with
  | nil => rfl
  | cons c rest =>
      obtain ⟨after, hafter⟩ : trim cs <+: trimStart cs := List.rdropWhile_prefix isBlank _
      have hstart : cs.dropWhile isBlank = c :: (rest ++ after) := by
        rw [← List.cons_append, ← hcs, hafter, trimStart]
      have hfirst := List.head?_dropWhile_not isBlank cs
      rw [hstart] at hfirst
      exact List.dropWhile_cons_of_neg (by simpa using hfirst)

theorem trim_sublist (cs : List Char) : (trim cs).Sublist cs := by
  have hstart : (trimStart cs).Sublist cs := List.dropWhile_sublist _
  have hend : ((trimStart cs).reverse.dropWhile isBlank).reverse.Sublist (trimStart cs).reverse.reverse :=
    (List.dropWhile_sublist _).reverse
  rw [List.reverse_reverse] at hend
  exact hend.trans hstart

theorem trim_trim (cs : List Char) : trim (trim cs) = trim cs := by
  rw [trim, trimStart_trim]
  exact List.rdropWhile_idempotent isBlank (trimStart cs)

theorem not_isBlank_of_isFigure {c : Char} (h : isFigure c = true) : isBlank c = false := by
  by_contra hblank
  cases h.symm.trans (not_isFigure_of_isBlank ((Bool.not_eq_false _).mp hblank))

theorem Figures.not_isBlank {cs : List Char} (h : Figures cs) {c : Char} (hc : c ∈ cs) : isBlank c = false :=
  not_isBlank_of_isFigure (h c hc)

theorem dropBlanks_eq_self {cs : List Char} (h : ∀ c ∈ cs.head?, isBlank c = false) : cs.dropWhile isBlank = cs := by
  cases cs with
  | nil => rfl
  | cons c cs => exact List.dropWhile_cons_of_neg (by simp [h c rfl])

/-- The text neither begins nor ends with a blank. -/
structure Tight (cs : List Char) : Prop where
  first : ∀ c ∈ cs.head?, isBlank c = false
  last : ∀ c ∈ cs.getLast?, isBlank c = false

theorem tight_of_not_blank {cs : List Char} (h : ∀ c ∈ cs, isBlank c = false) : Tight cs where
  first c hc := h c (List.mem_of_mem_head? hc)
  last c hc := h c (List.mem_of_mem_getLast? hc)

theorem Figures.tight {cs : List Char} (h : Figures cs) : Tight cs := tight_of_not_blank fun _ hc => h.not_isBlank hc

theorem tight_trim (cs : List Char) : Tight (trim cs) where
  first c hc := by
    have hfirst := List.head?_dropWhile_not isBlank (trim cs)
    rw [← trimStart, trimStart_trim, hc] at hfirst
    exact hfirst
  last c hc := by
    have hlast := List.head?_dropWhile_not isBlank (trimStart cs).reverse
    rw [trim, trimEnd, List.getLast?_reverse] at hc
    rw [hc] at hlast
    exact hlast

/-- What stands between two such texts does not matter. -/
theorem Tight.enclose {as bs : List Char} (ha : Tight as) (hb : Tight bs) (hane : as ≠ []) (hbne : bs ≠ [])
    (middle : List Char) : Tight (as ++ middle ++ bs) where
  first := by
    rw [List.append_assoc, List.head?_append_of_ne_nil _ hane]
    exact ha.first
  last := by
    rw [List.getLast?_append_of_ne_nil _ hbne]
    exact hb.last

theorem Tight.trim_around {before after cs : List Char} (h : Tight cs) (hbefore : Blanks before)
    (hafter : Blanks after) : trim (before ++ cs ++ after) = cs := by
  have hstart : trimStart (before ++ cs ++ after) = (cs ++ after).dropWhile isBlank := by
    rw [List.append_assoc]
    exact List.dropWhile_append_of_pos hbefore
  rw [trim, hstart]
  cases cs with
  | nil =>
      rw [List.nil_append, List.dropWhile_eq_nil_iff.mpr hafter]
      rfl
  | cons c cs =>
      have hend : ∀ d ∈ (c :: cs).reverse.head?, isBlank d = false := by
        rw [List.head?_reverse]
        exact h.last
      have hkeep : (c :: cs ++ after).dropWhile isBlank = c :: cs ++ after := dropBlanks_eq_self h.first
      have hlast : ∀ d ∈ after.reverse, isBlank d = true := fun d hd => hafter d (List.mem_reverse.mp hd)
      rw [hkeep, trimEnd, List.reverse_append, List.dropWhile_append_of_pos hlast, dropBlanks_eq_self hend,
        List.reverse_reverse]

theorem Tight.trim_eq {cs : List Char} (h : Tight cs) : trim cs = cs := by
  have haround : trim ([] ++ cs ++ []) = cs := h.trim_around nofun nofun
  rwa [List.nil_append, List.append_nil] at haround

theorem trim_figures {cs : List Char} (h : Figures cs) : trim cs = cs := h.tight.trim_eq

/-! ### Lower case -/

theorem lowerFrom_eq_flatMap {before cs : List Char} (h : ∀ c ∈ cs, c.toNat ≠ 0x3A3) :
    lowerFrom before cs = cs.flatMap lowerChar := by
  induction cs generalizing before with
  | nil => rfl
  | cons c cs ih =>
      obtain ⟨hc, hcs⟩ := List.forall_mem_cons.mp h
      rw [lowerFrom, if_neg hc, ih hcs, List.flatMap_cons]

theorem lowerChar_ascii {c : Char} (hc : c.toNat < 128) : lowerChar c = [c.toLower] := if_pos hc

theorem toNat_lt_of_toLower {c : Char} (h : c.toLower.toNat < 128) : c.toNat < 128 := by
  by_cases hcapital : 65 ≤ c.toNat ∧ c.toNat ≤ 90
  · omega
  · rwa [toLower_of_not_capital hcapital] at h

theorem toLower_of_isBlank {c : Char} (h : isBlank c = true) : c.toLower = c := by
  apply toLower_of_not_capital
  simp only [isBlank, Bool.or_eq_true, Bool.and_eq_true, decide_eq_true_eq, beq_iff_eq] at h
  omega

theorem isBlank_toLower (c : Char) : isBlank c.toLower = isBlank c := by
  by_cases hcapital : 65 ≤ c.toNat ∧ c.toNat ≤ 90
  · have hletter : ∀ {d : Char}, 65 ≤ d.toNat → d.toNat ≤ 122 → isBlank d = false := by
      intro d hge hle
      refine Bool.eq_false_iff.mpr fun hblank => ?_
      simp only [isBlank, Bool.or_eq_true, Bool.and_eq_true, decide_eq_true_eq, beq_iff_eq] at hblank
      omega
    have hlower := toNat_toLower hcapital
    rw [hletter hcapital.1 (by omega), hletter (by omega) (by omega)]
  · rw [toLower_of_not_capital hcapital]

/-- The blanks beyond ASCII. -/
def wideBlanks : List Nat :=
  [0x85, 0xA0, 0x1680] ++ List.range' 0x2000 11 ++ [0x2028, 0x2029, 0x202F, 0x205F, 0x3000]

theorem mem_wideBlanks {c : Char} (h : isBlank c = true) (hc : ¬ c.toNat < 128) : c.toNat ∈ wideBlanks := by
  simp only [isBlank, Bool.or_eq_true, Bool.and_eq_true, decide_eq_true_eq, beq_iff_eq] at h
  simp only [wideBlanks, List.mem_append, List.mem_cons, List.not_mem_nil, List.mem_range'_1, or_false]
  omega

theorem lowerChar_blank {c : Char} (h : isBlank c = true) : lowerChar c = [c] := by
  by_cases hc : c.toNat < 128
  · rw [lowerChar_ascii hc, toLower_of_isBlank h]
  · have hwide := mem_wideBlanks h hc
    have hcaseless : ∀ n ∈ wideBlanks, n ≠ 0x130 ∧ caseRuns.findSome? (·.lower? n) = none := by decide +kernel
    obtain ⟨hdotted, hnone⟩ := hcaseless _ hwide
    rw [lowerChar, if_neg hc, if_neg hdotted, hnone]

/-- A word of letters is folded by lower case, and the blanks around it stay. -/
theorem lower_around {raw word : String} (hword : fold (trimmed raw) = word)
    (hfigures : Figures word.toList) :
    ∃ before after, Blanks before ∧ Blanks after ∧ raw.toList = before ++ trim raw.toList ++ after ∧
      (lower raw).toList = before ++ word.toList ++ after := by
  obtain ⟨before, after, hbefore, hafter, hraw⟩ := exists_around raw.toList
  have hinner : (trim raw.toList).map Char.toLower = word.toList := by
    rw [← hword, fold, String.toList_ofList, toList_trimmed]
  have hsmall : ∀ c ∈ trim raw.toList, c.toNat < 128 := by
    intro c hc
    have hbounds := bounds_of_isFigure (hfigures _ (hinner ▸ List.mem_map_of_mem hc))
    exact toNat_lt_of_toLower (by omega)
  have hblanks : ∀ {cs}, Blanks cs → cs.flatMap lowerChar = cs := fun h => by
    rw [List.flatMap_congr fun c hc => lowerChar_blank (h c hc), List.flatMap_singleton']
  have hsigma : ∀ c ∈ raw.toList, c.toNat ≠ 0x3A3 := by
    intro c hc heq
    rw [hraw, List.mem_append, List.mem_append] at hc
    have hnot : ¬ isBlank c = true := by
      simp [isBlank, heq]
    rcases hc with (hc | hc) | hc
    · exact hnot (hbefore c hc)
    · have := hsmall c hc
      omega
    · exact hnot (hafter c hc)
  have hmiddle : (trim raw.toList).flatMap lowerChar = word.toList := by
    rw [List.flatMap_congr fun c hc => lowerChar_ascii (hsmall c hc), ← hinner]
    exact List.map_eq_flatMap.symm
  refine ⟨before, after, hbefore, hafter, hraw, ?_⟩
  rw [lower, String.toList_ofList, lowerFrom_eq_flatMap hsigma]
  conv_lhs => rw [hraw]
  rw [List.flatMap_append, List.flatMap_append, hblanks hbefore, hblanks hafter, hmiddle]

end ODataQuery.Text
