import ODataQuery.Proofs.Text.Trimmed

/-!
Texts with their ASCII capitals made small. Folding goes character by character and makes no blank of a letter, so
that it changes neither the length of a text nor the blanks around it.
-/

namespace ODataQuery.Text

variable {s t u : String}

theorem toList_fold (s : String) : (fold s).toList = s.toList.map Char.toLower := String.toList_ofList

theorem length_fold (s : String) : (fold s).toList.length = s.toList.length := by
  rw [toList_fold, List.length_map]

theorem fold_append (s t : String) : fold (s ++ t) = fold s ++ fold t := by
  rw [fold, String.toList_append, List.map_append, String.ofList_append]
  rfl

theorem sameFolded_iff : sameFolded s t = true ↔ fold s = fold t := beq_iff_eq

theorem sameFolded_refl (s : String) : sameFolded s s = true := sameFolded_iff.mpr rfl

theorem sameFolded_congr (h : sameFolded t u = true) : sameFolded s t = sameFolded s u := by
  rw [sameFolded, sameFolded, sameFolded_iff.mp h]

theorem eq_empty_iff (h : sameFolded s t = true) : s = "" ↔ t = "" := by
  have hlength : s.toList.length = t.toList.length := by
    rw [← length_fold s, sameFolded_iff.mp h, length_fold]
  rw [← String.toList_eq_nil_iff, ← String.toList_eq_nil_iff, ← List.length_eq_zero_iff, hlength,
    List.length_eq_zero_iff]

/-- Blanks are not folded away. -/
theorem sameFolded_trimmed_iff : sameFolded s (trimmed s) = true ↔ trimmed s = s := by
  constructor
  · intro h
    have hlength : (trimmed s).toList.length = s.toList.length := by
      rw [← length_fold, ← sameFolded_iff.mp h, length_fold]
    have hsublist : (trimmed s).toList.Sublist s.toList := by
      rw [trimmed, String.toList_ofList]
      exact trim_sublist _
    exact String.toList_inj.mp (hsublist.eq_of_length hlength)
  · intro h
    rw [h]
    exact sameFolded_refl s

/-- No blank becomes another character. -/
theorem not_isBlank_of_fold (h : ∀ c ∈ (fold s).toList, isBlank c = false) : ∀ c ∈ s.toList, isBlank c = false := by
  intro c hc
  rw [toList_fold] at h
  rw [← isBlank_toLower]
  exact h _ (List.mem_map_of_mem hc)

end ODataQuery.Text
