import ODataQuery.Proofs.Text.Trimmed

/-!
The words of a text. They are its maximal runs of characters that are not blank, and joining them with single blanks
gives a text of the same words.
-/

namespace ODataQuery.Text

/-- The maximal runs of characters that are not blank. -/
inductive Runs : List Char → List (List Char) → Prop where
  | nil : Runs [] []
  | blank {c cs ws} : isBlank c = true → Runs cs ws → Runs (c :: cs) ws
  | word {w rest ws} : w ≠ [] → (∀ c ∈ w, isBlank c = false) → (∀ c ∈ rest.head?, isBlank c = true) → Runs rest ws →
      Runs (w ++ rest) (w :: ws)

variable {cs w rest : List Char} {ws : List (List Char)} {c : Char}

theorem words_cons_blank (hc : isBlank c = true) (cs : List Char) : words (c :: cs) = words cs := if_pos hc

/-- A run goes on to the next blank. -/
theorem words_append (hne : w ≠ []) (hw : ∀ c ∈ w, isBlank c = false) (hrest : ∀ c ∈ rest.head?, isBlank c = true) :
    words (w ++ rest) = w :: words rest := by
  induction w with
  | nil => exact absurd rfl hne
  | cons c w ih =>
      obtain ⟨hc, hw⟩ := List.forall_mem_cons.mp hw
      have hc' : ¬ isBlank c = true := by simp [hc]
      rw [List.cons_append, words, if_neg hc']
      cases w with
      | nil =>
          cases rest with
          | nil => rfl
          | cons d rest =>
              have hd : isBlank d = true := hrest d rfl
              rw [List.nil_append, List.head?_cons]
              cases words (d :: rest) with
              | nil => rfl
              | cons w' ws => exact if_pos hd
      | cons d w =>
          have hd : ¬ isBlank d = true := by simp [hw d List.mem_cons_self]
          rw [ih (List.cons_ne_nil d w) hw, List.cons_append, List.head?_cons]
          exact if_neg hd

theorem Runs.words_eq (h : Runs cs ws) : words cs = ws := by
  induction h with
  | nil => rfl
  | blank hc _ ih => rw [words_cons_blank hc, ih]
  | word hne hw hrest _ ih => rw [words_append hne hw hrest, ih]

theorem exists_runs (cs : List Char) : ∃ ws, Runs cs ws := by
  induction cs with
  | nil => exact ⟨[], .nil⟩
  | cons c cs ih =>
      obtain ⟨ws, hws⟩ := ih
      by_cases hc : isBlank c = true
      · exact ⟨ws, .blank hc hws⟩
      · have hsingle : ∀ d ∈ [c], isBlank d = false := List.forall_mem_singleton.mpr ((Bool.not_eq_true _).mp hc)
        -- Either the character is a run by itself, or the next run begins with it.
        cases hws with
        | nil => exact ⟨_, .word (List.cons_ne_nil c []) hsingle nofun .nil⟩
        | blank hd hrest =>
            refine ⟨_, .word (List.cons_ne_nil c []) hsingle (fun e he => ?_) (.blank hd hrest)⟩
            exact Option.some.inj he ▸ hd
        | word hne hw hrest hws =>
            exact ⟨_, .word (List.cons_ne_nil c _) (List.forall_mem_append.mpr ⟨hsingle, hw⟩) hrest hws⟩

theorem runs_iff : Runs cs ws ↔ words cs = ws := by
  constructor
  · exact Runs.words_eq
  · rintro rfl
    obtain ⟨ws, hws⟩ := exists_runs cs
    rwa [hws.words_eq]

theorem Runs.word_mem (h : Runs cs ws) : ∀ w ∈ ws, w ≠ [] ∧ ∀ c ∈ w, isBlank c = false := by
  induction h with
  | nil => exact nofun
  | blank _ _ ih => exact ih
  | word hne hw _ _ ih => exact List.forall_mem_cons.mpr ⟨⟨hne, hw⟩, ih⟩

theorem Runs.exists_word (h : Runs cs ws) (hc : c ∈ cs) (hblank : isBlank c = false) : ∃ w ∈ ws, c ∈ w := by
  induction h with
  | nil => cases hc
  | blank hd _ ih =>
      rcases List.mem_cons.mp hc with rfl | hc
      · cases hblank.symm.trans hd
      · exact ih hc
  | @word w rest ws _ _ _ _ ih =>
      rcases List.mem_append.mp hc with hc | hc
      · exact ⟨w, List.mem_cons_self, hc⟩
      · obtain ⟨w', hw', hc⟩ := ih hc
        exact ⟨w', List.mem_cons_of_mem _ hw', hc⟩

/-- Words with single blanks between them are the words of the whole. -/
theorem runs_intercalate (h : ∀ w ∈ ws, w ≠ [] ∧ ∀ c ∈ w, isBlank c = false) : Runs ([' '].intercalate ws) ws := by
  induction ws with
  | nil => exact .nil
  | cons w ws ih =>
      obtain ⟨⟨hne, hw⟩, hws⟩ := List.forall_mem_cons.mp h
      cases ws with
      | nil => exact .word hne hw nofun .nil
      | cons w' ws =>
          rw [List.intercalate_cons_cons, List.append_assoc]
          have hblank : isBlank ' ' = true := by decide
          exact .word hne hw (fun c hc => Option.some.inj hc ▸ hblank) (.blank hblank (ih hws))

end ODataQuery.Text
