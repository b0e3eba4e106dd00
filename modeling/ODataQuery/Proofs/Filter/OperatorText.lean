import Mathlib.Data.List.Forall2
import ODataQuery.Filter.Operator
import ODataQuery.Proofs.Text.Words

/-!
The texts that name operators. A text is compared with those of the operators after its words are joined by single
blanks and put into lower case, which reaches beyond ASCII: it makes a k of the kelvin sign, and an i with a mark of the
dotted capital. The texts of the operators have neither a k nor a character beyond ASCII, and so lower case does for
them what the folding of ASCII letters does.
-/

namespace ODataQuery

open Text

namespace Text

/-! ### Lower case and folding -/

/-- Lower case brings this character only in place of its own two forms. Of the ASCII characters only k may also stand
for one beyond ASCII. -/
def Unmistakable (c : Char) : Prop := 0 < c.toNat ∧ c.toNat < 128 ∧ c ≠ 'k'

instance (c : Char) : Decidable (Unmistakable c) := inferInstanceAs (Decidable (_ ∧ _ ∧ _))

theorem wide_of_caseRuns {n m : Nat} (hn : 128 ≤ n) (h : caseRuns.findSome? (·.lower? n) = some m) :
    128 ≤ m ∨ m = 107 := by
  have himages : ∀ r ∈ caseRuns, r.last < 128 ∨ 128 ≤ r.image ∨ r.image = 107 ∧ r.first = r.last := by decide +kernel
  obtain ⟨r, hr, hm⟩ := List.exists_of_findSome?_eq_some h
  have himage := himages r hr
  rw [CaseRun.lower?] at hm
  split at hm
  · cases hm
    omega
  · cases hm

theorem not_unmistakable_ofNat {n : Nat} (hn : 128 ≤ n ∨ n = 107) : ¬ Unmistakable (Char.ofNat n) := by
  rintro ⟨hpos, hlt, hk⟩
  by_cases hvalid : n.isValidChar
  · have hchar : Char.ofNat n = Char.ofNatAux n hvalid := dif_pos hvalid
    rcases hn with hn | rfl
    · rw [hchar] at hlt
      exact absurd hlt (not_lt.mpr hn)
    · exact hk rfl
  · have hchar : Char.ofNat n = '\x00' := dif_neg hvalid
    rw [hchar] at hpos
    cases hpos

/-- Every character beyond ASCII leaves a trace in lower case. -/
theorem exists_mistakable {c : Char} (hc : 128 ≤ c.toNat) : ∃ d ∈ lowerChar c, ¬ Unmistakable d := by
  rw [lowerChar, if_neg (not_lt.mpr hc)]
  split
  · exact ⟨Char.ofNat 0x307, by simp, by decide⟩
  · split
    · rename_i n hn
      exact ⟨_, List.mem_singleton_self _, not_unmistakable_ofNat (wide_of_caseRuns hc hn)⟩
    · exact ⟨c, List.mem_singleton_self c, fun h => absurd h.2.1 (not_lt.mpr hc)⟩

theorem lt_of_lowerFrom {before cs : List Char} (h : ∀ d ∈ lowerFrom before cs, Unmistakable d) :
    ∀ c ∈ cs, c.toNat < 128 := by
  induction cs generalizing before with
  | nil => exact nofun
  | cons c cs ih =>
      rw [lowerFrom] at h
      split at h
      · have hsigma : ¬ Unmistakable (lowerSigma before cs) := by
          rw [lowerSigma]
          split <;> decide
        exact absurd (h _ List.mem_cons_self) hsigma
      · obtain ⟨hfirst, hrest⟩ := List.forall_mem_append.mp h
        refine List.forall_mem_cons.mpr ⟨?_, ih hrest⟩
        by_contra hc
        obtain ⟨d, hd, hnot⟩ := exists_mistakable (not_lt.mp hc)
        exact hnot (hfirst d hd)

theorem lowerFrom_ascii {before cs : List Char} (h : ∀ c ∈ cs, c.toNat < 128) :
    lowerFrom before cs = cs.map Char.toLower := by
  have hsigma : ∀ c ∈ cs, c.toNat ≠ 0x3A3 := fun c hc => ((h c hc).trans (by decide)).ne
  rw [lowerFrom_eq_flatMap hsigma, List.flatMap_congr fun c hc => lowerChar_ascii (h c hc)]
  exact List.map_eq_flatMap.symm

theorem lower_eq_iff {s t : String} (ht : ∀ c ∈ t.toList, Unmistakable c) : lower s = t ↔ fold s = t := by
  rw [lower, fold]
  constructor
  · rintro rfl
    rw [String.toList_ofList] at ht
    rw [lowerFrom_ascii (lt_of_lowerFrom ht)]
  · rintro rfl
    rw [String.toList_ofList] at ht
    have hascii : ∀ c ∈ s.toList, c.toNat < 128 :=
      fun c hc => toNat_lt_of_toLower (ht _ (List.mem_map_of_mem hc)).2.1
    rw [lowerFrom_ascii hascii]

theorem map_intercalate (f : Char → Char) (separator : List Char) (ws : List (List Char)) :
    (separator.intercalate ws).map f = (separator.map f).intercalate (ws.map (·.map f)) := by
  induction ws with
  | nil => rfl
  | cons w ws ih =>
      cases ws with
      | nil => simp
      | cons w' ws =>
          rw [List.intercalate_cons_cons, List.map_append, List.map_append, ih]
          simp only [List.map_cons, List.intercalate_cons_cons]

theorem fold_join (ws : List (List Char)) :
    (fold (join " " (ws.map String.ofList))).toList = [' '].intercalate (ws.map (·.map Char.toLower)) := by
  have hsame : String.toList ∘ String.ofList = id := funext fun _ => String.toList_ofList
  rw [fold, String.toList_ofList, toList_join, List.map_map, hsame, List.map_id, map_intercalate]
  rfl

end Text

namespace Operator

variable {op op' : Operator} {s : String}

/-- The words of the text are those of the operator's own text, but for the case of ASCII letters. -/
def IsNamedBy (op : Operator) (s : String) : Prop :=
  ∃ ws ws', Runs s.toList ws ∧ Runs op.text.toList ws' ∧
    List.Forall₂ (fun w w' => w.map Char.toLower = w'.map Char.toLower) ws ws'

theorem mem_all (op : Operator) : op ∈ all := by cases op <;> decide

theorem text_injective (h : op.text = op'.text) : op = op' := by
  have hall : ∀ op ∈ all, ∀ op' ∈ all, op.text = op'.text → op = op' := by decide
  exact hall op (mem_all op) op' (mem_all op') h

theorem unmistakable_text (op : Operator) : ∀ c ∈ op.text.toList, Unmistakable c := by
  have hall : op.text.toList.all (Unmistakable ·) = true := by cases op <;> decide
  exact fun c hc => of_decide_eq_true (List.all_eq_true.mp hall c hc)

/-- The text of an operator is in small letters, with single blanks between its words. -/
theorem intercalate_words (op : Operator) : [' '].intercalate (words op.text.toList) = op.text.toList ∧
    (words op.text.toList).map (·.map Char.toLower) = words op.text.toList := by
  cases op <;> decide

theorem isNamedBy_iff : op.IsNamedBy s ↔ (words s.toList).map (·.map Char.toLower) = words op.text.toList := by
  have heq : ∀ us us' : List (List Char), List.Forall₂ (· = ·) us us' ↔ us = us' :=
    fun _ _ => by rw [List.forall₂_eq_eq_eq]
  have hiff : ∀ ws ws' : List (List Char), List.Forall₂ (fun w w' => w.map Char.toLower = w'.map Char.toLower) ws ws' ↔
      ws.map (·.map Char.toLower) = ws'.map (·.map Char.toLower) := by
    intro ws ws'
    rw [← heq, List.forall₂_map_left_iff, List.forall₂_map_right_iff]
  simp only [IsNamedBy, runs_iff, exists_and_left, exists_eq_left', hiff]
  rw [op.intercalate_words.2]

/-- Lower case of the joined words is the operator's text exactly if the words are the operator's. -/
theorem lower_join_eq_iff : lower (join " " ((words s.toList).map String.ofList)) = op.text ↔ op.IsNamedBy s := by
  have hruns : Runs s.toList (words s.toList) := runs_iff.mpr rfl
  have hsmall : ∀ w ∈ (words s.toList).map (·.map Char.toLower), w ≠ [] ∧ ∀ c ∈ w, isBlank c = false := by
    refine List.forall_mem_map.mpr fun w hw => ?_
    obtain ⟨hne, hblank⟩ := hruns.word_mem w hw
    refine ⟨by simpa using hne, List.forall_mem_map.mpr fun c hc => ?_⟩
    rw [isBlank_toLower, hblank c hc]
  rw [lower_eq_iff op.unmistakable_text, ← String.toList_inj, fold_join, isNamedBy_iff]
  constructor
  · intro h
    rw [← h, (runs_intercalate hsmall).words_eq]
  · intro h
    rw [h, op.intercalate_words.1]

theorem ofText?_eq_some_iff : ofText? s = some op ↔ op.IsNamedBy s := by
  rw [← lower_join_eq_iff, ofText?]
  generalize lower _ = plain
  constructor
  · intro h
    have htext := List.find?_some h
    exact (eq_of_beq htext).symm
  · rintro rfl
    have hfound : (all.find? (·.text == op.text)).isSome = true := List.find?_isSome.mpr ⟨op, mem_all op, by simp⟩
    obtain ⟨op', hop'⟩ := Option.isSome_iff_exists.mp hfound
    have htext := List.find?_some hop'
    rw [hop', text_injective (eq_of_beq htext)]

theorem isNamedBy_text (op : Operator) : op.IsNamedBy op.text := isNamedBy_iff.mpr op.intercalate_words.2

theorem ofText?_text (op : Operator) : ofText? op.text = some op := ofText?_eq_some_iff.mpr op.isNamedBy_text

/-- No text names two operators. -/
theorem IsNamedBy.unique (h : op.IsNamedBy s) (h' : op'.IsNamedBy s) : op = op' :=
  Option.some.inj ((ofText?_eq_some_iff.mpr h).symm.trans (ofText?_eq_some_iff.mpr h'))

/-- Blanks apart, a text that names an operator has ASCII characters only. -/
theorem IsNamedBy.ascii (h : op.IsNamedBy s) {c : Char} (hc : c ∈ s.toList) (hblank : isBlank c = false) :
    c.toNat < 128 := by
  have hall : (words op.text.toList).all (·.all (·.toNat < 128)) = true := by cases op <;> decide
  have hascii : ∀ w ∈ words op.text.toList, ∀ c ∈ w, c.toNat < 128 := by
    simpa only [List.all_eq_true, decide_eq_true_eq] using hall
  have hruns : Runs s.toList (words s.toList) := runs_iff.mpr rfl
  obtain ⟨w, hw, hmem⟩ := hruns.exists_word hc hblank
  have hlower : w.map Char.toLower ∈ words op.text.toList := isNamedBy_iff.mp h ▸ List.mem_map_of_mem hw
  exact toNat_lt_of_toLower (hascii _ hlower _ (List.mem_map_of_mem hmem))

theorem ofText_eq_ok_iff : ofText s = .ok op ↔ op.IsNamedBy s := by
  rw [← ofText?_eq_some_iff, ofText]
  cases ofText? s with
  | none => simp
  | some op' => simp

/-- A text names an operator exactly if it has the operator's words, but for the case of ASCII letters, and every other
text is given back as it is. No character beyond ASCII passes for a letter, an operator is named by its own text, and no
text names two. -/
theorem texts_accepted (s : String) :
    (∀ op, ofText s = .ok op ↔ op.IsNamedBy s) ∧
    ((∀ op : Operator, ¬ op.IsNamedBy s) ↔ ofText s = .error ⟨s⟩) ∧
    (∀ op : Operator, op.IsNamedBy s → ∀ c ∈ s.toList, isBlank c = false → c.toNat < 128) ∧
    (∀ op : Operator, ofText op.text = .ok op) ∧
    ∀ op op' : Operator, op.IsNamedBy s → op'.IsNamedBy s → op = op' := by
  refine ⟨fun op => ofText_eq_ok_iff, ?_, fun op h c => h.ascii, fun op => ofText_eq_ok_iff.mpr op.isNamedBy_text,
    fun op op' => IsNamedBy.unique⟩
  simp only [← ofText?_eq_some_iff, ofText]
  cases ofText? s with
  | none => simp
  | some op => simp

/-- An em space is a blank. A zero-width space is none, and a long s is no s. -/
example : ofText "\u2003Not\tCONTAINS\n" = .ok .notContains ∧ ofText "eq\u200bnull" = .error ⟨"eq\u200bnull"⟩ ∧
    ofText "\u017ftartswith" = .error ⟨"\u017ftartswith"⟩ := by
  decide +kernel

end Operator

end ODataQuery
