import Mathlib.Data.List.FinRange
import ODataQuery.Proofs.Attribute.Identifier
import ODataQuery.Proofs.Attribute.Inference
import ODataQuery.Proofs.Attribute.Marks

/-!
The classes of values. Inference tries ten tests on a value, one after the other: the words for truth, identifiers,
numbers, the strict spelling of a moment and its six layouts. No value passes two of them, because its marks already
say which of the tests it can pass. So the order of the tests does not matter, neither for the type that is inferred
nor for the moment that is read.
-/

namespace ODataQuery

open Text

/-- The layouts of a moment, with and without a time of day. -/
def Time.layouts : List (List Time.Piece) := dateTimeLayouts ++ dateLayouts

/-- The tests of inference, the ones for a moment by the spelling they ask for. -/
inductive ValueClass where
  | truth | identifier | number | strict
  | layout (i : Fin Time.layouts.length)
  deriving DecidableEq

namespace ValueClass

/-- The tests in the order of inference. -/
def all : List ValueClass := [truth, identifier, number, strict] ++ (List.finRange _).map layout

def type : ValueClass → AttributeType
  | truth => .boolean
  | identifier => .lookup
  | number => .number
  | strict | layout _ => .date

/-- The moment that a test finds in a value. -/
def moment? (s : String) : ValueClass → Option Instant
  | strict => Time.readStrict? (trim s.toList)
  | layout i => Time.readLayout? Time.layouts[i] (trim s.toList)
  | truth | identifier | number => none

/-- The value passes the test. -/
def holds (s : String) : ValueClass → Bool
  | truth => sameFolded (trimmed s) "true" || sameFolded (trimmed s) "false"
  | identifier => isGuid s
  | number => (Number.finite? (trimmed s).toList).isSome
  | k => (k.moment? s).isSome

/-! ### What the marks say -/

/-- The rows of marks of the values that pass a test. The two tests whose values have letters are told apart without
them. -/
def rows : ValueClass → List (List Char)
  | number => Text.rows Decimal.runs
  | strict => Text.rows Time.strictRuns
  | layout i => Text.rows (Time.layouts[i].map Time.Piece.runs)
  | truth | identifier => []

/-- The only test that a value with the given marks can pass. -/
def ofMarks? (row : List Char) : Option ValueClass :=
  -- No numeral and no moment has more than three hyphens.
  if row.count '-' = 4 then some identifier
  else if row.map Char.toLower ∈ ["true".toList, "false".toList] then some truth
  else all.find? (row ∈ ·.rows)

theorem mem_all (k : ValueClass) : k ∈ all := by
  cases k with
  | truth | identifier | number | strict => simp [all]
  | layout i => exact List.mem_append_right _ (List.mem_map_of_mem (List.mem_finRange i))

theorem ofMarks?_of_mem_rows {k : ValueClass} {row : List Char} (h : row ∈ k.rows) : ofMarks? row = some k := by
  have hall : ∀ k ∈ all, ∀ row ∈ k.rows, ofMarks? row = some k := by decide +kernel
  exact hall k (mem_all k) row h

theorem toLower_of_not_isMark {c : Char} (h : isMark c = false) : c.toLower = c := by
  rw [isMark, Bool.not_eq_false', Bool.or_eq_true] at h
  cases h with
  | inl hdigit =>
      apply toLower_of_not_capital
      have hbounds := bounds_of_isDigit hdigit
      omega
  | inr hblank => exact toLower_of_isBlank hblank

/-- A text that is a word but for case and the blanks around it has the letters of the word for its marks. -/
theorem map_toLower_marks {s word : String} (h : sameFolded (trimmed s) word = true) (hfold : fold word = word)
    (hmarks : marks word.toList = word.toList) : (marks s.toList).map Char.toLower = word.toList := by
  have hinner : (trim s.toList).map Char.toLower = word.toList := by
    have heq : fold (trimmed s) = word := (eq_of_beq h).trans hfold
    rw [← heq, fold, String.toList_ofList, toList_trimmed]
  have hself : marks (trim s.toList) = trim s.toList := by
    refine List.filter_eq_self.mpr fun c hc => ?_
    have hlower : isMark c.toLower = true :=
      List.filter_eq_self.mp hmarks _ (hinner ▸ List.mem_map_of_mem hc)
    by_contra hnot
    rw [toLower_of_not_isMark (Bool.not_eq_true _ ▸ hnot)] at hlower
    exact hnot hlower
  rw [← marks_trim, hself, hinner]

theorem ofMarks?_of_word {row : List Char} {word : String} (hword : word = "true" ∨ word = "false")
    (h : row.map Char.toLower = word.toList) : ofMarks? row = some truth := by
  have hhyphen : row.count '-' ≠ 4 := by
    intro hcount
    have hmem : '-' ∈ row := List.count_pos_iff.mp (by omega)
    have hlower : '-' ∈ word.toList := h ▸ List.mem_map_of_mem (f := Char.toLower) hmem
    rcases hword with rfl | rfl <;> exact absurd hlower (by decide)
  rw [ofMarks?, if_neg hhyphen, h]
  rcases hword with rfl | rfl <;> exact if_pos (by decide)

theorem ofMarks?_marks {k : ValueClass} {s : String} (h : k.holds s = true) : ofMarks? (marks s.toList) = some k := by
  cases k with
  | truth =>
      rw [holds, Bool.or_eq_true] at h
      cases h with
      | inl hword => exact ofMarks?_of_word (.inl rfl) (map_toLower_marks hword (by decide) (by decide))
      | inr hword => exact ofMarks?_of_word (.inr rfl) (map_toLower_marks hword (by decide) (by decide))
  | identifier =>
      rw [holds] at h
      have hcount : (marks s.toList).count '-' = 4 := by
        rw [marks, List.count_filter (by decide)]
        exact (isIdentifier_of_isGuid h).count_hyphen
      exact if_pos hcount
  | number =>
      rw [holds] at h
      obtain ⟨x, hx⟩ := Option.isSome_iff_exists.mp h
      obtain ⟨d, hd, -⟩ := Option.map_eq_some_iff.mp (Option.filter_eq_some_iff.mp hx).1
      apply ofMarks?_of_mem_rows
      rw [← marks_trim, ← toList_trimmed]
      exact Decimal.marks_of_read? hd
  | strict =>
      obtain ⟨t, ht⟩ := Option.isSome_iff_exists.mp h
      apply ofMarks?_of_mem_rows
      rw [← marks_trim]
      exact Time.marks_of_readStrict? ht
  | layout i =>
      obtain ⟨t, ht⟩ := Option.isSome_iff_exists.mp h
      apply ofMarks?_of_mem_rows
      rw [← marks_trim]
      exact Time.marks_of_readLayout? ht

theorem holds_unique {k k' : ValueClass} {s : String} (h : k.holds s = true) (h' : k'.holds s = true) : k = k' :=
  Option.some_inj.mp ((ofMarks?_marks h).symm.trans (ofMarks?_marks h'))

/-! ### The order of the tests -/

theorem holds_of_moment? {k : ValueClass} {s : String} (h : (k.moment? s).isSome = true) : k.holds s = true := by
  cases k with
  | truth | identifier | number => cases h
  | strict | layout i => exact h

theorem findSome?_layouts (cs : List Char) : Time.layouts.findSome? (Time.readLayout? · cs) =
    (List.finRange _).findSome? fun i => Time.readLayout? Time.layouts[i] cs := by
  conv_lhs => rw [← List.map_getElem_finRange Time.layouts, List.findSome?_map]
  rfl

/-- Reading a moment tries the tests that find one, in the order of inference. -/
theorem ofText?_eq (s : String) : Instant.ofText? s = all.findSome? (·.moment? s) := by
  rw [Instant.ofText?, Time.read?, Option.orElse_eq_orElse, Option.orElse_eq_or, Option.orElse_eq_or,
    Option.or_assoc, ← List.findSome?_append, ← Time.layouts]
  have hstrict : [truth, identifier, number, strict].findSome? (·.moment? s) = Time.readStrict? (trim s.toList) := by
    simp only [List.findSome?_cons, moment?, List.findSome?_nil]
    cases Time.readStrict? (trim s.toList) <;> rfl
  rw [findSome?_layouts, all, List.findSome?_append, List.findSome?_map, hstrict]
  rfl

theorem findSome?_eq_of_unique {α β : Type} {f : α → Option β}
    (hunique : ∀ a a', (f a).isSome = true → (f a').isSome = true → a = a') {l l' : List α} (h : ∀ a, a ∈ l)
    (h' : ∀ a, a ∈ l') : l.findSome? f = l'.findSome? f := by
  cases hl : l.findSome? f with
  | none =>
      refine (List.findSome?_eq_none_iff.mpr fun a _ => ?_).symm
      exact List.findSome?_eq_none_iff.mp hl a (h a)
  | some b =>
      obtain ⟨a, -, ha⟩ := List.exists_of_findSome?_eq_some hl
      obtain ⟨b', hl'⟩ : ∃ b', l'.findSome? f = some b' :=
        Option.isSome_iff_exists.mp (List.findSome?_isSome_iff.mpr ⟨a, h' a, Option.isSome_of_eq_some ha⟩)
      obtain ⟨a', -, ha'⟩ := List.exists_of_findSome?_eq_some hl'
      obtain rfl := hunique a a' (Option.isSome_of_eq_some ha) (Option.isSome_of_eq_some ha')
      rw [hl', ← ha', ha]

/-- Whichever test finds a moment in a value, it is the moment that is read. -/
theorem ofText?_of_moment? {k : ValueClass} {s : String} {t : Instant} (h : k.moment? s = some t) :
    Instant.ofText? s = some t := by
  have hunique : ∀ {k k' : ValueClass}, (k.moment? s).isSome = true → (k'.moment? s).isSome = true → k = k' :=
    fun hk hk' => holds_unique (holds_of_moment? hk) (holds_of_moment? hk')
  have hfirst : ∀ k', k' ∈ k :: all := fun k' => List.mem_cons_of_mem _ (mem_all k')
  rw [ofText?_eq, findSome?_eq_of_unique (fun _ _ => hunique) mem_all hfirst, List.findSome?_cons, h]

theorem ofText?_of_readLayout? {layout : List Time.Piece} {s : String} {t : Instant} (hlayout : layout ∈ Time.layouts)
    (h : Time.readLayout? layout (trim s.toList) = some t) : Instant.ofText? s = some t := by
  obtain ⟨i, hi, rfl⟩ := List.getElem_of_mem hlayout
  exact ofText?_of_moment? (k := layout ⟨i, hi⟩) h

/-- Either a value passes a test, whose type is then inferred, or it passes none and is a text. -/
theorem infer_eq (s : String) : (∃ k : ValueClass, k.holds s = true ∧ AttributeType.infer s = k.type) ∨
    (∀ k : ValueClass, k.holds s = false) ∧ AttributeType.infer s = .string := by
  rw [AttributeType.infer]
  split
  · exact .inl ⟨truth, ‹_›, rfl⟩
  · split
    · exact .inl ⟨identifier, ‹_›, rfl⟩
    · split
      · exact .inl ⟨number, ‹_›, rfl⟩
      · -- The last test of inference stands for all that find a moment.
        rw [Instant.ofText?_trimmed, ofText?_eq]
        split
        · rename_i hdate
          obtain ⟨k, -, hk⟩ := List.findSome?_isSome_iff.mp hdate
          refine .inl ⟨k, holds_of_moment? hk, ?_⟩
          cases k with
          | truth | identifier | number => cases hk
          | strict | layout => rfl
        · rename_i htruth hguid hnumber hdate
          refine .inr ⟨fun k => ?_, rfl⟩
          have hmoment : (k.moment? s).isSome = false :=
            Bool.eq_false_iff.mpr fun hk => hdate (List.findSome?_isSome_iff.mpr ⟨k, mem_all k, hk⟩)
          cases k with
          | truth => exact Bool.eq_false_iff.mpr htruth
          | identifier => exact Bool.eq_false_iff.mpr hguid
          | number => exact Bool.eq_false_iff.mpr hnumber
          | strict | layout => exact hmoment

/-- No value passes two of the ten tests, so that their order does not matter: whichever comes first, the same type is
inferred and the same moment is read. -/
theorem classes_disjoint (s : String) :
    (∀ k k' : ValueClass, k.holds s = true → k'.holds s = true → k = k') ∧
      ∀ order : List ValueClass, (∀ k, k ∈ order) →
        (order.find? (·.holds s)).elim .string type = AttributeType.infer s ∧
        order.findSome? (·.moment? s) = Instant.ofText? s := by
  refine ⟨fun _ _ => holds_unique, fun order horder => ⟨?_, ?_⟩⟩
  · cases infer_eq s with
    | inl hpassed =>
        obtain ⟨k, hk, htype⟩ := hpassed
        obtain ⟨k', hfound⟩ : ∃ k', order.find? (·.holds s) = some k' :=
          Option.isSome_iff_exists.mp (List.find?_isSome.mpr ⟨k, horder k, hk⟩)
        obtain rfl := holds_unique hk (List.find?_some hfound)
        rw [hfound, htype]
        rfl
    | inr hnone =>
        obtain ⟨hnone, htype⟩ := hnone
        rw [List.find?_eq_none.mpr fun k _ => Bool.eq_false_iff.mp (hnone k), htype]
        rfl
  · rw [ofText?_eq]
    refine findSome?_eq_of_unique (fun k k' hk hk' => ?_) horder mem_all
    exact holds_unique (holds_of_moment? hk) (holds_of_moment? hk')

/-- A date with a time of day, the last test first. -/
theorem classes_disjoint_reversed :
    let s := " 2024-03-01  10:30"
    (∀ k : ValueClass, k.holds s = true → k = .layout ⟨3, by decide⟩) ∧
      (∀ k : ValueClass, k ∈ all.reverse) ∧
      (all.reverse.find? (·.holds s)).elim .string type = AttributeType.infer s ∧
      all.reverse.findSome? (·.moment? s) = Instant.ofText? s ∧ Instant.ofText? s = some ⟨1709289000, 0⟩ := by
  intro s
  have horder : ∀ k : ValueClass, k ∈ all.reverse := fun k => List.mem_reverse.mpr (mem_all k)
  have hholds : (layout ⟨3, by decide⟩).holds s = true := by decide +kernel
  have hmoment : Instant.ofText? s = some ⟨1709289000, 0⟩ := by decide +kernel
  obtain ⟨hunique, hany⟩ := classes_disjoint s
  obtain ⟨htype, hsame⟩ := hany all.reverse horder
  exact ⟨fun k hk => hunique k _ hk hholds, horder, htype, hsame, hmoment⟩

end ValueClass

end ODataQuery
