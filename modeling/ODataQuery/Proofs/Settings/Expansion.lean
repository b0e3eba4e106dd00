import Mathlib.Data.List.TakeWhile
import ODataQuery.Settings.Basic

/-!
The parts of a text with references to variables. Every text is made of parts of five kinds: text that stands for
itself, references with and without braces, single dollar signs, and at its end a reference whose brace is not closed.
Expansion puts a value in the place of each reference, as it is, and leaves the rest alone; the first reference to a
variable without a value ends it.
-/

namespace ODataQuery.Expansion

/-- A part of a text. -/
inductive Part where
  /-- Text without dollar signs. -/
  | plain (text : List Char)
  /-- A reference in braces. -/
  | braced (name : List Char)
  /-- A reference without braces. -/
  | bare (name : List Char)
  /-- A dollar sign that begins no reference. -/
  | dollar
  /-- A reference whose brace is not closed. -/
  | unclosed (name : List Char)
  deriving DecidableEq

namespace Part

/-- The variable that a part refers to. -/
def name? : Part → Option String
  | plain _ | dollar => none
  | braced name | bare name | unclosed name => some (String.ofList name)

/-- What stands in the place of a part if all variables have values. -/
def inserted (values : String → Option String) : Part → String
  | plain text => String.ofList text
  | dollar => "$"
  | braced name | bare name | unclosed name => (values (String.ofList name)).getD ""

end Part

/-- A text is made of parts, one after the other. A name without braces goes on as far as it can, and only the last
brace may be left open. -/
inductive MadeOf : List Char → List Part → Prop where
  | nil : MadeOf [] []
  | plain {text rest parts} : '$' ∉ text → MadeOf rest parts → MadeOf (text ++ rest) (.plain text :: parts)
  | braced {name rest parts} : '}' ∉ name → MadeOf rest parts →
      MadeOf ('$' :: '{' :: (name ++ '}' :: rest)) (.braced name :: parts)
  | bare {name rest parts} : name ≠ [] → (∀ c ∈ name, isNameChar c = true) →
      (∀ c ∈ rest.head?, isNameChar c = false) → MadeOf rest parts →
      MadeOf ('$' :: (name ++ rest)) (.bare name :: parts)
  | dollar {rest parts} : (∀ c ∈ rest.head?, c ≠ '{' ∧ isNameChar c = false) → MadeOf rest parts →
      MadeOf ('$' :: rest) (.dollar :: parts)
  | unclosed {name} : '}' ∉ name → MadeOf ('$' :: '{' :: name) [.unclosed name]

/-- What becomes of a text of parts: the first name that has no value, or else the parts with the values of variables
for the references to them. -/
def outcome (values : String → Option String) (parts : List Part) : Except String String :=
  match (parts.filterMap Part.name?).find? fun name => (values name).isNone with
  | some name => .error name
  | none => .ok (String.join (parts.map (Part.inserted values)))

variable {values : String → Option String} {cs text name rest : List Char} {c : Char} {parts : List Part} {p : Part}

/-! ### Outcomes part by part -/

theorem outcome_text (h : p.name? = none) :
    outcome values (p :: parts) = (outcome values parts).map (p.inserted values ++ ·) := by
  unfold outcome
  rw [List.filterMap_cons_none h, List.map_cons, String.join_cons]
  cases (parts.filterMap Part.name?).find? fun name => (values name).isNone <;> rfl

theorem outcome_set {n v : String} (h : p.name? = some n) (hv : values n = some v) :
    outcome values (p :: parts) = (outcome values parts).map (p.inserted values ++ ·) := by
  unfold outcome
  rw [List.filterMap_cons_some h, List.find?_cons_of_neg (by simp [hv]), List.map_cons, String.join_cons]
  cases (parts.filterMap Part.name?).find? fun name => (values name).isNone <;> rfl

theorem outcome_unset {n : String} (h : p.name? = some n) (hv : values n = none) :
    outcome values (p :: parts) = .error n := by
  unfold outcome
  rw [List.filterMap_cons_some h, List.find?_cons_of_pos (by simp [hv])]

/-! ### Pieces part by part -/

/-- A run of characters ends where the next one is of another kind. -/
theorem span_append {kind : Char → Bool} (hname : ∀ c ∈ name, kind c = true)
    (hrest : ∀ c ∈ rest.head?, kind c = false) :
    (name ++ rest).takeWhile kind = name ∧ (name ++ rest).dropWhile kind = rest := by
  rw [List.takeWhile_append_of_pos hname, List.dropWhile_append_of_pos hname]
  cases rest with
  | nil => exact ⟨List.append_nil name, rfl⟩
  | cons c rest =>
      have hc : ¬ kind c = true := by simp [hrest c rfl]
      rw [List.takeWhile_cons_of_neg hc, List.dropWhile_cons_of_neg hc]
      exact ⟨List.append_nil name, rfl⟩

theorem pieces_char (hc : c ≠ '$') (cs : List Char) : pieces (c :: cs) = .char c :: pieces cs :=
  pieces.eq_4 c cs (fun _ h _ => hc h) hc

theorem pieces_plain (h : '$' ∉ text) (rest : List Char) : pieces (text ++ rest) = text.map .char ++ pieces rest := by
  induction text with
  | nil => rfl
  | cons c text ih =>
      obtain ⟨hc, htext⟩ := not_or.mp (mt List.mem_cons.mpr h)
      rw [List.cons_append, pieces_char (Ne.symm hc), ih htext, List.map_cons, List.cons_append]

theorem not_brace_of_not_mem (h : '}' ∉ name) : ∀ c ∈ name, (c != '}') = true := by
  intro c hc
  exact bne_iff_ne.mpr fun heq => h (heq ▸ hc)

theorem pieces_braced (h : '}' ∉ name) (rest : List Char) :
    pieces ('$' :: '{' :: (name ++ '}' :: rest)) = .reference name :: pieces rest := by
  have hbrace : ∀ c ∈ ('}' :: rest).head?, (c != '}') = false := by
    rintro c ⟨rfl⟩
    rfl
  obtain ⟨htake, hdrop⟩ := span_append (not_brace_of_not_mem h) hbrace
  rw [pieces, htake, hdrop]
  rfl

theorem pieces_unclosed (h : '}' ∉ name) : pieces ('$' :: '{' :: name) = [.reference name] := by
  have hname := not_brace_of_not_mem h
  rw [pieces, List.takeWhile_eq_self_iff.mpr hname, List.dropWhile_eq_nil_iff.mpr hname, List.drop_nil, pieces]

theorem pieces_dollar_cons (h : ∀ c ∈ cs.head?, c ≠ '{') : pieces ('$' :: cs) =
    if (cs.takeWhile isNameChar).isEmpty then .char '$' :: pieces cs
    else .reference (cs.takeWhile isNameChar) :: pieces (cs.dropWhile isNameChar) := by
  refine pieces.eq_3 cs ?_
  rintro rest rfl
  exact h '{' rfl rfl

theorem not_isNameChar_brace : isNameChar '{' = false := by decide +kernel

theorem pieces_bare (hne : name ≠ []) (hname : ∀ c ∈ name, isNameChar c = true)
    (hrest : ∀ c ∈ rest.head?, isNameChar c = false) :
    pieces ('$' :: (name ++ rest)) = .reference name :: pieces rest := by
  obtain ⟨htake, hdrop⟩ := span_append hname hrest
  have hbrace : ∀ c ∈ (name ++ rest).head?, c ≠ '{' := by
    intro c hc
    obtain ⟨d, name, rfl⟩ := List.exists_cons_of_ne_nil hne
    rintro rfl
    cases hc
    cases (hname '{' List.mem_cons_self).symm.trans not_isNameChar_brace
  rw [pieces_dollar_cons hbrace, htake, hdrop, if_neg (by simpa using hne)]

theorem pieces_dollar (h : ∀ c ∈ rest.head?, c ≠ '{' ∧ isNameChar c = false) :
    pieces ('$' :: rest) = .char '$' :: pieces rest := by
  have hnone : ∀ c ∈ [], isNameChar c = true := nofun
  have hempty : ([] ++ rest).takeWhile isNameChar = [] := (span_append hnone fun c hc => (h c hc).2).1
  rw [pieces_dollar_cons fun c hc => (h c hc).1, ← List.nil_append rest, hempty]
  rfl

/-! ### Filling -/

theorem map_ofList (text : List Char) (x : Except String (List Char)) :
    (x.map (text ++ ·)).map String.ofList = (x.map String.ofList).map (String.ofList text ++ ·) := by
  cases x with
  | error e => rfl
  | ok cs => exact congrArg Except.ok String.ofList_append

theorem fill_plain (text : List Char) (ps : List Piece) :
    fill values (text.map .char ++ ps) = (fill values ps).map (text ++ ·) := by
  induction text with
  | nil => cases h : fill values ps <;> simp [h, Except.map]
  | cons c text ih =>
      rw [List.map_cons, List.cons_append, fill, ih]
      cases fill values ps <;> rfl

/-- A reference is filled in as it becomes, if what is behind it is. -/
theorem fill_reference {ps : List Piece} (h : p.name? = some (String.ofList name))
    (hp : p.inserted values = (values (String.ofList name)).getD "")
    (ih : (fill values ps).map String.ofList = outcome values parts) :
    (fill values (.reference name :: ps)).map String.ofList = outcome values (p :: parts) := by
  cases hv : values (String.ofList name) with
  | none =>
      rw [fill, hv, outcome_unset h hv]
      rfl
  | some v =>
      have hinserted : p.inserted values = String.ofList v.toList := by
        rw [hp, hv, String.ofList_toList, Option.getD_some]
      rw [outcome_set h hv, hinserted, ← ih, ← map_ofList, fill, hv]

/-- What is filled in is what becomes of the parts. -/
theorem MadeOf.fill_eq (h : MadeOf cs parts) : (fill values (pieces cs)).map String.ofList = outcome values parts := by
  induction h with
  | nil => simp [pieces, fill, outcome, Except.map]
  | @plain text rest parts htext _ ih =>
      rw [pieces_plain htext, fill_plain, map_ofList, ih, outcome_text rfl]
      rfl
  | braced hname _ ih =>
      rw [pieces_braced hname]
      exact fill_reference rfl rfl ih
  | bare hne hname hrest _ ih =>
      rw [pieces_bare hne hname hrest]
      exact fill_reference rfl rfl ih
  | dollar hrest _ ih =>
      rw [pieces_dollar hrest, outcome_text rfl, ← ih]
      exact map_ofList ['$'] _
  | unclosed hname =>
      rw [pieces_unclosed hname]
      refine fill_reference rfl rfl ?_
      simp [fill, outcome, Except.map]

theorem fill_congr {values' : String → Option String} {ps : List Piece}
    (h : ∀ name, .reference name ∈ ps → values' (String.ofList name) = values (String.ofList name)) :
    fill values' ps = fill values ps := by
  induction ps with
  | nil => rfl
  | cons p ps ih =>
      have hrest : fill values' ps = fill values ps := ih fun name hname => h name (List.mem_cons_of_mem _ hname)
      cases p with
      | char c => rw [fill, fill, hrest]
      | reference name => rw [fill, fill, hrest, h name List.mem_cons_self]

/-- Only the variables that a text refers to matter. -/
theorem expand_congr {values' : String → Option String} {s : String}
    (h : ∀ name ∈ references s, values' name = values name) : expand values' s = expand values s := by
  unfold expand
  rw [fill_congr]
  intro name hname
  apply h
  exact List.mem_filterMap.mpr ⟨_, hname, rfl⟩

/-- Every text is made of parts. -/
theorem exists_madeOf (cs : List Char) : ∃ parts, MadeOf cs parts := by
  induction cs using pieces.induct with
  | case1 => exact ⟨[], .nil⟩
  | case2 cs ih =>
      by_cases hmem : '}' ∈ cs
      · obtain ⟨name, rest, rfl, hname⟩ := List.eq_append_cons_of_mem hmem
        have hbrace : ∀ c ∈ ('}' :: rest).head?, (c != '}') = false := by
          rintro c ⟨rfl⟩
          rfl
        rw [(span_append (not_brace_of_not_mem hname) hbrace).2] at ih
        obtain ⟨parts, hparts⟩ := ih
        exact ⟨_, .braced hname hparts⟩
      · exact ⟨_, .unclosed hmem⟩
  | case3 cs hbrace hempty ih =>
      obtain ⟨parts, hparts⟩ := ih
      refine ⟨_, .dollar ?_ hparts⟩
      cases cs with
      | nil => exact nofun
      | cons c cs =>
          rintro d ⟨rfl⟩
          refine ⟨fun hd => hbrace cs (by rw [hd]), ?_⟩
          cases hc : isNameChar c with
          | false => rfl
          | true => simp [hc] at hempty
  | case4 cs hbrace hname ih =>
      obtain ⟨parts, hparts⟩ := ih
      have hends : ∀ c ∈ (cs.dropWhile isNameChar).head?, isNameChar c = false := by
        intro c hc
        have hnot := List.head?_dropWhile_not isNameChar cs
        rwa [Option.mem_def.mp hc] at hnot
      have hbare := MadeOf.bare (by simpa using hname) (fun c hc => List.mem_takeWhile_imp hc) hends hparts
      rw [List.takeWhile_append_dropWhile] at hbare
      exact ⟨_, hbare⟩
  | case5 c cs hbrace hc ih =>
      obtain ⟨parts, hparts⟩ := ih
      have hplain : '$' ∉ [c] := fun hmem => hc (List.mem_singleton.mp hmem).symm
      exact ⟨_, .plain hplain hparts⟩

/-- Expansion goes by the parts of a text: it fails at the first reference to a variable without a value, and otherwise
gives the text with the values in the places of the references. The path of a catalog is expanded in this way. Every
text is made of parts, and only at its end may a brace be open, of which the name is all the text behind it. -/
theorem expansion_by_parts (values : String → Option String) :
    (∀ s parts, MadeOf s.toList parts → expand values s = outcome values parts ∧
      ∀ settings : Settings, settings.catalogPath = some s →
        settings.expandedPath values = ((outcome values parts).mapError .unsetVariable).map some) ∧
    ∀ s : String, ∃ parts, MadeOf s.toList parts := by
  refine ⟨fun s parts h => ⟨h.fill_eq, fun settings hs => ?_⟩, fun s => exists_madeOf s.toList⟩
  rw [Settings.expandedPath, hs, ← h.fill_eq]
  rfl

/-- A dollar sign before a reference, references next to one another, and a brace that is not closed. The value with a
reference in it is not expanded again. -/
theorem expansion_by_parts_unclosed :
    let values : String → Option String := fun name => if name = "A" then some "$B" else some name
    let text : List Char := ['$', '$', '{', 'A', '}', '$', 'B', '-', '$', '{', '$']
    let parts : List Part := [.dollar, .braced ['A'], .bare ['B'], .plain ['-'], .unclosed ['$']]
    MadeOf (String.ofList text).toList parts ∧ expand values (String.ofList text) = .ok "$$BB-$" := by
  intro values text parts
  have hdollar : isNameChar '$' = false := by decide +kernel
  have hname : isNameChar 'B' = true := by decide +kernel
  have hend : isNameChar '-' = false := by decide +kernel
  have h : MadeOf text parts := by
    refine .dollar (by rintro c ⟨rfl⟩; exact ⟨by decide, hdollar⟩) (@MadeOf.braced ['A'] _ _ (by decide) ?_)
    refine @MadeOf.bare ['B'] _ _ (by decide) (by simpa using hname) (by rintro c ⟨rfl⟩; exact hend) ?_
    exact @MadeOf.plain ['-'] _ _ (by decide) (.unclosed (by decide))
  rw [← String.toList_ofList (l := text)] at h
  exact ⟨h, ((expansion_by_parts values).1 _ parts h).1.trans (by decide +kernel)⟩

end ODataQuery.Expansion
