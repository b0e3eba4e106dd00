import Mathlib.Data.List.Basic
import Mathlib.Data.List.Forall2
import ODataQuery.Proofs.Filter.Kept
import ODataQuery.Proofs.Text.Characters

/-!
A query text as its receiver takes it apart. The parameters stand one after the other with an `&` between
them, each begins with its head, and no head comes twice. Nothing in them is encoded: literals have their
quotes doubled, and that is all. So the text falls apart into the parameters that were put together if, and
only if, there is no `&` in anything that is written as it stands.
-/

namespace ODataQuery

open Text

/-- What parameters begin with, in their order. -/
def parameterHeads : List String := ["$select=", "$filter=", "$top=", "$orderby="]

/-- Every piece begins with a head. The heads are in order, and none comes twice. -/
def Headed (pieces : List (List Char)) : Prop :=
  ∃ heads : List String, heads.Sublist parameterHeads ∧
    List.Forall₂ (fun head piece => head.toList <+: piece) heads pieces

/-- What is left to see of a typed value where an attribute of the type is compared with it. Numbers and
moments are written anew. -/
def AttributeType.shown (raw : String) : AttributeType → List String
  | number | date => []
  | optionset => if (Number.ofText raw).isNaN then [raw] else []
  | string | unknown | boolean | lookup => [raw]

/-- The texts that a condition brings into the query text: the name of its attribute and, unless it takes no
value or the value is written anew, its value. -/
def Condition.shown (known : Option AttributeMap) (c : Condition) : List String :=
  let raw := c.value.getD ""
  c.name :: if c.operator.isNullTest then [] else (AttributeMap.typeOf known c.name raw).shown raw

/-- The texts that are brought into the query text. -/
def Query.shown (q : Query) (policy : NanPolicy) : List String :=
  q.columns ++ (q.kept policy).flatMap (·.condition.shown q.known) ++ q.orderAttribute.toList

/-- The query asks for nothing in particular: it has no columns, all its conditions are dropped, and it has no
limit and no order. -/
structure Query.Silent (q : Query) (policy : NanPolicy) : Prop where
  no_columns : q.columns = []
  no_conditions : q.kept policy = []
  no_limit : ∀ n ∈ q.top, n = 0
  no_order : ∀ name ∈ q.orderAttribute, name = ""

/-- Some text has a character in it at which a query text is taken apart. -/
def Text.Cut (texts : List String) : Prop := ∃ s ∈ texts, '&' ∈ s.toList

/-- The parameters that a query may have, by their heads, with what follows the head if there is one. -/
def Query.clauses (q : Query) (policy : NanPolicy) : List (String × Option String) :=
  [("$select=", if q.columns = [] then none else some (join "," q.fields)),
   ("$filter=", (q.filter? policy).map (·.render)),
   ("$top=", (q.top.filter (· ≠ 0)).map fun n => decimal n.toNat),
   ("$orderby=", (q.orderAttribute.filter (· ≠ "")).map fun name =>
     name ++ " " ++ (q.orderDirection.getD .asc).text)]

variable {known : Option AttributeMap} {policy : NanPolicy}

/-! ### Texts that are taken apart -/

namespace Text

section

variable {α : Type} {x : α} [BEq α] [LawfulBEq α]

/-- What a list is split at is in no piece. -/
theorem not_mem_of_mem_splitOn {l piece : List α} (h : piece ∈ l.splitOn x) : x ∉ piece := by
  induction l generalizing piece with
  | nil =>
      rw [List.splitOn_nil, List.mem_singleton] at h
      rw [h]
      exact List.not_mem_nil
  | cons y l ih =>
      rw [List.splitOn_cons_eq_if_modifyHead] at h
      obtain ⟨first, rest, hsplit⟩ := List.exists_cons_of_ne_nil (List.splitOn_ne_nil x l)
      rw [hsplit] at h ih
      split at h
      · rcases List.mem_cons.mp h with rfl | hmem
        · exact List.not_mem_nil
        · exact ih hmem
      · rename_i hxy
        rw [List.modifyHead_cons] at h
        rcases List.mem_cons.mp h with rfl | hmem
        · have hne : x ≠ y := by
            rintro rfl
            exact hxy BEq.rfl
          exact List.not_mem_cons_of_ne_of_not_mem hne (ih List.mem_cons_self)
        · exact ih (List.mem_cons_of_mem first hmem)

/-- Lists put together fall apart into themselves if the separator is in none of them. -/
theorem splitOn_intercalate_eq_iff {pieces : List (List α)} (hne : pieces ≠ []) :
    ([x].intercalate pieces).splitOn x = pieces ↔ ∀ piece ∈ pieces, x ∉ piece := by
  constructor
  · intro h piece hpiece
    rw [← h] at hpiece
    exact not_mem_of_mem_splitOn hpiece
  · intro h
    exact List.splitOn_intercalate x h hne

end

@[simp]
theorem cut_nil : ¬ Cut [] := by
  rintro ⟨s, hs, -⟩
  cases hs

@[simp]
theorem cut_cons {s : String} {texts : List String} : Cut (s :: texts) ↔ '&' ∈ s.toList ∨ Cut texts := by
  simp [Cut]

@[simp]
theorem cut_append {as bs : List String} : Cut (as ++ bs) ↔ Cut as ∨ Cut bs := by
  simp [Cut, or_and_right, exists_or]

theorem cut_map {α : Type} {f : α → String} {l : List α} : Cut (l.map f) ↔ ∃ a ∈ l, '&' ∈ (f a).toList := by
  simp [Cut]

theorem cut_flatMap {α : Type} {f : α → List String} {l : List α} :
    Cut (l.flatMap f) ↔ ∃ a ∈ l, Cut (f a) := by
  simp only [Cut, List.mem_flatMap]
  constructor
  · rintro ⟨s, ⟨a, ha, hs⟩, h⟩
    exact ⟨a, ha, s, hs, h⟩
  · rintro ⟨a, ha, s, hs, h⟩
    exact ⟨s, ⟨a, ha, hs⟩, h⟩

end Text

/-! ### The filter -/

theorem Operator.not_cut (op : Operator) : '&' ∉ op.text.toList := by
  cases op <;> decide

theorem StringFunction.not_cut (f : StringFunction) : '&' ∉ f.text.toList := by
  cases f <;> decide

theorem Binary64.not_cut (x : Binary64) : '&' ∉ x.toText.toList := by
  rw [Binary64.toText, String.toList_ofList]
  exact (Number.figures_text x).not_mem (by decide)

theorem Instant.not_cut (t : Instant) : '&' ∉ t.text := t.figures_text.not_mem (by decide)

theorem cut_lookupField {name : String} : '&' ∈ (lookupField name).toList ↔ '&' ∈ name.toList := by
  simp [lookupField]

namespace Condition

/-- A comparison is cut where its name is or what is left of the value. -/
theorem cut_operands {name raw field : String} {value : Literal} {type : AttributeType}
    (h : operands policy name raw type = .ok (field, value)) :
    '&' ∈ field.toList ∨ '&' ∈ value.render.toList ↔ Cut (name :: type.shown raw) := by
  rw [cut_cons]
  have hquote : '&' ∈ (quote raw).toList ↔ '&' ∈ raw.toList := mem_quote (by decide)
  cases operand_of_ok h with
  | boolean => simp [AttributeType.shown, Literal.render, mem_lower (a := '&') (by decide) (by decide)]
  | lookup => simp [AttributeType.shown, Literal.render, cut_lookupField]
  | string | unknown => simp [AttributeType.shown, Literal.render, hquote]
  | number => simp [AttributeType.shown, Literal.render, Binary64.not_cut]
  | @date t ht => simp [AttributeType.shown, Literal.render, t.not_cut]
  | code hnan => simp [AttributeType.shown, Literal.render, hnan, Binary64.not_cut]
  | label hnan => simp [AttributeType.shown, Literal.render, hnan, hquote]

theorem cut_expression {c : Condition} {e : Expression} (h : c.expression? known policy = some e) :
    '&' ∈ e.render.toList ↔ Cut (c.shown known) := by
  cases form_of_expression? h with
  | nullTest hnull => simp [shown, hnull, Expression.render, Operator.not_cut]
  | @function f negated hf htype =>
      have hnull : c.operator.isNullTest = false :=
        Operator.not_isNullTest_of_function (Option.isSome_of_eq_some hf)
      have hnot : '&' ∉ (if negated then "not " else "").toList := by cases negated <;> decide
      have hquote : '&' ∈ (quote (c.value.getD "")).toList ↔ '&' ∈ (c.value.getD "").toList :=
        mem_quote (by decide)
      simp only [shown, hnull, htype, AttributeType.shown, Expression.render]
      simp [hnot, hquote, f.not_cut]
  | @comparison field value hnull hf hvalue =>
      have hshown : c.shown known =
          c.name :: (AttributeMap.typeOf known c.name (c.value.getD "")).shown (c.value.getD "") := by
        simp [shown, hnull]
      rw [hshown, ← cut_operands hvalue]
      simp [Expression.render, Operator.not_cut]

end Condition

theorem Expression.cut_groupText {kind : GroupKind} {texts : List String} :
    '&' ∈ (groupText kind texts).toList ↔ Cut texts := by
  have hand : '&' ∈ (join " and " texts).toList ↔ Cut texts := mem_join (by decide)
  have hor : '&' ∈ (join " or " texts).toList ↔ Cut texts := mem_join (by decide)
  cases kind with
  | not => simpa [groupText] using hand
  | and =>
      rcases texts with _ | ⟨s, _ | ⟨s', texts⟩⟩
      · simp [groupText, join]
      · simp [groupText]
      · simpa [groupText] using hand
  | or =>
      rcases texts with _ | ⟨s, _ | ⟨s', texts⟩⟩
      · simp [groupText, join]
      · simp [groupText]
      · simpa [groupText] using hor

theorem Expression.cut_renderRest {rest : List (Join × Expression)} :
    '&' ∈ (renderRest rest).toList ↔ ∃ p ∈ rest, '&' ∈ p.2.render.toList := by
  induction rest with
  | nil => simp [renderRest]
  | cons p rest ih =>
      obtain ⟨j, e⟩ := p
      have hjoin : '&' ∉ j.text.toList := by cases j <;> decide
      rw [renderRest]
      simp [hjoin, ih]

theorem KeptGroup.cut_expression {g : KeptGroup} (compiled : ∀ k ∈ g.conditions, k.Compiled known policy) :
    '&' ∈ g.expression.render.toList ↔ Cut (g.conditions.flatMap (·.condition.shown known)) := by
  rw [render_expression, Expression.cut_groupText, cut_map, cut_flatMap]
  exact exists_congr fun k => and_congr_right fun hk => Condition.cut_expression (compiled k hk)

namespace Query

variable {q : Query}

/-- The filter is cut where a condition is that was not dropped. -/
theorem cut_filter :
    (∃ e ∈ q.filter? policy, '&' ∈ e.render.toList) ↔
      Cut ((q.kept policy).flatMap (·.condition.shown q.known)) := by
  cases hfilter : q.filter? policy with
  | none =>
      rw [filter?_eq_none_iff.mp hfilter]
      simp
  | some e =>
      obtain ⟨g, rest, hgroups, hrender⟩ := render_filter hfilter
      have hgroup : ∀ g' ∈ g :: rest, ('&' ∈ g'.expression.render.toList ↔
          Cut (g'.conditions.flatMap (·.condition.shown q.known))) :=
        fun g' hg' => KeptGroup.cut_expression (compiled_of_mem (hgroups ▸ hg'))
      calc (∃ e' ∈ some e, '&' ∈ e'.render.toList)
          ↔ '&' ∈ g.expression.render.toList ∨ ∃ g' ∈ rest, '&' ∈ g'.expression.render.toList := by
            simp [hrender, Expression.cut_renderRest]
        _ ↔ ∃ g' ∈ g :: rest, '&' ∈ g'.expression.render.toList := by simp
        _ ↔ ∃ g' ∈ g :: rest, Cut (g'.conditions.flatMap (·.condition.shown q.known)) :=
            exists_congr fun g' => and_congr_right (hgroup g')
        _ ↔ Cut ((q.kept policy).flatMap (·.condition.shown q.known)) := by
            rw [kept_eq, hgroups, List.flatMap_assoc, cut_flatMap]

/-! ### The parameters -/

theorem parameters_eq :
    q.parameters policy = (q.clauses policy).filterMap fun (head, body?) => body?.map (head ++ ·) := by
  rw [parameters, clauses]
  cases q.filter? policy <;> rfl

end Query

/-- Bodies put after their heads begin with the heads. -/
theorem forall₂_heads {clauses : List (String × Option String)} :
    ∃ heads : List String, heads.Sublist (clauses.map Prod.fst) ∧
      List.Forall₂ (fun head piece => head.toList <+: piece) heads
        ((clauses.filterMap fun (head, body?) => body?.map (head ++ ·)).map String.toList) := by
  induction clauses with
  | nil => exact ⟨[], .slnil, .nil⟩
  | cons clause clauses ih =>
      obtain ⟨heads, hsublist, hprefix⟩ := ih
      obtain ⟨head, _ | body⟩ := clause
      · exact ⟨heads, hsublist.cons head, hprefix⟩
      · refine ⟨head :: heads, hsublist.cons_cons head, .cons ?_ hprefix⟩
        rw [String.toList_append]
        exact List.prefix_append _ _

theorem cut_clauses {clauses : List (String × Option String)} (hheads : ¬ Cut (clauses.map Prod.fst)) :
    Cut (clauses.filterMap fun (head, body?) => body?.map (head ++ ·)) ↔
      ∃ clause ∈ clauses, ∃ body ∈ clause.2, '&' ∈ body.toList := by
  induction clauses with
  | nil => simp
  | cons clause clauses ih =>
      rw [List.map_cons, cut_cons, not_or] at hheads
      obtain ⟨head, _ | body⟩ := clause
      · simpa using ih hheads.2
      · simpa [hheads.1] using or_congr_right (ih hheads.2)

theorem Headed.head?_eq {pieces : List (List Char)} (h : Headed pieces) {piece : List Char}
    (hpiece : piece ∈ pieces) : piece.head? = some '$' := by
  obtain ⟨heads, hsublist, hprefix⟩ := h
  have hall : ∀ head ∈ parameterHeads, head.toList.head? = some '$' := by decide
  have hheads : ∀ head ∈ heads, head.toList.head? = some '$' := fun head hhead => hall head (hsublist.subset hhead)
  clear hsublist
  induction hprefix with
  | nil => cases hpiece
  | @cons head first _ _ hfirst _ ih =>
      rcases List.mem_cons.mp hpiece with rfl | hmem
      · obtain ⟨body, rfl⟩ := hfirst
        rw [List.head?_append, hheads head List.mem_cons_self]
        rfl
      · exact ih hmem fun head' hhead' => hheads head' (List.mem_cons_of_mem head hhead')

namespace Query

variable {q : Query}

theorem headed_parameters : Headed ((q.parameters policy).map String.toList) := by
  have hheads : (q.clauses policy).map Prod.fst = parameterHeads := rfl
  rw [parameters_eq, Headed, ← hheads]
  exact forall₂_heads

theorem parameters_eq_nil_iff : q.parameters policy = [] ↔ q.Silent policy := by
  have hlimit : q.top.filter (· ≠ 0) = none ↔ ∀ n ∈ q.top, n = 0 := by
    simp [Option.filter_eq_none_iff]
  have horder : q.orderAttribute.filter (· ≠ "") = none ↔ ∀ name ∈ q.orderAttribute, name = "" := by
    simp [Option.filter_eq_none_iff]
  rw [parameters_eq, List.filterMap_eq_nil_iff]
  simp only [clauses, List.mem_cons, List.not_mem_nil, or_false, forall_eq_or_imp, forall_eq,
    Option.map_eq_none_iff, filter?_eq_none_iff, hlimit, horder]
  constructor
  · rintro ⟨hselect, hfilter, htop, horderBy⟩
    exact ⟨by simpa using hselect, hfilter, htop, horderBy⟩
  · rintro ⟨hselect, hfilter, htop, horderBy⟩
    exact ⟨by simpa using hselect, hfilter, htop, horderBy⟩

/-- A column's field is cut where the column is. -/
theorem cut_columnField {column : String} : '&' ∈ (columnField q.known column).toList ↔ '&' ∈ column.toList := by
  rw [columnField]
  split
  · split
    · exact cut_lookupField
    · rfl
  · rfl

theorem cut_fields : Cut q.fields ↔ Cut q.columns := by
  rw [fields, cut_map]
  exact exists_congr fun column => and_congr_right fun _ => cut_columnField

theorem cut_parameters : Cut (q.parameters policy) ↔ Cut (q.shown policy) := by
  have hselect : (∃ body ∈ if q.columns = [] then none else some (join "," q.fields), '&' ∈ body.toList) ↔
      Cut q.columns := by
    have hjoin : '&' ∈ (join "," q.fields).toList ↔ Cut q.fields := mem_join (by decide)
    rw [cut_fields] at hjoin
    split
    · rename_i hnil
      simp [hnil]
    · simp [hjoin]
  have hfilter : (∃ body ∈ (q.filter? policy).map (·.render), '&' ∈ body.toList) ↔
      Cut ((q.kept policy).flatMap (·.condition.shown q.known)) := by
    rw [← cut_filter]
    cases q.filter? policy <;> simp
  have hlimit : ¬ ∃ body ∈ (q.top.filter (· ≠ 0)).map fun n => decimal n.toNat, '&' ∈ body.toList := by
    rintro ⟨body, hbody, hmem⟩
    obtain ⟨n, -, rfl⟩ := Option.map_eq_some_iff.mp hbody
    rw [decimal, String.toList_ofList] at hmem
    exact (figures_digits n.toNat).not_mem (by decide) hmem
  have horder : (∃ body ∈ (q.orderAttribute.filter (· ≠ "")).map fun name =>
      name ++ " " ++ (q.orderDirection.getD .asc).text, '&' ∈ body.toList) ↔ Cut q.orderAttribute.toList := by
    have hdirection : '&' ∉ (q.orderDirection.getD .asc).text.toList := by
      cases q.orderDirection.getD .asc <;> decide
    cases q.orderAttribute with
    | none => simp
    | some name =>
        by_cases hname : name = ""
        · simp [hname]
        · simp [hname, hdirection, Option.filter]
  rw [parameters_eq, cut_clauses (by simp [clauses]), shown, cut_append, cut_append, ← hselect, ← hfilter, ← horder]
  simp only [clauses, List.mem_cons, List.not_mem_nil, or_false, exists_eq_or_imp, exists_eq_left]
  rw [or_iff_right hlimit, or_assoc]

end Query

/-- The text of a query that asks for nothing in particular is empty. Any other is put together from parameters
after a question mark. Each parameter begins with its head, the heads are in order and none comes twice. The text
falls apart into them at every `&` if, and only if, no text brought into it has an `&`. -/
theorem Query.parameters_intact (q : Query) (policy : NanPolicy) :
    q.Silent policy ∧ (q.compile policy).text = "" ∨
      ¬ q.Silent policy ∧ ∃ pieces : List (List Char), pieces ≠ [] ∧ Headed pieces ∧ [] ∉ pieces ∧
        (q.compile policy).text.toList = '?' :: ['&'].intercalate pieces ∧
        ((['&'].intercalate pieces).splitOn '&' = pieces ↔ ∀ s ∈ q.shown policy, '&' ∉ s.toList) := by
  rw [← parameters_eq_nil_iff]
  by_cases hnone : q.parameters policy = []
  · exact Or.inl ⟨hnone, if_pos hnone⟩
  · have htext : (q.compile policy).text = "?" ++ join "&" (q.parameters policy) := if_neg hnone
    have hne : (q.parameters policy).map String.toList ≠ [] := by simpa using hnone
    have hheaded : Headed ((q.parameters policy).map String.toList) := headed_parameters
    have hpieces : (∀ piece ∈ (q.parameters policy).map String.toList, '&' ∉ piece) ↔
        ¬ Cut (q.parameters policy) := by
      simp [Cut]
    refine Or.inr ⟨hnone, (q.parameters policy).map String.toList, hne, hheaded, ?_, ?_, ?_⟩
    · intro hempty
      cases hheaded.head?_eq hempty
    · rw [htext, String.toList_append, toList_join]
      rfl
    · rw [splitOn_intercalate_eq_iff hne, hpieces, cut_parameters]
      simp [Cut]

/-- A value with an `&` breaks the filter in two, and the second piece is no parameter. -/
theorem Query.parameters_not_intact :
    let q : Query := { groups := [{ conditions := [⟨"name", .eq, some "R&D"⟩] }] }
    ¬ ((q.compile .emit).text = "" ∨
      ∃ rest : List Char, (q.compile .emit).text.toList = '?' :: rest ∧
        Headed (rest.splitOn '&') ∧ [] ∉ rest.splitOn '&') := by
  intro q
  have htext : (q.compile .emit).text = "?$filter=name eq 'R&D'" := by decide +kernel
  rw [htext]
  rintro (hempty | ⟨rest, hrest, hheaded, -⟩)
  · exact absurd hempty (by decide)
  · cases hrest
    have hpiece : ['D', '\''] ∈ "$filter=name eq 'R&D'".toList.splitOn '&' := by decide +kernel
    cases hheaded.head?_eq hpiece

end ODataQuery
