import ODataQuery.Query.Compiled

/-!
The conditions of a query that have a written form, with the places where they stand, and the groups that
are left of the query's groups when all others are dropped. The filter is made of them alone.
-/

namespace ODataQuery

/-- A condition with a written form: the positions of its group and in its group, and its expression. -/
structure Kept where
  group : Nat
  position : Nat
  condition : Condition
  expression : Expression

/-- A condition's expression is what the condition is compiled to. -/
def Kept.Compiled (known : Option AttributeMap) (policy : NanPolicy) (k : Kept) : Prop :=
  k.condition.expression? known policy = some k.expression

/-- What is left of a group. Groups of which nothing is left are left out. -/
structure KeptGroup where
  kind : GroupKind
  join : Join
  first : Kept
  others : List Kept

namespace KeptGroup

def conditions (g : KeptGroup) : List Kept := g.first :: g.others

def expression (g : KeptGroup) : Expression := .group g.kind (g.conditions.map (·.expression))

end KeptGroup

namespace Group

variable (known : Option AttributeMap) (policy : NanPolicy) (g : Group)

/-- The kept conditions of the group at a position. -/
def kept (i : Nat) : List Kept :=
  g.conditions.zipIdx.filterMap fun (c, j) => (c.expression? known policy).map (⟨i, j, c, ·⟩)

def keptGroup? (i : Nat) : Option KeptGroup :=
  match g.kept known policy i with
  | [] => none
  | k :: ks => some ⟨g.kind, g.join.getD .and, k, ks⟩

end Group

namespace Query

variable (q : Query) (policy : NanPolicy)

def keptGroups : List KeptGroup := q.groups.zipIdx.filterMap fun (g, i) => g.keptGroup? q.known policy i

/-- The kept conditions of all groups, in order. -/
def kept : List Kept := q.groups.zipIdx.flatMap fun (g, i) => g.kept q.known policy i

end Query

variable {known : Option AttributeMap} {policy : NanPolicy}

/-- A comparison is neither a test for null nor a function on strings. -/
structure Operator.Compares (op : Operator) : Prop where
  no_null_test : op.isNullTest = false
  no_function : op.stringFunction? = none

instance (op : Operator) : Decidable op.Compares :=
  decidable_of_iff (op.isNullTest = false ∧ op.stringFunction? = none)
    ⟨fun ⟨h, h'⟩ => ⟨h, h'⟩, fun ⟨h, h'⟩ => ⟨h, h'⟩⟩

theorem Operator.not_isNullTest_of_function {op : Operator} (h : op.stringFunction?.isSome) :
    op.isNullTest = false := by
  cases op with
  | eqNull | neNull => cases h
  | _ => rfl

namespace Condition

section

variable {c : Condition}

theorem compile_nullTest (hnull : c.operator.isNullTest = true) :
    c.compile known policy = .ok (.nullTest c.name c.operator) :=
  if_pos hnull

theorem compile_function {f : StringFunction} {negated : Bool}
    (hf : c.operator.stringFunction? = some (f, negated)) :
    c.compile known policy =
      if AttributeMap.typeOf known c.name (c.value.getD "") = .string then
        .ok (.function f c.name (c.value.getD "") negated)
      else .error (.functionOnNonString (AttributeMap.typeOf known c.name (c.value.getD ""))) := by
  have hnull : c.operator.isNullTest = false := Operator.not_isNullTest_of_function (Option.isSome_of_eq_some hf)
  rw [compile, hnull, if_neg Bool.false_ne_true, hf]

theorem compile_comparison (hop : c.operator.Compares) :
    c.compile known policy =
      (operands policy c.name (c.value.getD "") (AttributeMap.typeOf known c.name (c.value.getD ""))).map
        fun (field, value) => .comparison field c.operator value := by
  rw [compile, hop.no_null_test, if_neg Bool.false_ne_true, hop.no_function]

theorem expression?_eq_some_iff {e : Expression} :
    c.expression? known policy = some e ↔ c.compile known policy = .ok e := by
  rw [expression?]
  cases c.compile known policy <;> simp [Except.toOption]

end

/-- What a comparison is written with, by the type of the attribute. -/
inductive Operand (name raw : String) : AttributeType → String → Literal → Prop where
  | boolean : Operand name raw .boolean name (.raw (Text.lower raw))
  | lookup : Operand name raw .lookup (lookupField name) (.raw raw)
  | string : Operand name raw .string name (.text raw)
  | unknown : Operand name raw .unknown name (.text raw)
  | number : Operand name raw .number name (.number (Number.ofText raw))
  | date {t} (ht : Instant.ofText? raw = some t) : Operand name raw .date name (.instant t)
  | code (hnan : (Number.ofText raw).isNaN = false) :
      Operand name raw .optionset name (.number (Number.ofText raw))
  | label (hnan : (Number.ofText raw).isNaN = true) : Operand name raw .optionset name (.text raw)

theorem operand_of_ok {name raw field : String} {value : Literal} {type : AttributeType}
    (h : operands policy name raw type = .ok (field, value)) : Operand name raw type field value := by
  cases type with
  | boolean =>
      cases h
      exact .boolean
  | lookup =>
      cases h
      exact .lookup
  | string =>
      cases h
      exact .string
  | unknown =>
      cases h
      exact .unknown
  | number =>
      rw [operands] at h
      split at h
      · cases h
      · cases h
        exact .number
  | date =>
      rw [operands] at h
      split at h
      · rename_i t ht
        cases h
        exact .date ht
      · cases h
  | optionset =>
      cases h
      cases hnan : (Number.ofText raw).isNaN with
      | true => exact .label hnan
      | false => exact .code hnan

/-- What a condition may be compiled to. -/
inductive Form (known : Option AttributeMap) (policy : NanPolicy) (c : Condition) : Expression → Prop where
  | nullTest (hnull : c.operator.isNullTest = true) : Form known policy c (.nullTest c.name c.operator)
  | function {f negated} (hf : c.operator.stringFunction? = some (f, negated))
      (htype : AttributeMap.typeOf known c.name (c.value.getD "") = .string) :
      Form known policy c (.function f c.name (c.value.getD "") negated)
  | comparison {field value} (hnull : c.operator.isNullTest = false)
      (hf : c.operator.stringFunction? = none)
      (hvalue : operands policy c.name (c.value.getD "")
        (AttributeMap.typeOf known c.name (c.value.getD "")) = .ok (field, value)) :
      Form known policy c (.comparison field c.operator value)

theorem form_of_expression? {c : Condition} {e : Expression} (h : c.expression? known policy = some e) :
    Form known policy c e := by
  have hcompile : c.compile known policy = .ok e := expression?_eq_some_iff.mp h
  cases hnull : c.operator.isNullTest with
  | true =>
      rw [compile_nullTest hnull] at hcompile
      cases hcompile
      exact .nullTest hnull
  | false =>
      cases hf : c.operator.stringFunction? with
      | some p =>
          obtain ⟨f, negated⟩ := p
          rw [compile_function hf] at hcompile
          split at hcompile
          · rename_i htype
            cases hcompile
            exact .function hf htype
          · cases hcompile
      | none =>
          rw [compile_comparison ⟨hnull, hf⟩] at hcompile
          cases hvalue : operands policy c.name (c.value.getD "")
              (AttributeMap.typeOf known c.name (c.value.getD "")) with
          | error reason =>
              rw [hvalue] at hcompile
              cases hcompile
          | ok p =>
              rw [hvalue] at hcompile
              cases hcompile
              exact .comparison hnull hf hvalue

end Condition

theorem filterMap_zipIdx {α β : Type} {f : α → Option β} {l : List α} {i : Nat} :
    ((l.zipIdx i).filterMap fun p => f p.1) = l.filterMap f :=
  List.filterMap_map.symm.trans (congrArg (List.filterMap f) (List.zipIdx_map_fst i l))

theorem pairwise_zipIdx {α : Type} {l : List α} : l.zipIdx.Pairwise fun a b => a.2 < b.2 := by
  have hrange : (l.zipIdx.map Prod.snd).Pairwise (· < ·) := by
    rw [List.zipIdx_map_snd]
    exact List.pairwise_lt_range'
  exact List.pairwise_map.mp hrange

namespace Group

variable {g : Group} {i : Nat}

theorem kept_expressions :
    (g.kept known policy i).map (·.expression) = g.conditions.filterMap (·.expression? known policy) := by
  rw [kept, List.map_filterMap, ← filterMap_zipIdx (i := 0) (l := g.conditions)]
  congr 1
  funext ⟨c, j⟩
  exact Option.map_map ..|>.trans Option.map_id'

theorem keptGroup?_conditions :
    ((g.keptGroup? known policy i).map (·.conditions)).getD [] = g.kept known policy i := by
  rw [keptGroup?]
  cases g.kept known policy i with
  | nil => rfl
  | cons k ks => rfl

theorem expression?_eq :
    g.expression? known policy = (g.keptGroup? known policy i).map fun k => (k.join, k.expression) := by
  rw [expression?, ← kept_expressions (i := i), keptGroup?]
  cases g.kept known policy i with
  | nil => rfl
  | cons k ks => rfl

theorem mem_kept {k : Kept} :
    k ∈ g.kept known policy i ↔ k.group = i ∧ g.conditions[k.position]? = some k.condition ∧
      k.Compiled known policy := by
  simp only [kept, List.mem_filterMap, Prod.exists, List.mem_zipIdx_iff_getElem?, Option.map_eq_some_iff,
    Kept.Compiled]
  constructor
  · rintro ⟨c, j, hc, e, he, rfl⟩
    exact ⟨rfl, hc, he⟩
  · rintro ⟨rfl, hc, he⟩
    exact ⟨_, _, hc, _, he, rfl⟩

end Group

theorem Expression.renderAll_eq (es : List Expression) : renderAll es = es.map render := by
  induction es with
  | nil => rfl
  | cons e es ih => rw [renderAll, ih, List.map_cons]

/-- The text of a group, put together from the texts of its conditions. -/
theorem KeptGroup.render_expression (g : KeptGroup) :
    g.expression.render = Expression.groupText g.kind (g.conditions.map (·.expression.render)) := by
  rw [expression, Expression.render, Expression.renderAll_eq, List.map_map]
  rfl

namespace Query

variable {q : Query}

theorem filter?_eq :
    q.filter? policy = Expression.ofGroups? ((q.keptGroups policy).map fun g => (g.join, g.expression)) := by
  rw [filter?, keptGroups, List.map_filterMap, ← filterMap_zipIdx (i := 0)]
  congr 2
  funext ⟨g, i⟩
  exact Group.expression?_eq

theorem kept_eq : q.kept policy = (q.keptGroups policy).flatMap (·.conditions) := by
  rw [kept, keptGroups]
  induction q.groups.zipIdx with
  | nil => rfl
  | cons p rest ih =>
      obtain ⟨g, i⟩ := p
      rw [List.flatMap_cons, ih, List.filterMap_cons]
      change g.kept q.known policy i ++ _ = _
      rw [← Group.keptGroup?_conditions]
      cases h : g.keptGroup? q.known policy i with
      | none => simp only [h, Option.map_none, Option.getD_none, List.nil_append]
      | some k => simp only [h, Option.map_some, Option.getD_some, List.flatMap_cons]

/-- There is no filter if no condition is kept. -/
theorem filter?_eq_none_iff : q.filter? policy = none ↔ q.kept policy = [] := by
  rw [filter?_eq, kept_eq]
  rcases q.keptGroups policy with _ | ⟨g, _ | ⟨g', rest⟩⟩
  · simp [Expression.ofGroups?]
  · simp [Expression.ofGroups?, KeptGroup.conditions]
  · simp [Expression.ofGroups?, KeptGroup.conditions]

/-- A kept condition stands where it says, and its expression is what it is compiled to. -/
theorem mem_kept {k : Kept} :
    k ∈ q.kept policy ↔ ∃ g, q.groups[k.group]? = some g ∧ g.conditions[k.position]? = some k.condition ∧
      k.Compiled q.known policy := by
  simp only [kept, List.mem_flatMap, Prod.exists, List.mem_zipIdx_iff_getElem?, Group.mem_kept]
  constructor
  · rintro ⟨g, i, hg, rfl, hc, he⟩
    exact ⟨g, hg, hc, he⟩
  · rintro ⟨g, hg, hc, he⟩
    exact ⟨g, k.group, hg, rfl, hc, he⟩

theorem compiled_of_mem {g : KeptGroup} (hg : g ∈ q.keptGroups policy) :
    ∀ k ∈ g.conditions, k.Compiled q.known policy := by
  intro k hk
  have hmem : k ∈ q.kept policy := by
    rw [kept_eq]
    exact List.mem_flatMap.mpr ⟨g, hg, hk⟩
  obtain ⟨g', -, -, he⟩ := mem_kept.mp hmem
  exact he

/-- The text of the filter: the first group, and the others with their joins. -/
theorem render_filter {e : Expression} (h : q.filter? policy = some e) :
    ∃ g rest, q.keptGroups policy = g :: rest ∧
      e.render = g.expression.render ++ Expression.renderRest (rest.map fun g => (g.join, g.expression)) := by
  rw [filter?_eq] at h
  cases hgroups : q.keptGroups policy with
  | nil =>
      rw [hgroups] at h
      cases h
  | cons g rest =>
      rw [hgroups] at h
      refine ⟨g, rest, rfl, ?_⟩
      cases rest with
      | nil =>
          cases h
          exact String.append_empty.symm
      | cons g' rest =>
          cases h
          rfl

/-- The query with other groups. -/
def withGroups (q : Query) (groups : List Group) : Query := { q with groups }

section

variable {groups groups' : List Group}

theorem filter?_withGroups : (q.withGroups groups).filter? policy =
    Expression.ofGroups? (groups.filterMap (·.expression? q.known policy)) := rfl

/-- The query text depends on the groups through the filter alone. -/
theorem text_eq_of_filter?_eq {policy' : NanPolicy}
    (h : (q.withGroups groups).filter? policy = (q.withGroups groups').filter? policy') :
    ((q.withGroups groups).compile policy).text = ((q.withGroups groups').compile policy').text := by
  have hparameters : (q.withGroups groups).parameters policy = (q.withGroups groups').parameters policy' := by
    rw [parameters, parameters, h]
    rfl
  rw [compile, compile, hparameters]

end

end Query

end ODataQuery
