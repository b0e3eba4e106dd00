import Mathlib.Data.List.Basic
import ODataQuery.Proofs.Filter.Kept

/-!
Filters put one behind the other. The filter of two lists of groups is that of the first, a join, and that of the
second; the join is that of the first group of the second list of which something is left. What the groups say
besides, the join of the first group that is left and everything of a group of which nothing is left, is not in
the text. The dropped conditions are those of both, the groups of the second counted on from the first.
-/

namespace ODataQuery

/-- Something is left of the group when conditions without a written form are dropped. -/
def Group.isKept (known : Option AttributeMap) (policy : NanPolicy) (g : Group) : Bool :=
  g.conditions.any fun c => (c.expression? known policy).isSome

/-- The same report on a query with more groups in front. -/
def Dropped.behind (groups : Nat) (d : Dropped) : Dropped := { d with group := d.group + groups }

/-- Two filter texts with a join between them. Where there is one only, it stands alone. -/
def Join.between (join : Join) : Option String → Option String → Option String
  | none, text? => text?
  | text?, none => text?
  | some text, some text' => some (text ++ " " ++ join.text ++ " " ++ text')

namespace Query

/-- The text of the filter, if there is one. -/
def filterText? (q : Query) (policy : NanPolicy) : Option String := (q.filter? policy).map (·.render)

/-- The join of the first group of which something is left. -/
def firstJoin (q : Query) (policy : NanPolicy) : Join :=
  ((q.groups.find? (·.isKept q.known policy)).bind (·.join)).getD .and

end Query

namespace Expression

/-- The join in front of a chain, of which its own text says nothing. -/
def headJoin : List (Join × Expression) → Join
  | [] => .and
  | (j, _) :: _ => j

variable {es es' : List (Join × Expression)}

/-- The text of a chain: its first group, and the others with their joins. -/
theorem render_ofGroups?_cons {j : Join} {e : Expression} :
    (ofGroups? ((j, e) :: es)).map (·.render) = some (e.render ++ renderRest es) := by
  cases es with
  | nil => exact congrArg some String.append_empty.symm
  | cons p es => rfl

/-- What stands in front of a chain's first group is not used. -/
theorem ofGroups?_cons_congr {p p' : Join × Expression} (h : p.2 = p'.2) :
    ofGroups? (p :: es) = ofGroups? (p' :: es) := by
  obtain ⟨j, e⟩ := p
  obtain ⟨j', e'⟩ := p'
  obtain rfl : e = e' := h
  cases es <;> rfl

theorem renderRest_append : renderRest (es ++ es') = renderRest es ++ renderRest es' := by
  induction es with
  | nil => exact String.empty_append.symm
  | cons p es ih =>
      obtain ⟨j, e⟩ := p
      rw [List.cons_append, renderRest, renderRest, ih]
      simp only [String.append_assoc]

/-- The text of two chains, the one behind the other. -/
theorem render_ofGroups?_append :
    (ofGroups? (es ++ es')).map (·.render) =
      (headJoin es').between ((ofGroups? es).map (·.render)) ((ofGroups? es').map (·.render)) := by
  cases es with
  | nil => rfl
  | cons p es =>
      obtain ⟨j, e⟩ := p
      cases es' with
      | nil =>
          rw [List.append_nil, render_ofGroups?_cons]
          rfl
      | cons p' es' =>
          obtain ⟨j', e'⟩ := p'
          rw [List.cons_append, render_ofGroups?_cons, render_ofGroups?_cons, render_ofGroups?_cons,
            renderRest_append, renderRest]
          simp only [headJoin, Join.between, String.append_assoc]

end Expression

variable {known : Option AttributeMap} {policy : NanPolicy}

namespace Group

variable {g : Group}

theorem expression?_eq_none_iff : g.expression? known policy = none ↔ g.isKept known policy = false := by
  have hgroup : g.expression? known policy = none ↔ g.conditions.filterMap (·.expression? known policy) = [] := by
    rw [expression?, Option.map_eq_none_iff, Expression.ofGroup?]
    simp only [List.isEmpty_iff, ite_eq_left_iff, reduceCtorEq, imp_false, not_not]
  rw [hgroup, List.filterMap_eq_nil_iff, isKept, List.any_eq_false]
  simp only [Option.isSome_iff_ne_none, ne_eq, not_not]

theorem isKept_eq : g.isKept known policy = (g.expression? known policy).isSome := by
  cases hkept : g.isKept known policy with
  | false =>
      rw [expression?_eq_none_iff.mpr hkept]
      rfl
  | true =>
      symm
      apply Option.isSome_iff_ne_none.mpr
      intro hnone
      exact Bool.false_ne_true ((expression?_eq_none_iff.mp hnone).symm.trans hkept)

theorem join_of_expression? {p : Join × Expression} (h : g.expression? known policy = some p) :
    p.1 = g.join.getD .and := by
  rw [expression?] at h
  obtain ⟨e, -, rfl⟩ := Option.map_eq_some_iff.mp h
  rfl

theorem expression?_withJoin {join : Option Join} :
    ({ g with join } : Group).expression? known policy =
      (g.expression? known policy).map fun p => (join.getD .and, p.2) := by
  rw [expression?, expression?, Option.map_map]
  rfl

theorem dropped_behind {i n : Nat} : g.dropped known policy (i + n) = (g.dropped known policy i).map (·.behind n) := by
  rw [dropped, dropped, List.map_filterMap]
  simp only [Option.map_map]
  rfl

end Group

namespace Query

variable {q : Query} {groups groups' : List Group}

theorem headJoin_eq :
    Expression.headJoin (groups.filterMap (·.expression? q.known policy)) = (q.withGroups groups).firstJoin policy := by
  change _ = ((groups.find? (·.isKept q.known policy)).bind (·.join)).getD .and
  induction groups with
  | nil => rfl
  | cons g groups ih =>
      cases he : g.expression? q.known policy with
      | none =>
          rw [List.filterMap_cons_none he, List.find?_cons_of_neg (by rw [Group.isKept_eq, he]; simp), ih]
      | some p =>
          rw [List.filterMap_cons_some he, List.find?_cons_of_pos (by rw [Group.isKept_eq, he]; rfl)]
          exact Group.join_of_expression? he

theorem filterText?_append :
    (q.withGroups (groups ++ groups')).filterText? policy = ((q.withGroups groups').firstJoin policy).between
      ((q.withGroups groups).filterText? policy) ((q.withGroups groups').filterText? policy) := by
  rw [filterText?, filter?_withGroups, List.filterMap_append, Expression.render_ofGroups?_append, headJoin_eq]
  rfl

theorem dropped_append :
    (q.withGroups (groups ++ groups')).dropped policy = (q.withGroups groups).dropped policy ++
      ((q.withGroups groups').dropped policy).map (·.behind groups.length) := by
  have hbehind : (groups'.zipIdx groups.length).flatMap (fun p => p.1.dropped q.known policy p.2) =
      (groups'.zipIdx.flatMap fun p => p.1.dropped q.known policy p.2).map (·.behind groups.length) := by
    rw [List.zipIdx_eq_map_add, List.flatMap_map, List.map_flatMap]
    congr 1
    funext ⟨g, i⟩
    change g.dropped q.known policy (groups.length + i) = _
    rw [Nat.add_comm]
    exact Group.dropped_behind
  change ((groups ++ groups').zipIdx.flatMap fun p => p.1.dropped q.known policy p.2) = _
  rw [List.zipIdx_append, List.flatMap_append, Nat.zero_add, hbehind]
  rfl

theorem filterText?_eq_none_iff : (q.withGroups groups).filterText? policy = none ↔
    ∀ g ∈ groups, g.isKept q.known policy = false := by
  have hnil : (q.withGroups groups).filterText? policy = none ↔
      groups.filterMap (·.expression? q.known policy) = [] := by
    rw [filterText?, filter?_withGroups]
    cases groups.filterMap (·.expression? q.known policy) with
    | nil => simp [Expression.ofGroups?]
    | cons p es => simp [Expression.render_ofGroups?_cons (j := p.1) (e := p.2)]
  simp only [hnil, List.filterMap_eq_nil_iff, Group.expression?_eq_none_iff]

/-- The join of the first group that is left says nothing. -/
theorem text_withJoin {before after : List Group} {g : Group} {join : Option Join}
    (hbefore : ∀ g ∈ before, g.isKept q.known policy = false) :
    ((q.withGroups (before ++ { g with join } :: after)).compile policy).text =
      ((q.withGroups (before ++ g :: after)).compile policy).text := by
  have hnil : before.filterMap (·.expression? q.known policy) = [] :=
    List.filterMap_eq_nil_iff.mpr fun g hg => Group.expression?_eq_none_iff.mpr (hbefore g hg)
  apply text_eq_of_filter?_eq
  rw [filter?_withGroups, filter?_withGroups, List.filterMap_append, List.filterMap_append, hnil]
  have hjoin : ({ g with join } : Group).expression? q.known policy =
      (g.expression? q.known policy).map fun p => (join.getD .and, p.2) := Group.expression?_withJoin
  -- Nothing is left in front of the group, so it is the head of the chain or it is not in it.
  cases he : g.expression? q.known policy with
  | none =>
      rw [he] at hjoin
      rw [List.filterMap_cons_none hjoin, List.filterMap_cons_none he]
  | some p =>
      rw [he] at hjoin
      rw [List.filterMap_cons_some hjoin, List.filterMap_cons_some he]
      exact Expression.ofGroups?_cons_congr rfl

/-- A group of which nothing is left says nothing. -/
theorem text_insert {before after : List Group} {g : Group} (hg : g.isKept q.known policy = false) :
    ((q.withGroups (before ++ g :: after)).compile policy).text =
      ((q.withGroups (before ++ after)).compile policy).text := by
  apply text_eq_of_filter?_eq
  rw [filter?_withGroups, filter?_withGroups, List.filterMap_append, List.filterMap_append,
    List.filterMap_cons_none (Group.expression?_eq_none_iff.mpr hg)]

/-- Filters concatenate. The dropped conditions of two lists of groups are those of the one and, with their groups
counted on, those of the other. The filter text is the one with a join and the other behind it; it is missing where
no group is left. The join of the first group that is left is not in the text, and of a group of which nothing is
left there is nothing in it at all, so that its kind, its join and its place do not matter. -/
theorem filters_concatenate (q : Query) (policy : NanPolicy) (groups groups' : List Group) :
    ((q.withGroups (groups ++ groups')).compile policy).dropped = ((q.withGroups groups).compile policy).dropped ++
        ((q.withGroups groups').compile policy).dropped.map (·.behind groups.length) ∧
      (q.withGroups (groups ++ groups')).filterText? policy = ((q.withGroups groups').firstJoin policy).between
        ((q.withGroups groups).filterText? policy) ((q.withGroups groups').filterText? policy) ∧
      ((q.withGroups groups).filterText? policy = none ↔ ∀ g ∈ groups, g.isKept q.known policy = false) ∧
      (∀ before g after join, (∀ g ∈ before, g.isKept q.known policy = false) →
        ((q.withGroups (before ++ { g with join } :: after)).compile policy).text =
          ((q.withGroups (before ++ g :: after)).compile policy).text) ∧
      (∀ before g after, g.isKept q.known policy = false →
        ((q.withGroups (before ++ g :: after)).compile policy).text =
          ((q.withGroups (before ++ after)).compile policy).text) :=
  ⟨dropped_append, filterText?_append, filterText?_eq_none_iff, fun _ _ _ _ => text_withJoin,
    fun _ _ _ => text_insert⟩

/-- Groups that vanish stand in front of both lists. -/
theorem filters_concatenate_vanishing :
    let q : Query := {}
    let lost : Group := { kind := .not, conditions := [⟨"age", .contains, some "1"⟩], join := some .or }
    let name : Group := { conditions := [⟨"name", .neNull, none⟩], join := some .or }
    let age : Group := { conditions := [⟨"age", .eqNull, none⟩], join := some .or }
    lost.isKept q.known .emit = false ∧ (∀ g ∈ [lost], g.isKept q.known .emit = false) ∧
      (q.withGroups [lost, name, lost, age]).compile .emit = ⟨"?$filter=name ne null or age eq null",
        [⟨0, 0, "age", .contains, .functionOnNonString .number⟩,
          ⟨2, 0, "age", .contains, .functionOnNonString .number⟩]⟩ ∧
      ((q.withGroups ([lost, name] ++ [lost, age])).compile .emit).dropped =
        ((q.withGroups [lost, name]).compile .emit).dropped ++
          ((q.withGroups [lost, age]).compile .emit).dropped.map (·.behind 2) ∧
      (q.withGroups ([lost, name] ++ [lost, age])).filterText? .emit =
        ((q.withGroups [lost, age]).firstJoin .emit).between ((q.withGroups [lost, name]).filterText? .emit)
          ((q.withGroups [lost, age]).filterText? .emit) ∧
      ((q.withGroups ([lost] ++ { name with join := none } :: [age])).compile .emit).text =
        ((q.withGroups ([lost] ++ name :: [age])).compile .emit).text ∧
      ((q.withGroups ([name] ++ lost :: [age])).compile .emit).text =
        ((q.withGroups ([name] ++ [age])).compile .emit).text := by
  intro q lost name age
  have hlost : lost.isKept q.known .emit = false := by decide +kernel
  have hfront : ∀ g ∈ [lost], g.isKept q.known .emit = false := List.forall_mem_singleton.mpr hlost
  obtain ⟨hdropped, htext, -, hfirst, hvanish⟩ := filters_concatenate q .emit [lost, name] [lost, age]
  exact ⟨hlost, hfront, by decide +kernel, hdropped, htext, hfirst [lost] name [age] none hfront,
    hvanish [name] lost [age] hlost⟩

end Query

end ODataQuery
