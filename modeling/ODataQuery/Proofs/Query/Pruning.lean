import ODataQuery.Proofs.Query.Diagnostics

/-!
Conditions taken out of a query. A filter is made of the conditions that have an expression, so what is taken
out does not matter if it had none, and nothing else of the query sees it: not the kind of its group, nor the
join, nor whether the group is the first. In particular a query without its dropped conditions, and without the
groups in which there is nothing else, has the text it had before, and nothing is dropped from it.
-/

namespace ODataQuery

/-- The group at a position, without the conditions at some places. -/
def Group.without (g : Group) (i : Nat) (places : List (Nat × Nat)) : Group :=
  { g with conditions := (g.conditions.zipIdx.filter fun (_, j) => (i, j) ∉ places).map Prod.fst }

namespace Query

/-- The query without the conditions at some places. Its groups stay, even those with no condition left. -/
def without (q : Query) (places : List (Nat × Nat)) : Query :=
  q.withGroups (q.groups.zipIdx.map fun (g, i) => g.without i places)

/-- The query without the groups that have no conditions. -/
def compact (q : Query) : Query := q.withGroups (q.groups.filter (·.conditions ≠ []))

/-- The query without the conditions that are dropped from it, and then without the groups that have none. -/
def pruned (q : Query) (policy : NanPolicy) : Query :=
  (q.without ((q.compile policy).dropped.map Dropped.index)).compact

end Query

variable {known : Option AttributeMap} {policy policy' : NanPolicy}

theorem Condition.dropReason?_eq_none_iff {c : Condition} :
    c.dropReason? known policy = none ↔ (c.expression? known policy).isSome := by
  rw [expression?_isSome]
  cases c.dropReason? known policy <;> simp

namespace Group

variable {g : Group} {i : Nat} {places : List (Nat × Nat)}

theorem mem_without {c : Condition} :
    c ∈ (g.without i places).conditions ↔ ∃ j, g.conditions[j]? = some c ∧ (i, j) ∉ places := by
  simp [without, List.mem_zipIdx_iff_getElem?]

/-- What is taken out may have an expression by one policy, as long as it has none by the other. -/
theorem expression?_without (h : ∀ j c, g.conditions[j]? = some c →
      c.expression? known policy = if (i, j) ∈ places then none else c.expression? known policy') :
    (g.without i places).expression? known policy' = g.expression? known policy := by
  have hconditions : (g.without i places).conditions.filterMap (·.expression? known policy') =
      g.conditions.filterMap (·.expression? known policy) := by
    rw [without, List.filterMap_map, List.filterMap_filter, ← filterMap_zipIdx (i := 0) (l := g.conditions)]
    refine List.filterMap_congr fun p hp => ?_
    obtain ⟨c, j⟩ := p
    rw [h j c (List.mem_zipIdx_iff_getElem?.mp hp)]
    by_cases hplace : (i, j) ∈ places <;> simp [hplace]
  rw [expression?, expression?, hconditions]
  rfl

theorem expression?_eq_none (h : g.conditions = []) : g.expression? known policy = none := by
  rw [expression?, h]
  rfl

end Group

namespace Query

variable {q : Query} {places : List (Nat × Nat)}

theorem filter?_without (h : ∀ p ∈ q.places, p.condition.expression? q.known policy =
      if p.index ∈ places then none else p.condition.expression? q.known policy') :
    (q.without places).filter? policy' = q.filter? policy := by
  -- Both sides run over the groups with their positions, since `without` needs them.
  rw [without, filter?_withGroups, filter?, List.filterMap_map,
    ← filterMap_zipIdx (i := 0) (l := q.groups)]
  congr 1
  refine List.filterMap_congr fun p hp => ?_
  obtain ⟨g, i⟩ := p
  refine Group.expression?_without fun j c hc => ?_
  exact h ⟨i, j, g.kind, c⟩ (mem_places.mpr ⟨g, List.mem_zipIdx_iff_getElem?.mp hp, rfl, hc⟩)

theorem filter?_compact : q.compact.filter? policy = q.filter? policy := by
  rw [compact, filter?_withGroups, filter?, List.filterMap_filter]
  congr 1
  refine List.filterMap_congr fun g _ => ?_
  by_cases hg : g.conditions = []
  · rw [Group.expression?_eq_none hg, ite_self]
  · exact if_pos (decide_eq_true hg)

/-- Only conditions that stay are in a query from which others are taken out. -/
theorem exists_place {g : Group} (hg : g ∈ (q.without places).groups) {c : Condition} (hc : c ∈ g.conditions) :
    ∃ p ∈ q.places, p.condition = c ∧ p.index ∉ places := by
  obtain ⟨⟨g, i⟩, hmem, rfl⟩ := List.mem_map.mp hg
  obtain ⟨j, hj, hplace⟩ := Group.mem_without.mp hc
  exact ⟨⟨i, j, g.kind, c⟩, mem_places.mpr ⟨g, List.mem_zipIdx_iff_getElem?.mp hmem, rfl, hj⟩, rfl, hplace⟩

theorem dropped_eq_nil (h : ∀ g ∈ q.groups, ∀ c ∈ g.conditions, c.dropReason? q.known policy = none) :
    q.dropped policy = [] := by
  rw [dropped_eq, List.filterMap_eq_nil_iff]
  intro p hp
  obtain ⟨g, hg, -, hc⟩ := mem_places.mp hp
  rw [h g (List.mem_of_getElem? hg) p.condition (List.mem_of_getElem? hc)]
  rfl

theorem index_mem_dropped_iff {p : Place} (hp : p ∈ q.places) :
    p.index ∈ (q.compile policy).dropped.map Dropped.index ↔ p.condition.expression? q.known policy = none := by
  rw [← Option.not_isSome_iff_eq_none, Condition.expression?_isSome, Bool.not_not_eq]
  exact index_mem_dropped hp

theorem filter?_pruned : (q.pruned policy).filter? policy = q.filter? policy := by
  rw [pruned, filter?_compact]
  refine filter?_without fun p hp => ?_
  by_cases hplace : p.index ∈ (q.compile policy).dropped.map Dropped.index
  · rw [if_pos hplace, (index_mem_dropped_iff hp).mp hplace]
  · exact (if_neg hplace).symm

theorem dropped_pruned : (q.pruned policy).dropped policy = [] := by
  refine dropped_eq_nil fun g hg c hc => ?_
  obtain ⟨p, hp, rfl, hplace⟩ := exists_place (List.mem_of_mem_filter hg) hc
  apply Condition.dropReason?_eq_none_iff.mpr
  exact Option.isSome_iff_ne_none.mpr fun h => hplace ((index_mem_dropped_iff hp).mpr h)

/-- Pruning a query does not change its text, and leaves nothing that would be dropped. -/
theorem pruning_invisible (q : Query) (policy : NanPolicy) :
    (q.pruned policy).compile policy = ⟨(q.compile policy).text, []⟩ := by
  have htext : ((q.pruned policy).compile policy).text = (q.compile policy).text :=
    text_eq_of_filter?_eq (q := q) filter?_pruned
  rw [← htext, ← dropped_pruned]
  rfl

/-- The group in front vanishes, a pair becomes a single condition, and the groups keep their joins. -/
example :
    let q : Query := { groups := [
      { kind := .not, conditions := [⟨"age", .contains, some "1"⟩], join := some .and },
      { conditions := [⟨"age", .startsWith, some "1"⟩, ⟨"age", .eqNull, none⟩], join := some .or },
      { kind := .or, conditions := [⟨"name", .neNull, none⟩] }] }
    (q.pruned .emit).groups = [
        { conditions := [⟨"age", .eqNull, none⟩], join := some .or },
        { kind := .or, conditions := [⟨"name", .neNull, none⟩] }] ∧
      (q.compile .emit).text = "?$filter=age eq null and name ne null" := by
  decide +kernel

end Query

end ODataQuery
