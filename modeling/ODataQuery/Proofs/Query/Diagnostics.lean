import Mathlib.Data.List.Basic
import Mathlib.Data.List.Forall2
import ODataQuery.Proofs.Filter.Kept

/-!
What a compiled query says of the conditions it leaves out. Every condition of the query has a place, and
the places are in order. A place is reported if, and only if, the condition there has no written form, for
the reason that is reported; the conditions at all other places are what the filter expression consists of,
in the same order and in groups of the same kind.
-/

namespace ODataQuery

/-- A condition with its place in a query: the positions of its group and in its group, and the group's
kind. -/
structure Place where
  group : Nat
  position : Nat
  kind : GroupKind
  condition : Condition

def Place.index (p : Place) : Nat × Nat := (p.group, p.position)

def Dropped.index (d : Dropped) : Nat × Nat := (d.group, d.position)

/-- Group by group, and in a group condition by condition. -/
abbrev Before : Nat × Nat → Nat × Nat → Prop := Prod.Lex (· < ·) (· < ·)

def Group.places (g : Group) (i : Nat) : List Place := g.conditions.zipIdx.map fun (c, j) => ⟨i, j, g.kind, c⟩

/-- All conditions of a query, in order. -/
def Query.places (q : Query) : List Place := q.groups.zipIdx.flatMap fun (g, i) => g.places i

/-- The reasons for which a condition has no written form. -/
inductive Condition.Unwritable (known : Option AttributeMap) (policy : NanPolicy) (c : Condition) :
    DropReason → Prop where
  | function {type} (hf : c.operator.stringFunction?.isSome)
      (htype : AttributeMap.typeOf known c.name (c.value.getD "") = type) (hne : type ≠ .string) :
      Unwritable known policy c (.functionOnNonString type)
  | date (hop : c.operator.Compares) (htype : AttributeMap.typeOf known c.name (c.value.getD "") = .date)
      (hdate : Instant.ofText? (c.value.getD "") = none) : Unwritable known policy c .unparseableDate
  | number (hop : c.operator.Compares) (htype : AttributeMap.typeOf known c.name (c.value.getD "") = .number)
      (hnan : (Number.ofText (c.value.getD "")).isNaN = true) (hpolicy : policy = .drop) :
      Unwritable known policy c .notANumber

namespace Expression

mutual

/-- The conditions in an expression, in order, each with the kind of the group around it. -/
def leaves (kind : Option GroupKind) : Expression → List (Option GroupKind × Expression)
  | group k conditions => leavesAll (some k) conditions
  | chain first rest => first.leaves kind ++ leavesRest kind rest
  | e => [(kind, e)]

def leavesAll (kind : Option GroupKind) : List Expression → List (Option GroupKind × Expression)
  | [] => []
  | e :: es => e.leaves kind ++ leavesAll kind es

def leavesRest (kind : Option GroupKind) : List (Join × Expression) → List (Option GroupKind × Expression)
  | [] => []
  | (_, e) :: rest => e.leaves kind ++ leavesRest kind rest

end

end Expression

variable {known : Option AttributeMap} {policy : NanPolicy}

/-! ### Places -/

theorem Group.mem_places {g : Group} {i : Nat} {p : Place} :
    p ∈ g.places i ↔ p.group = i ∧ p.kind = g.kind ∧ g.conditions[p.position]? = some p.condition := by
  simp only [places, List.mem_map, Prod.exists, List.mem_zipIdx_iff_getElem?]
  constructor
  · rintro ⟨c, j, hc, rfl⟩
    exact ⟨rfl, rfl, hc⟩
  · rintro ⟨rfl, hkind, hc⟩
    exact ⟨p.condition, p.position, hc, by rw [← hkind]⟩

namespace Query

variable {q : Query} {p p' : Place}

theorem mem_places :
    p ∈ q.places ↔ ∃ g, q.groups[p.group]? = some g ∧ p.kind = g.kind ∧
      g.conditions[p.position]? = some p.condition := by
  simp only [places, List.mem_flatMap, Prod.exists, List.mem_zipIdx_iff_getElem?, Group.mem_places]
  constructor
  · rintro ⟨g, i, hg, rfl, h⟩
    exact ⟨g, hg, h⟩
  · rintro ⟨g, hg, h⟩
    exact ⟨g, p.group, hg, rfl, h⟩

/-- There is one condition at a place. -/
theorem place_eq (hp : p ∈ q.places) (hp' : p' ∈ q.places) (h : p.index = p'.index) : p = p' := by
  obtain ⟨g, hg, hkind, hc⟩ := mem_places.mp hp
  obtain ⟨g', hg', hkind', hc'⟩ := mem_places.mp hp'
  obtain ⟨i, j, kind, c⟩ := p
  obtain ⟨i', j', kind', c'⟩ := p'
  obtain ⟨rfl, rfl⟩ : i = i' ∧ j = j' := Prod.mk.inj h
  cases hg.symm.trans hg'
  cases hc.symm.trans hc'
  cases hkind.trans hkind'.symm
  rfl

theorem places_pairwise : (q.places.map Place.index).Pairwise Before := by
  rw [List.pairwise_map, places, List.pairwise_flatMap]
  constructor
  · rintro ⟨g, i⟩ -
    refine List.pairwise_map.mpr (pairwise_zipIdx.imp fun {a b} h => ?_)
    exact Prod.Lex.right i h
  · refine pairwise_zipIdx.imp fun {a b} h x hx y hy => ?_
    rw [← (Group.mem_places.mp hx).1, ← (Group.mem_places.mp hy).1] at h
    exact Prod.Lex.left _ _ h

end Query

/-! ### Reasons -/

namespace Condition

variable {c : Condition} {reason : DropReason}

theorem operands_eq_error_iff {name raw : String} {type : AttributeType} :
    operands policy name raw type = .error reason ↔
      type = .date ∧ Instant.ofText? raw = none ∧ .unparseableDate = reason ∨
        type = .number ∧ (Number.ofText raw).isNaN = true ∧ policy = .drop ∧ .notANumber = reason := by
  cases type with
  | date =>
      rw [operands]
      generalize Instant.ofText? raw = instant?
      cases instant? <;> simp
  | number =>
      rw [operands]
      generalize Number.ofText raw = x
      cases x.isNaN <;> cases policy <;> simp
  | _ => simp [operands]

theorem map_eq_error_iff {ε α β : Type} {f : α → β} {x : Except ε α} {e : ε} :
    x.map f = .error e ↔ x = .error e := by
  cases x <;> simp [Except.map]

/-- A condition fails to compile for one of the reasons, and for no other. -/
theorem compile_eq_error_iff : c.compile known policy = .error reason ↔ c.Unwritable known policy reason := by
  cases hnull : c.operator.isNullTest with
  | true =>
      rw [compile_nullTest hnull]
      constructor
      · intro h
        cases h
      · intro h
        cases h with
        | function hf =>
            rw [Operator.not_isNullTest_of_function hf] at hnull
            cases hnull
        | date hop | number hop => cases hop.no_null_test.symm.trans hnull
  | false =>
      cases hf : c.operator.stringFunction? with
      | some p =>
          rw [compile_function hf]
          constructor
          · intro h
            split at h
            · cases h
            · rename_i hne
              cases h
              exact .function (by rw [hf]; rfl) rfl hne
          · intro h
            cases h with
            | function _ htype hne => rw [htype, if_neg hne]
            | date hop | number hop => cases hop.no_function.symm.trans hf
      | none =>
          have hop : c.operator.Compares := ⟨hnull, hf⟩
          rw [compile_comparison hop, map_eq_error_iff, operands_eq_error_iff]
          constructor
          · rintro (⟨htype, hdate, rfl⟩ | ⟨htype, hnan, hpolicy, rfl⟩)
            · exact .date hop htype hdate
            · exact .number hop htype hnan hpolicy
          · intro h
            cases h with
            | function hsome =>
                rw [hf] at hsome
                cases hsome
            | date _ htype hdate => exact Or.inl ⟨htype, hdate, rfl⟩
            | number _ htype hnan hpolicy => exact Or.inr ⟨htype, hnan, hpolicy, rfl⟩

theorem dropReason?_eq_some_iff : c.dropReason? known policy = some reason ↔ c.Unwritable known policy reason := by
  rw [← compile_eq_error_iff, dropReason?]
  cases c.compile known policy <;> simp

/-- A condition has an expression or a reason, and not both. -/
theorem expression?_isSome : (c.expression? known policy).isSome = !(c.dropReason? known policy).isSome := by
  rw [expression?, dropReason?]
  cases c.compile known policy <;> rfl

end Condition

/-! ### Dropped and written conditions -/

section

variable {α β : Type} {f : α → Option β} {l : List α}

theorem filterMap_map_const {γ : Type} {g : α → γ} :
    (l.filterMap fun a => (f a).map fun _ => g a) = (l.filter fun a => (f a).isSome).map g := by
  induction l with
  | nil => rfl
  | cons a l ih => cases h : f a <;> simp [h, ih]

theorem forall₂_filterMap : List.Forall₂ (fun a b => f a = some b) (l.filter fun a => (f a).isSome) (l.filterMap f) := by
  induction l with
  | nil => exact .nil
  | cons a l ih =>
      cases h : f a with
      | none => simpa [h] using ih
      | some b => simpa [h] using ih

end

namespace Query

variable {q : Query}

theorem dropped_eq :
    q.dropped policy = q.places.filterMap fun p =>
      (p.condition.dropReason? q.known policy).map fun reason =>
        ⟨p.group, p.position, p.condition.name, p.condition.operator, reason⟩ := by
  rw [dropped, places, List.filterMap_flatMap]
  congr 1
  funext ⟨g, i⟩
  change _ = (g.places i).filterMap _
  rw [Group.places, List.filterMap_map]
  rfl

theorem dropped_indices :
    (q.dropped policy).map Dropped.index =
      (q.places.filter fun p => (p.condition.dropReason? q.known policy).isSome).map Place.index := by
  rw [dropped_eq, List.map_filterMap, ← filterMap_map_const]
  congr 1
  funext p
  exact Option.map_map ..

theorem index_mem_dropped {p : Place} (hp : p ∈ q.places) :
    p.index ∈ (q.dropped policy).map Dropped.index ↔
      (p.condition.dropReason? q.known policy).isSome = true := by
  rw [dropped_indices, List.mem_map]
  constructor
  · rintro ⟨p', hp', hindex⟩
    obtain ⟨hmem, hdropped⟩ := List.mem_filter.mp hp'
    rw [← place_eq hmem hp hindex]
    exact hdropped
  · intro h
    exact ⟨p, List.mem_filter.mpr ⟨hp, h⟩, rfl⟩

/-- The places that are not reported are those of the conditions with an expression. -/
theorem filter_not_dropped :
    q.places.filter (fun p => p.index ∉ (q.dropped policy).map Dropped.index) =
      q.places.filter fun p => (p.condition.expression? q.known policy).isSome := by
  refine List.filter_congr fun p hp => ?_
  rw [Condition.expression?_isSome, Bool.eq_iff_iff]
  simp only [decide_eq_true_eq, index_mem_dropped hp, Bool.not_eq_true', Bool.not_eq_true]

end Query

/-! ### The filter expression -/

namespace Expression

theorem leavesAll_compiled {kind : Option GroupKind} {cs : List Condition} :
    leavesAll kind (cs.filterMap (·.expression? known policy)) =
      cs.filterMap fun c => (c.expression? known policy).map (kind, ·) := by
  induction cs with
  | nil => rfl
  | cons c cs ih =>
      cases he : c.expression? known policy with
      | none => simp only [List.filterMap_cons, he, ih, Option.map_none]
      | some e =>
          have hleaf : e.leaves kind = [(kind, e)] := by
            cases Condition.form_of_expression? he <;> rfl
          simp only [List.filterMap_cons, he, Option.map_some, leavesAll, hleaf, ih, List.singleton_append]

theorem leavesRest_eq {kind : Option GroupKind} {es : List (Join × Expression)} :
    leavesRest kind es = es.flatMap fun p => p.2.leaves kind := by
  induction es with
  | nil => rfl
  | cons p es ih => rw [leavesRest, ih, List.flatMap_cons]

theorem leaves_ofGroups? {kind : Option GroupKind} {es : List (Join × Expression)} :
    ((ofGroups? es).map (·.leaves kind)).getD [] = es.flatMap fun p => p.2.leaves kind := by
  match es with
  | [] => rfl
  | [(j, e)] => exact (List.flatMap_singleton _ _).symm
  | (j, e) :: e' :: rest =>
      rw [List.flatMap_cons, ← leavesRest_eq]
      rfl

end Expression

theorem Group.leaves_expression? {g : Group} {i : Nat} {kind : Option GroupKind} :
    (g.expression? known policy).toList.flatMap (fun p => p.2.leaves kind) =
      (g.places i).filterMap fun p => (p.condition.expression? known policy).map (some p.kind, ·) := by
  have hplaces : (g.places i).filterMap (fun p => (p.condition.expression? known policy).map (some p.kind, ·)) =
      g.conditions.filterMap fun c => (c.expression? known policy).map (some g.kind, ·) := by
    rw [places, List.filterMap_map]
    exact filterMap_zipIdx (f := fun c : Condition => (c.expression? known policy).map (some g.kind, ·))
  rw [hplaces, expression?, Expression.ofGroup?, ← Expression.leavesAll_compiled]
  cases g.conditions.filterMap (·.expression? known policy) with
  | nil => rfl
  | cons e es => exact List.flatMap_singleton _ _

namespace Query

variable {q : Query}

/-- The conditions in the filter are those that have an expression, in the order of their places. -/
theorem leaves_filter? :
    ((q.filter? policy).map (·.leaves none)).getD [] =
      q.places.filterMap fun p => (p.condition.expression? q.known policy).map (some p.kind, ·) := by
  rw [filter?, Expression.leaves_ofGroups?, places, List.filterMap_flatMap, ← filterMap_zipIdx (i := 0),
    List.filterMap_eq_flatMap_toList, List.flatMap_assoc]
  congr 1
  funext p
  obtain ⟨g, i⟩ := p
  exact Group.leaves_expression?

theorem dropped_pairwise : ((q.dropped policy).map Dropped.index).Pairwise Before := by
  rw [dropped_indices]
  exact places_pairwise.sublist (List.filter_sublist.map _)

theorem mem_dropped {d : Dropped} :
    d ∈ q.dropped policy ↔ ∃ g c, q.groups[d.group]? = some g ∧ g.conditions[d.position]? = some c ∧
      d.name = c.name ∧ d.operator = c.operator ∧ c.Unwritable q.known policy d.reason := by
  simp only [dropped_eq, List.mem_filterMap, mem_places, Option.map_eq_some_iff,
    Condition.dropReason?_eq_some_iff]
  constructor
  · rintro ⟨p, ⟨g, hg, -, hc⟩, reason, hreason, rfl⟩
    exact ⟨g, p.condition, hg, hc, rfl, rfl, hreason⟩
  · rintro ⟨g, c, hg, hc, hname, hop, hreason⟩
    refine ⟨⟨d.group, d.position, g.kind, c⟩, ⟨g, hg, rfl, hc⟩, d.reason, hreason, ?_⟩
    rw [← hname, ← hop]

/-- Dropped and written conditions together are all conditions. -/
theorem dropped_append_others :
    ((q.dropped policy).map Dropped.index ++
      (q.places.filter fun p => p.index ∉ (q.dropped policy).map Dropped.index).map Place.index).Perm
      (q.places.map Place.index) := by
  rw [filter_not_dropped, dropped_indices, ← List.map_append]
  simp only [Condition.expression?_isSome]
  exact (List.filter_append_perm _ _).map _

theorem forall₂_leaves :
    List.Forall₂ (fun p leaf => leaf.1 = some p.kind ∧ p.condition.compile q.known policy = .ok leaf.2)
      (q.places.filter fun p => p.index ∉ (q.dropped policy).map Dropped.index)
      (((q.filter? policy).map (·.leaves none)).getD []) := by
  rw [filter_not_dropped, leaves_filter?]
  have h := forall₂_filterMap (l := q.places) (f := fun p =>
    (p.condition.expression? q.known policy).map (some p.kind, ·))
  simp only [Option.isSome_map] at h
  refine h.imp fun p leaf hleaf => ?_
  obtain ⟨e, he, rfl⟩ := Option.map_eq_some_iff.mp hleaf
  exact ⟨rfl, Condition.expression?_eq_some_iff.mp he⟩

/-- What is reported of a compiled query is exact. The reports are in the order of the places, each place is
reported at most once, and it is reported if and only if the condition there has no written form, with its name,
its operator and the reason. The conditions at all other places are those of the filter expression, each once, in
order, and in a group of the kind of its own group. So no condition is lost, and none appears twice. -/
theorem diagnostics_exact (q : Query) (policy : NanPolicy) :
    let dropped := (q.compile policy).dropped
    let others := q.places.filter fun p => p.index ∉ dropped.map Dropped.index
    (dropped.map Dropped.index).Pairwise Before ∧
      (∀ d, d ∈ dropped ↔ ∃ g c, q.groups[d.group]? = some g ∧ g.conditions[d.position]? = some c ∧
        d.name = c.name ∧ d.operator = c.operator ∧ c.Unwritable q.known policy d.reason) ∧
      List.Forall₂ (fun p leaf => leaf.1 = some p.kind ∧ p.condition.compile q.known policy = .ok leaf.2) others
        (((q.filter? policy).map (·.leaves none)).getD []) ∧
      (dropped.map Dropped.index ++ others.map Place.index).Perm (q.places.map Place.index) :=
  ⟨dropped_pairwise, fun _ => mem_dropped, forall₂_leaves, dropped_append_others⟩

end Query

end ODataQuery
