import Mathlib.Data.List.Forall2
import ODataQuery.Proofs.Filter.Kept

/-!
What the result of compiling depends on. Of what is known of the attributes it sees only whether a column is a
lookup, and the types of the attributes in conditions; of a test for null it sees neither the type of the attribute
nor the value. Two queries that are alike in all else have the same text, and the same conditions are dropped from
them for the same reasons.
-/

namespace ODataQuery

/-- The type of an attribute, if it is known. -/
def AttributeMap.type? (known : Option AttributeMap) (name : String) : Option AttributeType :=
  (known.bind (·[name]?)).map (·.type)

/-- The same conditions, save for the value under a test for null. -/
structure Condition.Alike (c c' : Condition) : Prop where
  name : c'.name = c.name
  operator : c'.operator = c.operator
  value : c.operator.isNullTest = false → c'.value = c.value

structure Group.Alike (g g' : Group) : Prop where
  kind : g'.kind = g.kind
  join : g'.join = g.join
  conditions : List.Forall₂ Condition.Alike g.conditions g'.conditions

namespace Query

/-- The same queries, save for values under tests for null and for what is known of the attributes. -/
structure Alike (q q' : Query) : Prop where
  columns : q'.columns = q.columns
  groups : List.Forall₂ Group.Alike q.groups q'.groups
  orderAttribute : q'.orderAttribute = q.orderAttribute
  orderDirection : q'.orderDirection = q.orderDirection
  top : q'.top = q.top

/-- What is known is the same as far as the query goes: which of its columns are lookups, and the types of the
attributes in its conditions, tests for null apart. An attribute of unknown type is not one that is not known. -/
structure InformedAlike (q : Query) (known known' : Option AttributeMap) : Prop where
  columns : ∀ column ∈ q.columns,
    (AttributeMap.type? known column = some .lookup ↔ AttributeMap.type? known' column = some .lookup)
  conditions : ∀ g ∈ q.groups, ∀ c ∈ g.conditions, c.operator.isNullTest = false →
    AttributeMap.type? known c.name = AttributeMap.type? known' c.name

end Query

variable {known known' : Option AttributeMap} {policy : NanPolicy}

/-! ### Lists whose members agree -/

section

variable {α α' β : Type} {R : α → α' → Prop} {l : List α} {l' : List α'}

theorem filterMap_eq_of_forall₂ {f : α → Option β} {f' : α' → Option β}
    (h : List.Forall₂ (fun a a' => f' a' = f a) l l') : l'.filterMap f' = l.filterMap f := by
  induction h with
  | nil => rfl
  | cons hhead _ ih => rw [List.filterMap_cons, List.filterMap_cons, hhead, ih]

theorem flatMap_eq_of_forall₂ {f : α → List β} {f' : α' → List β}
    (h : List.Forall₂ (fun a a' => f' a' = f a) l l') : l'.flatMap f' = l.flatMap f := by
  induction h with
  | nil => rfl
  | cons hhead _ ih => rw [List.flatMap_cons, List.flatMap_cons, hhead, ih]

theorem forall₂_zipIdx (h : List.Forall₂ R l l') (i : Nat) :
    List.Forall₂ (fun p p' => R p.1 p'.1 ∧ p'.2 = p.2) (l.zipIdx i) (l'.zipIdx i) := by
  induction h generalizing i with
  | nil => exact .nil
  | cons hhead _ ih => exact .cons ⟨hhead, rfl⟩ (ih (i + 1))

/-- Members that are related two by two are so with what holds of all members of the one list. -/
theorem forall₂_of_mem {p : α → Prop} {S : α → α' → Prop} (h : List.Forall₂ R l l') (hp : ∀ a ∈ l, p a)
    (himp : ∀ a a', p a → R a a' → S a a') : List.Forall₂ S l l' := by
  refine ((List.forall₂_and_left l l').mpr ⟨hp, h⟩).imp fun a a' haa' => ?_
  exact himp a a' haa'.1 haa'.2

end

/-! ### Columns and conditions -/

theorem AttributeMap.typeOf_eq {name value : String} :
    typeOf known name value = (type? known name).getD (.infer value) := by
  rw [typeOf, type?]
  cases known.bind (·[name]?) <;> simp

theorem Query.columnField_eq {column : String} :
    columnField known column =
      if AttributeMap.type? known column = some .lookup then lookupField column else column := by
  rw [columnField, AttributeMap.type?]
  cases known.bind (·[column]?) <;> simp

namespace Condition

variable {c c' : Condition}

theorem Alike.eq (h : c.Alike c') (hnull : c.operator.isNullTest = false) : c' = c := by
  obtain ⟨hname, hoperator, hvalue⟩ := h
  cases c
  cases c'
  exact Condition.mk.injEq .. |>.mpr ⟨hname, hoperator, hvalue hnull⟩

theorem compile_eq_of_type? (h : AttributeMap.type? known c.name = AttributeMap.type? known' c.name) :
    c.compile known' policy = c.compile known policy := by
  have htype : ∀ value, AttributeMap.typeOf known' c.name value = AttributeMap.typeOf known c.name value := by
    intro value
    rw [AttributeMap.typeOf_eq, AttributeMap.typeOf_eq, h]
  simp only [compile, htype]

theorem Alike.compile_eq (h : c.Alike c') (hknown : c.operator.isNullTest = false →
      AttributeMap.type? known c.name = AttributeMap.type? known' c.name) :
    c'.compile known' policy = c.compile known policy := by
  cases hnull : c.operator.isNullTest with
  | true =>
      have hnull' : c'.operator.isNullTest = true := h.operator ▸ hnull
      rw [compile_nullTest hnull', compile_nullTest hnull, h.name, h.operator]
  | false =>
      rw [h.eq hnull]
      exact compile_eq_of_type? (hknown hnull)

end Condition

/-! ### Groups -/

namespace Group

section

variable {g g' : Group} (h : g.Alike g') (hknown : ∀ c ∈ g.conditions, c.operator.isNullTest = false →
  AttributeMap.type? known c.name = AttributeMap.type? known' c.name)
include h hknown

/-- The conditions of groups that are alike have the same results, and are reported alike. -/
theorem Alike.compiled (policy : NanPolicy) : List.Forall₂ (fun c c' =>
    c'.compile known' policy = c.compile known policy ∧ c'.name = c.name ∧ c'.operator = c.operator)
    g.conditions g'.conditions :=
  forall₂_of_mem h.conditions hknown fun _ _ hc halike =>
    ⟨halike.compile_eq hc, halike.name, halike.operator⟩

theorem Alike.expression?_eq : g'.expression? known' policy = g.expression? known policy := by
  have hconditions : g'.conditions.filterMap (·.expression? known' policy) =
      g.conditions.filterMap (·.expression? known policy) := by
    refine filterMap_eq_of_forall₂ (List.Forall₂.imp ?_ (h.compiled hknown policy))
    intro c c' hc
    rw [Condition.expression?, Condition.expression?, hc.1]
  rw [expression?, expression?, hconditions, h.kind, h.join]

theorem Alike.dropped_eq (i : Nat) : g'.dropped known' policy i = g.dropped known policy i := by
  refine filterMap_eq_of_forall₂ (List.Forall₂.imp ?_ (forall₂_zipIdx (h.compiled hknown policy) 0))
  rintro ⟨c, j⟩ ⟨c', j'⟩ ⟨⟨hcompile, hname, hoperator⟩, rfl⟩
  have hreason : c'.dropReason? known' policy = c.dropReason? known policy := by
    rw [Condition.dropReason?, Condition.dropReason?, hcompile]
  change (c'.dropReason? known' policy).map _ = (c.dropReason? known policy).map _
  rw [hreason, hname, hoperator]

end

end Group

/-! ### Queries -/

namespace Query

variable {q q' : Query}

section

variable (h : q.Alike q') (hknown : q.InformedAlike q.known q'.known)
include h hknown

theorem Alike.fields_eq : q'.fields = q.fields := by
  rw [fields, fields, h.columns]
  refine List.map_congr_left fun column hcolumn => ?_
  rw [columnField_eq, columnField_eq]
  exact if_congr (hknown.columns column hcolumn).symm rfl rfl

theorem Alike.filter?_eq : q'.filter? policy = q.filter? policy := by
  have hgroups : q'.groups.filterMap (·.expression? q'.known policy) =
      q.groups.filterMap (·.expression? q.known policy) :=
    filterMap_eq_of_forall₂ (forall₂_of_mem h.groups hknown.conditions fun _ _ hg halike =>
      halike.expression?_eq hg)
  rw [filter?, filter?, hgroups]

theorem Alike.dropped_eq : q'.dropped policy = q.dropped policy := by
  have hgroups : List.Forall₂ (fun g g' => ∀ i, g'.dropped q'.known policy i = g.dropped q.known policy i)
      q.groups q'.groups :=
    forall₂_of_mem h.groups hknown.conditions fun _ _ hg halike => halike.dropped_eq hg
  refine flatMap_eq_of_forall₂ ((forall₂_zipIdx hgroups 0).imp fun p p' hp => ?_)
  obtain ⟨g, i⟩ := p
  obtain ⟨g', i'⟩ := p'
  obtain ⟨hdropped, rfl⟩ := hp
  exact hdropped i'

theorem Alike.parameters_eq : q'.parameters policy = q.parameters policy := by
  rw [parameters, parameters, h.fields_eq hknown, h.filter?_eq hknown, h.columns, h.orderAttribute,
    h.orderDirection, h.top]

end

/-- Queries that are alike, and of whose attributes the same is known as far as they go, compile to the same text
with the same reports. The targets of lookups do not matter, nor the attributes that no column and no condition
names, that by which the rows are ordered among them, nor what a test for null compares with. -/
theorem compile_eq_of_alike (h : q.Alike q') (hknown : q.InformedAlike q.known q'.known) (policy : NanPolicy) :
    q'.compile policy = q.compile policy := by
  rw [compile, compile, h.parameters_eq hknown, h.dropped_eq hknown]

/-- The one query knows other targets, another attribute and the type of that which gives the order, and has other
values under tests for null. A type that is told to be unknown is not left to the value. -/
theorem compile_eq_of_alike_targets :
    let q : Query := {
      columns := ["name", "ownerid"]
      groups := [{ kind := .or, conditions := [⟨"age", .eqNull, some "old"⟩, ⟨"age", .contains, some "1"⟩] },
        { conditions := [⟨"code", .eq, some "7"⟩, ⟨"size", .gt, some "7"⟩] }]
      orderAttribute := some "createdon"
      known := some (Std.ExtTreeMap.ofList [("ownerid", (⟨.lookup, some ["team"]⟩ : Attribute)),
        ("code", ⟨.unknown, none⟩), ("name", ⟨.date, none⟩)]) }
    let q' : Query := { q with
      groups := [{ kind := .or, conditions := [⟨"age", .eqNull, none⟩, ⟨"age", .contains, some "1"⟩] },
        { conditions := [⟨"code", .eq, some "7"⟩, ⟨"size", .gt, some "7"⟩] }]
      known := some (Std.ExtTreeMap.ofList [("ownerid", (⟨.lookup, none⟩ : Attribute)),
        ("code", ⟨.unknown, some ["user"]⟩), ("createdon", ⟨.lookup, none⟩)]) }
    q.Alike q' ∧ q.InformedAlike q.known q'.known ∧ q'.compile .drop = q.compile .drop ∧
      q'.compile .drop = ⟨"?$select=name,_ownerid_value&$filter=age eq null and (code eq '7' and size gt 7)" ++
        "&$orderby=createdon asc", [⟨0, 1, "age", .contains, .functionOnNonString .number⟩]⟩ := by
  intro q q'
  have halike : q.Alike q' := by
    refine ⟨rfl, .cons ⟨rfl, rfl, ?_⟩ (.cons ⟨rfl, rfl, ?_⟩ .nil), rfl, rfl, rfl⟩
    · exact .cons ⟨rfl, rfl, nofun⟩ (.cons ⟨rfl, rfl, fun _ => rfl⟩ .nil)
    · exact .cons ⟨rfl, rfl, fun _ => rfl⟩ (.cons ⟨rfl, rfl, fun _ => rfl⟩ .nil)
  have hknown : q.InformedAlike q.known q'.known := ⟨by decide +kernel, by decide +kernel⟩
  have hsame : q'.compile .drop = q.compile .drop := compile_eq_of_alike halike hknown .drop
  exact ⟨halike, hknown, hsame, by decide +kernel⟩

end Query

end ODataQuery
