import Mathlib.Data.List.Sort
import ODataQuery.Proofs.Query.Pruning

/-!
The two policies for values that are no numbers. They agree on every condition but the comparisons of a number
attribute with such a value: to drop them is to write the query in which they are not there, and to report each
of them at its place among the other reports. Where there are none, there is nothing to choose.
-/

namespace ODataQuery

/-- The condition compares a number attribute with a value that is no number. -/
def Condition.LacksNumber (known : Option AttributeMap) (c : Condition) : Prop :=
  c.operator.Compares ∧ AttributeMap.typeOf known c.name (c.value.getD "") = .number ∧
    (Number.ofText (c.value.getD "")).isNaN = true

def Place.report (p : Place) (reason : DropReason) : Dropped :=
  ⟨p.group, p.position, p.condition.name, p.condition.operator, reason⟩

/-! ### Conditions -/

namespace Condition

variable {known : Option AttributeMap} {c : Condition}

instance : Decidable (c.LacksNumber known) := inferInstanceAs (Decidable (_ ∧ _ ∧ _))

theorem operands_drop {name raw : String} {type : AttributeType} :
    operands .drop name raw type =
      if type = .number ∧ (Number.ofText raw).isNaN = true then .error .notANumber
      else operands .emit name raw type := by
  cases type with
  | number => cases hnan : (Number.ofText raw).isNaN <;> simp [operands, hnan]
  | _ => rfl

theorem compile_eq_of_not_compares {policy policy' : NanPolicy} (h : ¬ c.operator.Compares) :
    c.compile known policy = c.compile known policy' := by
  cases hnull : c.operator.isNullTest with
  | true => rw [compile_nullTest hnull, compile_nullTest hnull]
  | false =>
      cases hf : c.operator.stringFunction? with
      | some p => rw [compile_function hf, compile_function hf]
      | none => exact absurd ⟨hnull, hf⟩ h

/-- The policies part on the conditions that lack a number, and on no others. -/
theorem compile_drop :
    c.compile known .drop = if c.LacksNumber known then .error .notANumber else c.compile known .emit := by
  by_cases hop : c.operator.Compares
  · rw [compile_comparison hop, compile_comparison hop, operands_drop]
    by_cases h : c.LacksNumber known
    · rw [if_pos h, if_pos h.2]
      rfl
    · rw [if_neg h, if_neg fun h' => h ⟨hop, h'⟩]
  · rw [if_neg fun h => hop h.1]
    exact compile_eq_of_not_compares hop

theorem expression?_drop :
    c.expression? known .drop = if c.LacksNumber known then none else c.expression? known .emit := by
  rw [expression?, compile_drop, expression?]
  by_cases h : c.LacksNumber known
  · rw [if_pos h, if_pos h]
    rfl
  · rw [if_neg h, if_neg h]

theorem dropReason?_drop :
    c.dropReason? known .drop = if c.LacksNumber known then some .notANumber else c.dropReason? known .emit := by
  rw [dropReason?, compile_drop, dropReason?]
  by_cases h : c.LacksNumber known
  · rw [if_pos h, if_pos h]
  · rw [if_neg h, if_neg h]

theorem dropReason?_emit_ne : c.dropReason? known .emit ≠ some .notANumber := by
  intro h
  cases dropReason?_eq_some_iff.mp h with
  | number _ _ _ hpolicy => cases hpolicy

theorem LacksNumber.dropReason?_emit (h : c.LacksNumber known) : c.dropReason? known .emit = none := by
  apply Option.eq_none_iff_forall_ne_some.mpr
  intro reason hreason
  cases dropReason?_eq_some_iff.mp hreason with
  | function hf => simp [h.1.no_function] at hf
  | date _ htype => cases htype.symm.trans h.2.1
  | number _ _ _ hpolicy => cases hpolicy

end Condition

/-! ### Merged reports -/

section

variable {α β κ : Type} {f g : α → Option β} {l : List α} {b : β} {bs cs : List β} {le : β → β → Bool}

theorem merge_cons_left (h : ∀ c ∈ cs, le b c = true) : (b :: bs).merge cs le = b :: bs.merge cs le := by
  cases cs with
  | nil => rw [List.merge_right, List.merge_right]
  | cons c cs => exact List.cons_merge_cons_pos le bs cs (h c List.mem_cons_self)

theorem merge_cons_right (h : ∀ c ∈ cs, le c b = false) : cs.merge (b :: bs) le = b :: cs.merge bs le := by
  cases cs with
  | nil => rw [List.nil_merge, List.nil_merge]
  | cons c cs => exact List.cons_merge_cons_neg le cs bs (by simp [h c List.mem_cons_self])

/-- What two functions make of different members of one list, merged, stands in the order of the members. -/
theorem merge_filterMap {lt : κ → κ → Prop} [DecidableRel lt] (asymm : ∀ {x y}, lt x y → ¬ lt y x)
    {key : β → κ} {place : α → κ} (hf : ∀ {a b}, f a = some b → key b = place a)
    (hg : ∀ {a b}, g a = some b → key b = place a) (apart : ∀ a, (g a).isSome = true → f a = none)
    (sorted : (l.map place).Pairwise lt) :
    (l.filterMap f).merge (l.filterMap g) (fun b c => lt (key b) (key c)) =
      l.filterMap fun a => (g a).or (f a) := by
  induction l with
  | nil => exact List.nil_merge []
  | cons a l ih =>
      obtain ⟨ha, hl⟩ := List.pairwise_cons.mp sorted
      have hlt : ∀ a' ∈ l, lt (place a) (place a') := fun a' ha' => ha _ (List.mem_map_of_mem ha')
      cases hga : g a with
      | some b =>
          have hfa : f a = none := apart a (by rw [hga]; rfl)
          have hbehind : ∀ c ∈ l.filterMap f, decide (lt (key c) (key b)) = false := by
            intro c hc
            obtain ⟨a', ha', hfa'⟩ := List.mem_filterMap.mp hc
            rw [hf hfa', hg hga]
            exact decide_eq_false (asymm (hlt a' ha'))
          rw [List.filterMap_cons_none hfa, List.filterMap_cons_some hga, merge_cons_right hbehind, ih hl,
            List.filterMap_cons_some (by rw [hga]; rfl)]
      | none =>
          cases hfa : f a with
          | none =>
              rw [List.filterMap_cons_none hfa, List.filterMap_cons_none hga, ih hl,
                List.filterMap_cons_none (by rw [hga, hfa]; rfl)]
          | some b =>
              have hbehind : ∀ c ∈ l.filterMap g, decide (lt (key b) (key c)) = true := by
                intro c hc
                obtain ⟨a', ha', hga'⟩ := List.mem_filterMap.mp hc
                rw [hf hfa, hg hga']
                exact decide_eq_true (hlt a' ha')
              rw [List.filterMap_cons_some hfa, List.filterMap_cons_none hga, merge_cons_left hbehind, ih hl,
                List.filterMap_cons_some (by rw [hga, hfa]; rfl)]

end

theorem Before.asymm {x y : Nat × Nat} (h : Before x y) : ¬ Before y x := by
  intro h'
  have := Prod.lex_def.mp h
  have := Prod.lex_def.mp h'
  omega

namespace Query

/-- The places of the conditions that lack a number. -/
def numberless (q : Query) : List Place := q.places.filter fun p => p.condition.LacksNumber q.known

variable {q : Query}

theorem dropped_eq_reports {policy : NanPolicy} :
    q.dropped policy = q.places.filterMap fun p => (p.condition.dropReason? q.known policy).map p.report :=
  dropped_eq

theorem report_numberless :
    q.numberless.map (·.report .notANumber) = q.places.filterMap fun p =>
      if p.condition.LacksNumber q.known then some (p.report .notANumber) else none := by
  rw [numberless, ← List.filterMap_eq_map, List.filterMap_filter]
  simp only [decide_eq_true_eq, Function.comp_apply]

theorem dropped_drop :
    q.dropped .drop = (q.dropped .emit).merge (q.numberless.map (·.report .notANumber))
      fun d d' => Before d.index d'.index := by
  have hreport : ∀ (p : Place) (reason : DropReason), (p.report reason).index = p.index := fun _ _ => rfl
  rw [report_numberless, dropped_eq_reports, dropped_eq_reports,
    merge_filterMap Before.asymm ?_ ?_ ?_ places_pairwise]
  · refine List.filterMap_congr fun p _ => ?_
    rw [Condition.dropReason?_drop]
    by_cases h : p.condition.LacksNumber q.known <;> simp [h]
  · intro p d h
    obtain ⟨reason, -, rfl⟩ := Option.map_eq_some_iff.mp h
    exact hreport p reason
  · intro p d h
    obtain ⟨-, hd⟩ := Option.ite_none_right_eq_some.mp h
    cases hd
    exact hreport p .notANumber
  · intro p h
    by_cases hlacks : p.condition.LacksNumber q.known
    · rw [hlacks.dropReason?_emit]
      rfl
    · rw [if_neg hlacks] at h
      cases h

theorem index_mem_numberless {p : Place} (hp : p ∈ q.places) :
    p.index ∈ q.numberless.map Place.index ↔ p.condition.LacksNumber q.known := by
  rw [numberless, List.mem_map]
  constructor
  · rintro ⟨p', hp', hindex⟩
    obtain ⟨hmem, hlacks⟩ := List.mem_filter.mp hp'
    rw [← place_eq hmem hp hindex]
    exact of_decide_eq_true hlacks
  · intro h
    exact ⟨p, List.mem_filter.mpr ⟨hp, decide_eq_true h⟩, rfl⟩

theorem filter?_drop : q.filter? .drop = (q.without (q.numberless.map Place.index)).filter? .emit := by
  symm
  refine filter?_without fun p hp => ?_
  rw [Condition.expression?_drop]
  by_cases h : p.condition.LacksNumber q.known
  · rw [if_pos h, if_pos ((index_mem_numberless hp).mpr h)]
  · rw [if_neg h, if_neg fun h' => h ((index_mem_numberless hp).mp h')]

theorem text_drop : (q.compile .drop).text = ((q.without (q.numberless.map Place.index)).compile .emit).text :=
  text_eq_of_filter?_eq (q := q) filter?_drop

theorem not_mem_reasons_emit : .notANumber ∉ (q.dropped .emit).map (·.reason) := by
  intro h
  obtain ⟨d, hd, hreason⟩ := List.mem_map.mp h
  rw [dropped_eq_reports] at hd
  obtain ⟨p, -, hp⟩ := List.mem_filterMap.mp hd
  obtain ⟨reason, hdrop, rfl⟩ := Option.map_eq_some_iff.mp hp
  exact Condition.dropReason?_emit_ne (hdrop.trans (congrArg some hreason))

theorem compile_drop_eq (h : q.numberless = []) : q.compile .drop = q.compile .emit := by
  have hfilter : q.filter? .drop = q.filter? .emit := by
    rw [filter?_drop, h]
    exact filter?_without fun p _ => (if_neg List.not_mem_nil).symm
  have htext : (q.compile .drop).text = (q.compile .emit).text := text_eq_of_filter?_eq (q := q) hfilter
  have hdropped : q.dropped .drop = q.dropped .emit := by
    rw [dropped_drop, h]
    exact List.merge_right _
  calc
    q.compile .drop = ⟨(q.compile .drop).text, q.dropped .drop⟩ := rfl
    _ = ⟨(q.compile .emit).text, q.dropped .emit⟩ := by rw [htext, hdropped]
    _ = q.compile .emit := rfl

/-- The two policies compared. To drop the comparisons of number attributes with what is no number is to write the
query without them, and to report them where they stand among what is dropped anyway. Where they are written, they
are never reported; and the policies give the same if and only if there are none. -/
theorem policies_compared (q : Query) :
    (q.compile .drop).text = ((q.without (q.numberless.map Place.index)).compile .emit).text ∧
      (q.compile .drop).dropped = (q.compile .emit).dropped.merge (q.numberless.map (·.report .notANumber))
        (fun d d' => Before d.index d'.index) ∧
      .notANumber ∉ (q.compile .emit).dropped.map (·.reason) ∧
      (q.compile .drop = q.compile .emit ↔ q.numberless = []) := by
  refine ⟨text_drop, dropped_drop, not_mem_reasons_emit, ?_⟩
  constructor
  · intro h
    -- The merged list is as long as both together, so there is nothing to merge in.
    have hdropped : q.dropped .drop = q.dropped .emit := congrArg Compiled.dropped h
    have hlength := congrArg List.length (dropped_drop.symm.trans hdropped)
    rw [List.length_merge, List.length_map] at hlength
    exact List.eq_nil_of_length_eq_zero (by omega)
  · exact compile_drop_eq

/-- A report that the one policy adds stands in the middle of those of the other, and the pair of conditions becomes
a single one. -/
example :
    let q : Query := { known := some (.ofDefinitions [⟨"age", "Integer", none⟩]), groups := [
      { kind := .or, conditions := [⟨"age", .gt, some "old"⟩, ⟨"age", .eqNull, none⟩] },
      { conditions := [⟨"name", .contains, some "1"⟩] }] }
    (q.compile .emit) = ⟨"?$filter=(age gt NaN or age eq null)",
        [⟨1, 0, "name", .contains, .functionOnNonString .number⟩]⟩ ∧
      (q.compile .drop) = ⟨"?$filter=age eq null", [⟨0, 0, "age", .gt, .notANumber⟩,
        ⟨1, 0, "name", .contains, .functionOnNonString .number⟩]⟩ := by
  decide +kernel

end Query

end ODataQuery
