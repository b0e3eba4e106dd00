import ODataQuery.Proofs.Filter.Reading

/-!
A chain of groups against its text. The groups of a query are meant to be combined from left to right, each
with what the groups before it have come to. The text has no parentheses for that, and its reader combines
the runs joined by `and` first. Both come to the same as long as no `and` stands behind an `or`. As soon as
one does, the two differ: let the groups before the first `or` hold, and no others. For the reader the first
run holds; from left to right the last `and` makes it false.
-/

namespace ODataQuery

def Join.combine : Join → Bool → Bool → Bool
  | .and, a, b => a && b
  | .or, a, b => a || b

namespace Grammar

section

variable {β : Type} (join : β → Join) (w : β → Bool)

/-- What a row comes to from left to right, starting from a value. -/
def inTurn (b : Bool) (row : List β) : Bool := row.foldl (fun b g => (join g).combine b (w g)) b

/-- What a row comes to by its runs. The value is that of the run which is not complete. -/
def byRuns (b : Bool) : List β → Bool
  | [] => b
  | g :: row =>
    match join g with
    | .and => byRuns (b && w g) row
    | .or => b || byRuns (w g) row

/-- An `and` comes somewhere behind an `or`. -/
def Crossed (row : List β) : Prop :=
  ∃ as g bs, row = as ++ g :: bs ∧ join g = .or ∧ ∃ g' ∈ bs, join g' = .and

end

variable {β : Type} {join : β → Join} {w : β → Bool} {row : List β}

theorem byRuns_congr {w' : β → Bool} {b : Bool} (h : ∀ g ∈ row, w g = w' g) :
    byRuns join w b row = byRuns join w' b row := by
  induction row generalizing b with
  | nil => rfl
  | cons g row ih =>
      obtain ⟨hg, hrow⟩ := List.forall_mem_cons.mp h
      rw [byRuns, byRuns, hg, ih hrow, ih hrow]

theorem inTurn_cons {b : Bool} {g : β} :
    inTurn join w b (g :: row) = inTurn join w ((join g).combine b (w g)) row := rfl

theorem byRuns_and {b : Bool} {g : β} (hg : join g = .and) :
    byRuns join w b (g :: row) = byRuns join w (b && w g) row := by
  rw [byRuns, hg]

theorem byRuns_or {b : Bool} {g : β} (hg : join g = .or) :
    byRuns join w b (g :: row) = (b || byRuns join w (w g) row) := by
  rw [byRuns, hg]

/-- The first run of a row, with any value for what comes before its second member. -/
theorem exists_runs (join : β → Join) (w : β → Bool) (g : β) (row : List β) (b : Bool) :
    ∃ run runs, (g :: row).splitBy (joined join) = (g :: run) :: runs ∧
      ((b && run.all w) || runs.any fun run => run.all w) = byRuns join w b row := by
  induction row generalizing g b with
  | nil => exact ⟨[], [], rfl, by simp [byRuns]⟩
  | cons g' row ih =>
      cases hj : join g' with
      | and =>
          obtain ⟨run, runs, hruns, hvalue⟩ := ih g' (b && w g')
          obtain ⟨run', runs', hruns', hjoined⟩ :=
            splitBy_cons_cons_of_pos (R := joined join) (a := g) (decide_eq_true hj) row
          cases hruns.symm.trans hruns'
          refine ⟨g' :: run, runs, hjoined, ?_⟩
          rw [byRuns_and hj, ← hvalue, List.all_cons, Bool.and_assoc]
      | or =>
          obtain ⟨run, runs, hruns, hvalue⟩ := ih g' (w g')
          have hsplit : joined join g g' = false := decide_eq_false (by simp [hj])
          refine ⟨[], _, splitBy_cons_cons_of_neg hsplit row, ?_⟩
          rw [byRuns_or hj, ← hvalue, hruns, List.all_nil, Bool.and_true, List.any_cons, List.all_cons]

/-- Some run holds as a whole. -/
theorem any_runs (g : β) :
    (((g :: row).splitBy (joined join)).any fun run => run.all w) = byRuns join w (w g) row := by
  obtain ⟨run, runs, hruns, hvalue⟩ := exists_runs join w g row (w g)
  rw [hruns, ← hvalue, List.any_cons, List.all_cons]

/-! ### Rows in which both come to the same -/

theorem byRuns_of_or {b : Bool} (h : ∀ g ∈ row, join g = .or) : byRuns join w b row = (b || row.any w) := by
  induction row generalizing b with
  | nil => exact (Bool.or_false b).symm
  | cons g row ih =>
      rw [byRuns_or (h g List.mem_cons_self), ih fun g' hg' => h g' (List.mem_cons_of_mem g hg'), List.any_cons]

theorem inTurn_of_or {b : Bool} (h : ∀ g ∈ row, join g = .or) : inTurn join w b row = (b || row.any w) := by
  induction row generalizing b with
  | nil => exact (Bool.or_false b).symm
  | cons g row ih =>
      rw [inTurn_cons, h g List.mem_cons_self, ih fun g' hg' => h g' (List.mem_cons_of_mem g hg'), List.any_cons,
        ← Bool.or_assoc]
      rfl

theorem Crossed.cons {g : β} (h : Crossed join row) : Crossed join (g :: row) := by
  obtain ⟨as, o, bs, rfl, ho, hbs⟩ := h
  exact ⟨g :: as, o, bs, rfl, ho, hbs⟩

theorem byRuns_eq_inTurn {b : Bool} (h : ¬ Crossed join row) :
    byRuns join w b row = inTurn join w b row := by
  induction row generalizing b with
  | nil => rfl
  | cons g row ih =>
      cases hj : join g with
      | and =>
          rw [byRuns_and hj, inTurn_cons, hj, ih fun hrow => h hrow.cons]
          rfl
      | or =>
          -- Behind this `or` there is no `and`, so the rest is a mere disjunction on both sides.
          have hor : ∀ g' ∈ row, join g' = .or := by
            intro g' hg'
            cases hj' : join g' with
            | and => exact absurd ⟨[], g, row, rfl, hj, g', hg', hj'⟩ h
            | or => rfl
          rw [byRuns_or hj, inTurn_cons, hj, byRuns_of_or hor, inTurn_of_or hor, ← Bool.or_assoc]
          rfl

/-! ### Rows in which they differ -/

/-- The first `or` with an `and` behind it is the first of all. -/
theorem Crossed.first (h : Crossed join row) :
    ∃ as g bs, row = as ++ g :: bs ∧ (∀ a ∈ as, join a = .and) ∧ join g = .or ∧
      ∃ g' ∈ bs, join g' = .and := by
  obtain ⟨as, g, bs, rfl, hg, hbs⟩ := h
  induction as with
  | nil => exact ⟨[], g, bs, rfl, by simp, hg, hbs⟩
  | cons a as ih =>
      cases hj : join a with
      | and =>
          obtain ⟨as', g', bs', hrow, has', hg', hbs'⟩ := ih
          exact ⟨a :: as', g', bs', by rw [List.cons_append, hrow]; rfl, List.forall_mem_cons.mpr ⟨hj, has'⟩,
            hg', hbs'⟩
      | or =>
          obtain ⟨g', hmem, hjoin⟩ := hbs
          exact ⟨[], a, as ++ g :: bs, rfl, by simp, hj, g',
            List.mem_append_right as (List.mem_cons_of_mem g hmem), hjoin⟩

theorem byRuns_eq_true {as bs : List β} {g : β} (has : ∀ a ∈ as, join a = .and) (hw : ∀ a ∈ as, w a = true)
    (hg : join g = .or) : byRuns join w true (as ++ g :: bs) = true := by
  induction as with
  | nil => rw [List.nil_append, byRuns_or hg, Bool.true_or]
  | cons a as ih =>
      obtain ⟨ha, has⟩ := List.forall_mem_cons.mp has
      obtain ⟨hwa, hw⟩ := List.forall_mem_cons.mp hw
      rw [List.cons_append, byRuns_and ha, hwa, Bool.true_and, ih has hw]

/-- Where nothing holds, `or` changes nothing and `and` leaves nothing true. -/
theorem inTurn_of_false {b : Bool} (hw : ∀ g ∈ row, w g = false) :
    inTurn join w b row = (b && row.all fun g => join g = .or) := by
  induction row generalizing b with
  | nil => exact (Bool.and_true b).symm
  | cons g row ih =>
      obtain ⟨hg, hrow⟩ := List.forall_mem_cons.mp hw
      rw [inTurn_cons, ih hrow, hg, List.all_cons]
      cases join g <;> simp [Join.combine]

theorem inTurn_eq_false {as bs : List β} {g : β} {b : Bool} (hw : ∀ g' ∈ g :: bs, w g' = false)
    (hbs : ∃ g' ∈ bs, join g' = .and) : inTurn join w b (as ++ g :: bs) = false := by
  obtain ⟨g', hg', hjoin⟩ := hbs
  have hall : ((g :: bs).all fun g => join g = .or) = false :=
    List.all_eq_false.mpr ⟨g', List.mem_cons_of_mem g hg', by simp [hjoin]⟩
  calc
    inTurn join w b (as ++ g :: bs) = inTurn join w (inTurn join w b as) (g :: bs) := List.foldl_append
    _ = (inTurn join w b as && (g :: bs).all fun g => join g = .or) := inTurn_of_false hw
    _ = false := by rw [hall, Bool.and_false]

end Grammar

/-- A truth, turned round where a negation stands. -/
def signed (negated : Bool) (b : Bool) : Bool := if negated then !b else b

theorem signed_signed {negated b : Bool} : signed negated (signed negated b) = b := by
  cases negated <;> simp [signed]

/-! ### The groups of a query -/

namespace KeptGroup

/-- The position of the group in the query. -/
def position (g : KeptGroup) : Nat := g.first.group

def isNegated (g : KeptGroup) : Bool := g.kind = .not

theorem value_of_conditions {g : KeptGroup} {v : Kept → Bool} {b : Bool}
    (h : ∀ k ∈ g.conditions, k.value v = b) : g.value v = signed g.isNegated b := by
  have hfirst : g.first ∈ g.conditions := List.mem_cons_self
  have hall : g.conditions.all (·.value v) = b := by
    cases b with
    | true => exact List.all_eq_true.mpr h
    | false => exact List.all_eq_false.mpr ⟨g.first, hfirst, by simp [h g.first hfirst]⟩
  have hany : g.conditions.any (·.value v) = b := by
    cases b with
    | true => exact List.any_eq_true.mpr ⟨g.first, hfirst, h g.first hfirst⟩
    | false => exact List.any_eq_false.mpr fun k hk => by simp [h k hk]
  rw [value, isNegated]
  cases g.kind with
  | and => exact hall
  | or => exact hany
  | not => exact congrArg (!·) hall

end KeptGroup

theorem Group.group_of_keptGroup? {known : Option AttributeMap} {policy : NanPolicy} {g : Group} {i : Nat}
    {kept : KeptGroup} (h : g.keptGroup? known policy i = some kept) : ∀ k ∈ kept.conditions, k.group = i := by
  intro k hk
  have hconditions : kept.conditions = g.kept known policy i := by
    rw [← keptGroup?_conditions, h]
    rfl
  exact (mem_kept.mp (hconditions ▸ hk)).1

open Grammar

namespace Query

section

variable {q : Query} {policy : NanPolicy} {g g' : KeptGroup}

theorem mem_keptGroups : g ∈ q.keptGroups policy ↔
    ∃ g', q.groups[g.position]? = some g' ∧ g'.keptGroup? q.known policy g.position = some g := by
  simp only [keptGroups, List.mem_filterMap, Prod.exists, List.mem_zipIdx_iff_getElem?]
  constructor
  · rintro ⟨g', i, hg', hkept⟩
    obtain rfl : g.position = i := Group.group_of_keptGroup? hkept g.first List.mem_cons_self
    exact ⟨g', hg', hkept⟩
  · rintro ⟨g', hg', hkept⟩
    exact ⟨g', g.position, hg', hkept⟩

theorem keptGroup_eq (hg : g ∈ q.keptGroups policy) (hg' : g' ∈ q.keptGroups policy)
    (h : g.position = g'.position) : g = g' := by
  obtain ⟨a, ha, hkept⟩ := mem_keptGroups.mp hg
  obtain ⟨a', ha', hkept'⟩ := mem_keptGroups.mp hg'
  rw [h] at ha hkept
  cases ha.symm.trans ha'
  exact Option.some.inj (hkept.symm.trans hkept')

theorem group_eq_position (hg : g ∈ q.keptGroups policy) {k : Kept} (hk : k ∈ g.conditions) :
    k.group = g.position := by
  obtain ⟨a, -, hkept⟩ := mem_keptGroups.mp hg
  exact Group.group_of_keptGroup? hkept k hk

theorem keptGroups_pairwise : (q.keptGroups policy).Pairwise fun g g' => g.position < g'.position := by
  refine List.Pairwise.filterMap _ (fun a a' h g hg g' hg' => ?_) pairwise_zipIdx
  rw [KeptGroup.position, KeptGroup.position, Group.group_of_keptGroup? hg _ List.mem_cons_self,
    Group.group_of_keptGroup? hg' _ List.mem_cons_self]
  exact h

end

variable (q : Query) (policy : NanPolicy)

/-- Atoms with which the groups have a given truth: all conditions of a group are true, or none is. -/
def atoms (w : KeptGroup → Bool) (k : Kept) : Bool :=
  match (q.keptGroups policy).find? (·.position == k.group) with
  | some g => signed k.isNegated (signed g.isNegated (w g))
  | none => false

/-- The groups combined from left to right, each with its join, given their truth. -/
def leftToRight (w : KeptGroup → Bool) : Bool :=
  match q.keptGroups policy with
  | [] => true
  | g :: rest => inTurn (·.join) w (w g) rest

/-- A reading of the filter has a value for each truth of the groups, whatever the atoms are with which the
groups have that truth; and there are such atoms. -/
structure HasValue (d : Disjunction Kept) (P : (KeptGroup → Bool) → Bool) : Prop where
  attained : ∀ w : KeptGroup → Bool, ∃ v, ∀ g ∈ q.keptGroups policy, g.value v = w g
  eval : ∀ (w : KeptGroup → Bool) (v : Kept → Bool),
    (∀ g ∈ q.keptGroups policy, g.value v = w g) → d.eval v = P w

variable {q policy}

theorem atoms_eq {w : KeptGroup → Bool} {g : KeptGroup} (hg : g ∈ q.keptGroups policy) {k : Kept}
    (hk : k ∈ g.conditions) : q.atoms policy w k = signed k.isNegated (signed g.isNegated (w g)) := by
  have hgroup : k.group = g.position := group_eq_position hg hk
  rw [atoms]
  cases hfind : (q.keptGroups policy).find? (·.position == k.group) with
  | none =>
      have hother := List.find?_eq_none.mp hfind g hg
      simp [hgroup] at hother
  | some g' =>
      have hposition : g'.position = k.group := by simpa using List.find?_some hfind
      cases keptGroup_eq hg (List.mem_of_find?_eq_some hfind) (hgroup.symm.trans hposition.symm)
      rfl

theorem value_atoms (w : KeptGroup → Bool) : ∀ g ∈ q.keptGroups policy, g.value (q.atoms policy w) = w g := by
  intro g hg
  have hvalue : ∀ k ∈ g.conditions, k.value (q.atoms policy w) = signed g.isNegated (w g) := by
    intro k hk
    exact (congrArg (signed k.isNegated) (atoms_eq hg hk)).trans signed_signed
  rw [KeptGroup.value_of_conditions hvalue, signed_signed]

/-- The text of the filter means what its groups do, and that depends on their truth alone. -/
theorem value_eq_byRuns {v : Kept → Bool} {w : KeptGroup → Bool} {g : KeptGroup} {rest : List KeptGroup}
    (hgroups : q.keptGroups policy = g :: rest) (hw : ∀ g ∈ q.keptGroups policy, g.value v = w g) :
    q.value policy v = byRuns (·.join) w (w g) rest := by
  rw [hgroups] at hw
  obtain ⟨hg, hrest⟩ := List.forall_mem_cons.mp hw
  rw [value, hgroups, any_runs, hg, byRuns_congr hrest]

/-- If the groups in front of the first such `or` hold, and no others, the runs and the turns come to different
values. -/
theorem exists_byRuns_ne {g : KeptGroup} {rest : List KeptGroup} (hgroups : q.keptGroups policy = g :: rest)
    (h : Crossed KeptGroup.join rest) :
    ∃ w : KeptGroup → Bool, byRuns (·.join) w (w g) rest = true ∧ inTurn (·.join) w (w g) rest = false := by
  obtain ⟨as, o, bs, rfl, has, ho, hbs⟩ := h.first
  have hpairwise := hgroups ▸ @keptGroups_pairwise q policy
  obtain ⟨hfront, hback, hcross⟩ := List.pairwise_append.mp (List.cons_append ▸ hpairwise)
  -- The positions ascend, so those before the `or` tell the groups in front of it from all the others.
  refine ⟨fun g' => g'.position < o.position, ?_, ?_⟩
  · have hbefore : ∀ a ∈ g :: as, decide (a.position < o.position) = true := fun a ha =>
      decide_eq_true (hcross a ha o List.mem_cons_self)
    obtain ⟨hg, has'⟩ := List.forall_mem_cons.mp hbefore
    simp only [hg]
    exact byRuns_eq_true has has' ho
  · refine inTurn_eq_false (List.forall_mem_cons.mpr ⟨decide_eq_false (lt_irrefl _), fun b hb => ?_⟩) hbs
    exact decide_eq_false ((List.pairwise_cons.mp hback).1 b hb).asymm

/-- When the text of a chain of groups means what the groups mean from left to right. The text is read in one way,
and what the reading comes to depends on the truth of the groups alone. It comes to the same as the groups from left
to right, whatever their truth, if and only if no group joined by `and` comes anywhere behind a group joined by
`or`, the first group apart. Otherwise the groups can be such that the text holds and from left to right they do
not. -/
theorem reads_left_to_right_iff (q : Query) (policy : NanPolicy) (some_kept : q.keptGroups policy ≠ []) :
    ∃ e d P, q.filter? policy = some e ∧ e.render = spell Kept.text (q.tokens policy) ∧
      d.tokens = q.tokens policy ∧ (∀ d' : Disjunction Kept, d'.tokens = q.tokens policy → d' = d) ∧
      q.HasValue policy d P ∧
      ((∀ w, P w = q.leftToRight policy w) ↔ ¬ Crossed KeptGroup.join (q.keptGroups policy).tail) ∧
      (Crossed KeptGroup.join (q.keptGroups policy).tail → ∃ w, P w = true ∧ q.leftToRight policy w = false) := by
  obtain ⟨g, rest, hgroups⟩ := List.exists_cons_of_ne_nil some_kept
  have hkept : q.kept policy ≠ [] := by
    rw [kept_eq, hgroups, List.flatMap_cons]
    exact List.cons_ne_nil g.first _
  obtain ⟨e, he⟩ := filter?_isSome hkept
  obtain ⟨d, hd, hdv⟩ := exists_reading hkept
  have hvalue : q.HasValue policy d fun w => byRuns (·.join) w (w g) rest :=
    ⟨fun w => ⟨_, value_atoms w⟩, fun w v hw => (hdv v).trans (value_eq_byRuns hgroups hw)⟩
  have hleft : ∀ w, q.leftToRight policy w = inTurn (·.join) w (w g) rest := by
    intro w
    rw [leftToRight, hgroups]
  have hcrossed : Crossed KeptGroup.join rest →
      ∃ w : KeptGroup → Bool, byRuns (·.join) w (w g) rest = true ∧ q.leftToRight policy w = false := by
    intro h
    obtain ⟨w, htext, hturn⟩ := exists_byRuns_ne hgroups h
    exact ⟨w, htext, (hleft w).trans hturn⟩
  refine ⟨e, d, _, he, (spell_tokens he).symm, hd, fun d' hd' => Disjunction.tokens_injective (hd'.trans hd.symm),
    hvalue, ?_, hgroups ▸ hcrossed⟩
  rw [hgroups, List.tail_cons]
  constructor
  · intro hsame h
    obtain ⟨w, htext, hturn⟩ := hcrossed h
    exact Bool.false_ne_true (hturn.symm.trans ((hsame w).symm.trans htext))
  · intro h w
    exact (byRuns_eq_inTurn h).trans (hleft w).symm

/-- A chain with an `and` behind an `or`, which a group that vanishes does not part. -/
theorem reads_left_to_right_iff_crossed :
    let q : Query := { groups := [
      { conditions := [⟨"name", .neNull, none⟩] },
      { kind := .or, conditions := [⟨"age", .eqNull, none⟩, ⟨"age", .neNull, none⟩], join := some .or },
      { kind := .not, join := some .or },
      { kind := .not, conditions := [⟨"city", .eqNull, none⟩] }] }
    (q.filter? .emit).map (·.render) = some "name ne null or (age eq null or age ne null) and not (city eq null)" ∧
    q.keptGroups .emit ≠ [] ∧ Crossed KeptGroup.join (q.keptGroups .emit).tail ∧
    ∃ e d P, q.filter? .emit = some e ∧ e.render = spell Kept.text (q.tokens .emit) ∧
      d.tokens = q.tokens .emit ∧ (∀ d' : Disjunction Kept, d'.tokens = q.tokens .emit → d' = d) ∧
      q.HasValue .emit d P ∧
      ((∀ w, P w = q.leftToRight .emit w) ↔ ¬ Crossed KeptGroup.join (q.keptGroups .emit).tail) ∧
      (Crossed KeptGroup.join (q.keptGroups .emit).tail → ∃ w, P w = true ∧ q.leftToRight .emit w = false) := by
  intro q
  have some_kept : q.keptGroups .emit ≠ [] := List.isEmpty_eq_false_iff.mp (by decide +kernel)
  exact ⟨by decide +kernel, some_kept, ⟨[], _, _, rfl, rfl, _, List.mem_cons_self, rfl⟩,
    reads_left_to_right_iff q .emit some_kept⟩

end Query

end ODataQuery
