import ODataQuery.Proofs.Resolver.SingleFlight

/-!
What there is to see of one name in a system that serves many: the calls for it, what the caches have under it,
and the locks that the tables hold for it. Caches and tables are shared, and so is the numbering of locks. But a
step on one name leaves everything as it is that there is to see of another: for that the locks of two names must
never be the same, which holds because a lock is made by a call for the name for which the table holds it.
-/

namespace ODataQuery.Resolver

/-- What there is to see of a name: the setup, the calls for it, what the caches have under it, and of every
resolver the number of the lock that its table holds for the name, and the lock. -/
@[ext]
structure View where
  setup : Nat × List (Bool × Nat)
  calls : Nat → Option Call
  cached : Nat → Option Snapshot
  lockFor : Nat → Option Nat
  lock : Nat → Option Lock

namespace View

variable (v : View)

def put (c : Nat) (call : Option Call) : View :=
  { v with calls := fun d => if c = d then call else v.calls d }

def grant (d l : Nat) : View := v.put d ((v.calls d).map ({ · with phase := .granted l }))

def set (k : Nat) (snapshot : Snapshot) : View :=
  { v with cached := fun k' => if k = k' ∧ k < v.setup.1 then some snapshot else v.cached k' }

def delete (k : Nat) : View := { v with cached := fun k' => if k = k' then none else v.cached k' }

def onLock (l : Nat) (x : Lock) : View :=
  { v with lock := fun r => if v.lockFor r = some l then some x else v.lock r }

/-- A table comes to hold a lock with this number, or none. -/
def onTable (r : Nat) (held : Option (Nat × Lock)) : View :=
  { v with
    lockFor := fun r' => if r = r' then held.map Prod.fst else v.lockFor r'
    lock := fun r' => if r = r' then held.map Prod.snd else v.lock r' }

theorem put_none {c : Nat} (h : v.calls c = none) : v.put c none = v := by
  refine View.ext rfl (funext fun d => ?_) rfl rfl rfl
  show (if c = d then none else v.calls d) = v.calls d
  by_cases hd : c = d
  · rw [if_pos hd, ← hd, h]
  · rw [if_neg hd]

theorem grant_none {d l : Nat} (h : v.calls d = none) : v.grant d l = v := by
  rw [grant, h, Option.map_none, v.put_none h]

theorem onLock_other {l : Nat} {x : Lock} (h : ∀ r, v.lockFor r ≠ some l) : v.onLock l x = v :=
  View.ext rfl rfl rfl rfl (funext fun r => if_neg (h r))

/-- What a lock was does not matter when it is made anew. -/
theorem onLock_onTable {r l : Nat} {x : Lock} (y z : Lock) :
    (v.onTable r (some (l, y))).onLock l x = (v.onTable r (some (l, z))).onLock l x := by
  refine View.ext rfl rfl rfl rfl (funext fun r' => ?_)
  simp only [onLock, onTable]
  by_cases hr : r = r'
  · simp only [hr, if_true, Option.map_some]
  · simp only [hr, if_false, Option.map_some]

end View

namespace State

variable {s t : State} {c d k l r : Nat} {name name' : String}

def view (s : State) (name : String) : View where
  setup := s.setup
  calls c := s.calls[c]?.filter (·.name = name)
  cached k := s.cached? k name
  lockFor r := s.lockFor? r name
  lock r := (s.lockFor? r name).map s.lock

/-! ### What the operations do to a view -/

theorem view_put {call : Call} {phase : Phase} : (s.put c call phase).view name =
    (s.view name).put c (if call.name = name then some { call with phase } else none) := by
  refine View.ext rfl (funext fun d => ?_) rfl rfl rfl
  show (s.put c call phase).calls[d]?.filter (·.name = name) =
    if c = d then if call.name = name then some { call with phase } else none
    else s.calls[d]?.filter (·.name = name)
  rw [getElem?_put]
  split
  · rw [Option.filter_some]
    simp
  · rfl

theorem view_grant : (s.grant d l).view name = (s.view name).grant d l := by
  refine View.ext rfl (funext fun e => ?_) rfl rfl rfl
  show (s.grant d l).calls[e]?.filter (·.name = name) =
    if d = e then (s.calls[d]?.filter (·.name = name)).map ({ · with phase := .granted l })
    else s.calls[e]?.filter (·.name = name)
  rw [getElem?_grant]
  split
  · rw [Option.filter_map]
    rfl
  · rfl

theorem view_onLock {f : Lock → Lock} :
    (s.onLock l f).view name = (s.view name).onLock l (f (s.lock l)) := by
  refine View.ext rfl rfl rfl rfl (funext fun r => ?_)
  show (s.lockFor? r name).map (s.onLock l f).lock =
    if s.lockFor? r name = some l then some (f (s.lock l)) else (s.lockFor? r name).map s.lock
  cases s.lockFor? r name with
  | none => simp
  | some l' =>
      rw [Option.map_some, Option.map_some, lock_onLock, apply_ite some]
      simp only [Option.some.injEq, eq_comm]

theorem view_onTable {f : Std.ExtTreeMap String Nat → Std.ExtTreeMap String Nat} {held : Option Nat}
    (htable : ∀ r', (s.onTable r f).lockFor? r' name =
      if r = r' ∧ name' = name then held else s.lockFor? r' name) :
    (s.onTable r f).view name =
      if name' = name then (s.view name).onTable r (held.map fun l => (l, s.lock l)) else s.view name := by
  by_cases hname : name' = name
  · simp only [hname, and_true] at htable
    rw [if_pos hname]
    refine View.ext setup_onTable rfl rfl (funext fun r' => ?_) (funext fun r' => ?_)
    · show (s.onTable r f).lockFor? r' name =
        if r = r' then (held.map fun l => (l, s.lock l)).map Prod.fst else s.lockFor? r' name
      rw [htable, Option.map_map]
      simp only [Function.comp_def, Option.map_id']
    · show ((s.onTable r f).lockFor? r' name).map s.lock =
        if r = r' then (held.map fun l => (l, s.lock l)).map Prod.snd else (s.lockFor? r' name).map s.lock
      rw [htable, apply_ite (Option.map s.lock), Option.map_map]
      rfl
  · simp only [hname, and_false, if_false] at htable
    rw [if_neg hname]
    exact View.ext setup_onTable rfl rfl (funext htable)
      (funext fun r' => congrArg (Option.map s.lock) (htable r'))

theorem view_insert {x : Resolver} (hx : s.resolvers[r]? = some x) :
    (s.onTable r (·.insert name' l)).view name =
      if name' = name then (s.view name).onTable r (some (l, s.lock l)) else s.view name :=
  view_onTable fun _ => lockFor?_insert hx

theorem view_erase : (s.onTable r (·.erase name')).view name =
    if name' = name then (s.view name).onTable r none else s.view name :=
  view_onTable fun _ => lockFor?_erase

theorem view_look : (s.look k name').view name = s.view name :=
  View.ext setup_onCache rfl (funext fun _ => cached?_look) rfl rfl

theorem view_set {snapshot : Snapshot} : (s.onCache k (·.set name' snapshot)).view name =
    if name' = name then (s.view name).set k snapshot else s.view name := by
  have hcached : ∀ k', (s.onCache k (·.set name' snapshot)).cached? k' name =
      if k = k' ∧ name' = name ∧ k < s.caches.length then some snapshot else s.cached? k' name :=
    fun k' => cached?_set
  by_cases hname : name' = name
  · simp only [hname, true_and] at hcached
    rw [if_pos hname, hname]
    exact View.ext setup_onCache rfl (funext hcached) rfl rfl
  · simp only [hname, false_and, and_false, if_false] at hcached
    rw [if_neg hname]
    exact View.ext setup_onCache rfl (funext hcached) rfl rfl

theorem view_delete : (s.onCache k fun cache => (cache.delete name').2).view name =
    if name' = name then (s.view name).delete k else s.view name := by
  have hcached : ∀ k', (s.onCache k fun cache => (cache.delete name').2).cached? k' name =
      if k = k' ∧ name' = name then none else s.cached? k' name := fun k' => cached?_delete
  by_cases hname : name' = name
  · simp only [hname, and_true] at hcached
    rw [if_pos hname, hname]
    exact View.ext setup_onCache rfl (funext hcached) rfl rfl
  · simp only [hname, and_false, if_false] at hcached
    rw [if_neg hname]
    exact View.ext setup_onCache rfl (funext hcached) rfl rfl

theorem view_clear : (s.onCache k Cache.clear).view name = (s.view name).delete k :=
  View.ext setup_onCache rfl (funext fun _ => cached?_clear) rfl rfl

/-! ### Steps on other names -/

/-- A step of a call for a name, or on what a cache has under it. Clearing a cache is a step on every name. -/
def Concerns (s : State) (name : String) : Move → Prop
  | .start _ _ name' | .invalidate _ name' | .get _ name' | .contains _ name' | .set _ name' _
  | .delete _ name' => name' = name
  | .advance c | .answer c _ => s.calls[c]?.map (·.name) = some name
  | .clear _ => True

instance (s : State) (name : String) : ∀ m, Decidable (s.Concerns name m)
  | .start _ _ name' | .invalidate _ name' | .get _ name' | .contains _ name' | .set _ name' _
  | .delete _ name' => inferInstanceAs (Decidable (name' = name))
  | .advance c | .answer c _ => inferInstanceAs (Decidable (s.calls[c]?.map (·.name) = some name))
  | .clear _ => isTrue trivial

/-- The lock that a table holds for a name was made by a call for this name. -/
def Owned (s : State) : Prop :=
  ∀ r name l, s.lockFor? r name = some l → ∃ phase, s.calls[l]? = some ⟨r, name, phase⟩

theorem Initial.owned (h : s.Initial) : s.Owned := by
  intro r name l hl
  cases (h.tables r name).symm.trans hl

/-- A lock that was made by a call for one name is held by no table for another. -/
theorem Owned.foreign_of_maker (h : s.Owned) {phase : Phase} (hc : s.calls[l]? = some ⟨r, name', phase⟩)
    (hname : name' ≠ name) (r' : Nat) : (s.view name).lockFor r' ≠ some l := by
  intro hl
  obtain ⟨phase', hc'⟩ := h r' name l hl
  cases hc.symm.trans hc'
  exact hname rfl

theorem Owned.foreign (h : s.Owned) (hl : s.lockFor? r name' = some l) (hname : name' ≠ name) (r' : Nat) :
    (s.view name).lockFor r' ≠ some l := by
  obtain ⟨phase, hc⟩ := h r name' l hl
  exact h.foreign_of_maker hc hname r'

theorem view_calls_of_ne {call : Call} (hc : s.calls[c]? = some call) (hname : call.name ≠ name) :
    (s.view name).calls c = none := by
  show s.calls[c]?.filter (·.name = name) = none
  rw [hc, Option.filter_some_neg (by simpa using hname)]

theorem view_calls_of_fresh (hc : s.calls[c]? = none) : (s.view name).calls c = none := by
  show s.calls[c]?.filter (·.name = name) = none
  rw [hc, Option.filter_none]

theorem view_onLock_of_foreign {f : Lock → Lock} (h : ∀ r, (s.view name).lockFor r ≠ some l) :
    (s.onLock l f).view name = s.view name := by
  rw [view_onLock, View.onLock_other _ h]

theorem view_put_of_ne {u : State} {call : Call} {phase : Phase} (hu : u.view name = s.view name)
    (hname : call.name ≠ name) (hc : (s.view name).calls c = none) :
    (u.put c call phase).view name = s.view name := by
  rw [view_put, if_neg hname, hu, View.put_none _ hc]

/-- Two calls that refer to one lock are for the same name. -/
theorem Owned.same_name (h : s.Owned) (hs : s.locking.Sound) {call call' : Call} (hc : s.calls[c]? = some call)
    (hd : s.calls[d]? = some call') (hl : call.phase.standing.lock? = some l)
    (hl' : call'.phase.standing.lock? = some l) : call.name = call'.name := by
  obtain ⟨phase, hmaker⟩ := h call.resolver call.name l (hs.tabled (place_locking hc) hl)
  obtain ⟨phase', hmaker'⟩ := h call'.resolver call'.name l (hs.tabled (place_locking hd) hl')
  have hsame := Option.some.inj (hmaker.symm.trans hmaker')
  rw [Call.mk.injEq] at hsame
  exact hsame.2.1

/-- What a call does by itself is a step on its name. -/
theorem name_ne_of_not_concerns {call : Call} (hm : ¬ s.Concerns name (.advance c))
    (hc : s.calls[c]? = some call) : call.name ≠ name := by
  rintro rfl
  refine hm ?_
  rw [Concerns, hc, Option.map_some]

end State

/-- A call stays a call of its resolver for its name. -/
theorem Step.call_kept {s t : State} {m : Move} (h : Step s m t) {c r : Nat} {name : String} {phase : Phase}
    (hc : s.calls[c]? = some ⟨r, name, phase⟩) : ∃ phase', t.calls[c]? = some ⟨r, name, phase'⟩ := by
  rcases h.calls c with hsame | ⟨call, hcall, harrival⟩
  · exact ⟨phase, hsame.trans hc⟩
  · cases harrival with
    | hit fresh | miss fresh | missPlain fresh => cases hc.symm.trans fresh
    | approach hd | acquire hd | enqueue hd | handed hd | found hd | foundNone hd | ask hd | store hd | release hd
    | leave hd | tidy hd | given hd | failed hd =>
        cases hc.symm.trans hd
        exact ⟨_, hcall⟩

open State in
/-- A table comes to hold a lock only for the name of the call that makes it. -/
theorem Step.tabled {s t : State} {m : Move} (h : Step s m t) {r l : Nat} {name : String}
    (hl : t.lockFor? r name = some l) :
    s.lockFor? r name = some l ∨ ∃ phase, s.calls[l]? = some ⟨r, name, phase⟩ := by
  cases h with
  | @make c r' name' x hc hx missing =>
      change (s.onTable r' (·.insert name' c)).lockFor? r name = some l at hl
      rw [lockFor?_insert hx] at hl
      split at hl
      · rename_i hsame
        obtain ⟨rfl, rfl⟩ := hsame
        cases hl
        exact Or.inr ⟨_, hc⟩
      · exact Or.inl hl
  | @clearTable c r' name' x l' result hc hx there nobody =>
      change (s.onTable r' (·.erase name')).lockFor? r name = some l at hl
      rw [lockFor?_erase] at hl
      split at hl
      · cases hl
      · exact Or.inl hl
  | hit | miss | missPlain | take | acquire | enqueue | found | foundNone | ask | store | handOver | free | leave
  | keepTable | given | failed | invalidate | get | contains | set | delete | clear => exact Or.inl hl

theorem Step.owned {s t : State} {m : Move} (h : Step s m t) (hs : s.Owned) : t.Owned := by
  intro r name l hl
  rcases h.tabled hl with hbefore | ⟨phase, hc⟩
  · obtain ⟨phase, hc⟩ := hs r name l hbefore
    exact h.call_kept hc
  · exact h.call_kept hc

open State in
/-- A step on other names changes nothing that there is to see of a name. -/
theorem Step.view_other {s t : State} {m : Move} {name : String} (h : Step s m t) (hs : s.locking.Sound)
    (owned : s.Owned) (hm : ¬ s.Concerns name m) : t.view name = s.view name := by
  -- The lock of a call is the one that the table holds for its name.
  have foreign : ∀ {c r l : Nat} {name' : String} {phase : Phase}, s.calls[c]? = some ⟨r, name', phase⟩ →
      name' ≠ name → phase.standing.lock? = some l → ∀ r', (s.view name).lockFor r' ≠ some l := by
    intro c r l name' phase hc hname hl
    exact owned.foreign (hs.tabled (place_locking hc) hl) hname
  cases h with
  | @hit c r name' x snapshot fresh | @miss c r name' x fresh | @missPlain c r name' x fresh =>
      have hname : name' ≠ name := hm
      exact view_put_of_ne view_look hname (view_calls_of_fresh fresh)
  | take hc hx there =>
      have hname := name_ne_of_not_concerns hm hc
      exact view_put_of_ne (view_onLock_of_foreign (owned.foreign there hname)) hname (view_calls_of_ne hc hname)
  | @make c r name' x hc hx missing =>
      have hname := name_ne_of_not_concerns hm hc
      have hinsert : (s.onTable r (·.insert name' c)).view name = s.view name :=
        (view_insert hx).trans (if_neg hname)
      have hlock := view_onLock_of_foreign (f := fun _ => { users := [c] })
        (hinsert.symm ▸ owned.foreign_of_maker hc hname)
      exact view_put_of_ne (hlock.trans hinsert) hname (view_calls_of_ne hc hname)
  | acquire hc | enqueue hc | leave hc =>
      have hname := name_ne_of_not_concerns hm hc
      exact view_put_of_ne (view_onLock_of_foreign (foreign hc hname rfl)) hname (view_calls_of_ne hc hname)
  | found hc | foundNone hc =>
      have hname := name_ne_of_not_concerns hm hc
      exact view_put_of_ne view_look hname (view_calls_of_ne hc hname)
  | ask hc | keepTable hc | given hc | failed hc =>
      have hname := name_ne_of_not_concerns hm hc
      exact view_put_of_ne rfl hname (view_calls_of_ne hc hname)
  | store hc =>
      have hname := name_ne_of_not_concerns hm hc
      exact view_put_of_ne (view_set.trans (if_neg hname)) hname (view_calls_of_ne hc hname)
  | @handOver c r name' x l result next rest hc hx waiters =>
      have hname := name_ne_of_not_concerns hm hc
      have hput : (s.put c ⟨r, name', .releasing l result⟩ (.leaving l result)).view name = s.view name :=
        view_put_of_ne rfl hname (view_calls_of_ne hc hname)
      have hlock := view_onLock_of_foreign (f := ({ · with holder := some next, waiting := rest }))
        (hput.symm ▸ foreign hc hname rfl)
      -- Whoever waits for the lock is a call for the same name.
      have hnext : (s.view name).calls next = none := by
        obtain ⟨p, hp, hst⟩ := hs.queued.mp (waiters ▸ List.mem_cons_self)
        obtain ⟨call, hcall, rfl⟩ := Option.map_eq_some_iff.mp hp
        have hsame := owned.same_name hs hc hcall rfl (congrArg Standing.lock? hst)
        exact view_calls_of_ne hcall (hsame ▸ hname)
      rw [view_grant, hlock, hput, View.grant_none _ hnext]
  | @free c r name' x l result hc =>
      have hname := name_ne_of_not_concerns hm hc
      have hput : (s.put c ⟨r, name', .releasing l result⟩ (.leaving l result)).view name = s.view name :=
        view_put_of_ne rfl hname (view_calls_of_ne hc hname)
      exact (view_onLock_of_foreign (hput.symm ▸ foreign hc hname rfl)).trans hput
  | clearTable hc =>
      have hname := name_ne_of_not_concerns hm hc
      exact view_erase.trans ((if_neg hname).trans (view_put_of_ne rfl hname (view_calls_of_ne hc hname)))
  | @invalidate r name' x hx =>
      have hname : name' ≠ name := hm
      exact view_delete.trans (if_neg hname)
  | get => exact view_look
  | contains => rfl
  | @set k name' snapshot =>
      have hname : name' ≠ name := hm
      exact view_set.trans (if_neg hname)
  | @delete k name' =>
      have hname : name' ≠ name := hm
      exact view_delete.trans (if_neg hname)
  | clear => exact absurd trivial hm

end ODataQuery.Resolver
