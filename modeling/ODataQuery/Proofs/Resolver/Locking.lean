import Mathlib.Data.List.Nodup
import Mathlib.Logic.Function.Basic
import ODataQuery.Proofs.Resolver.Step

/-!
The part of the resolvers that decides who has which lock. Of a call only its name and its relation to
the locks matter, of the rest only the tables and the locks. A step moves one call from one relation to
another, and the locks with it. What keeps two calls for one name apart is that every call refers to the
lock that the table holds for its name, from the moment at which it takes it to the moment at which it lets
go of it, although the table changes in the meantime.
-/

namespace ODataQuery.Resolver

/-- The relation of a call to the locks. -/
inductive Standing where
  /-- Will take a lock. -/
  | before
  /-- Works without a lock. -/
  | plain
  | refers (l : Nat)
  | awaits (l : Nat)
  | has (l : Nat)
  /-- Has nothing to do with locks any more. -/
  | past

/-- The lock that a call refers to. -/
def Standing.lock? : Standing → Option Nat
  | refers l | awaits l | has l => some l
  | before | plain | past => none

def Phase.standing : Phase → Standing
  | missed => .before
  | approaching l | leaving l _ => .refers l
  | waiting l => .awaits l
  | granted l | releasing l _ => .has l
  | asking lock | fetching lock | storing lock _ => lock.elim .plain .has
  | tidying _ | finished _ => .past

/-- A call as far as locks go. -/
structure Place where
  resolver : Nat
  name : String
  standing : Standing

def Call.place (call : Call) : Place := ⟨call.resolver, call.name, call.phase.standing⟩

@[ext]
structure Locking where
  place : Nat → Option Place
  table : Nat → String → Option Nat
  lock : Nat → Lock

def State.locking (s : State) : Locking where
  place c := s.calls[c]?.map Call.place
  table := s.lockFor?
  lock := s.lock

namespace Locking

/-- Puts a call into another relation to the locks. -/
def move (a : Locking) (c : Nat) (p : Place) : Locking :=
  { a with place := Function.update a.place c (some p) }

def onLock (a : Locking) (l : Nat) (x : Lock) : Locking :=
  { a with lock := Function.update a.lock l x }

/-- What the table holds for one name. -/
def onTable (a : Locking) (r : Nat) (name : String) (l : Option Nat) : Locking :=
  { a with table := fun r' name' => if r = r' ∧ name = name' then l else a.table r' name' }

/-- What a step may do to the locks. -/
inductive Turn (a : Locking) : Locking → Prop where
  | stay : Turn a a
  | enter {c : Nat} {p : Place} (fresh : a.place c = none) (apart : p.standing.lock? = none) :
      Turn a (a.move c p)
  | pass {c r name} (hc : a.place c = some ⟨r, name, .plain⟩) : Turn a (a.move c ⟨r, name, .past⟩)
  | take {c r name l} (hc : a.place c = some ⟨r, name, .before⟩) (there : a.table r name = some l) :
      Turn a ((a.onLock l { a.lock l with users := c :: (a.lock l).users }).move c ⟨r, name, .refers l⟩)
  | make {c r name} (hc : a.place c = some ⟨r, name, .before⟩) (missing : a.table r name = none) :
      Turn a (((a.onTable r name (some c)).onLock c { users := [c] }).move c ⟨r, name, .refers c⟩)
  | acquire {c r name l} (hc : a.place c = some ⟨r, name, .refers l⟩) (free : (a.lock l).holder = none) :
      Turn a ((a.onLock l { a.lock l with holder := some c }).move c ⟨r, name, .has l⟩)
  | enqueue {c r name l d} (hc : a.place c = some ⟨r, name, .refers l⟩)
      (busy : (a.lock l).holder = some d) :
      Turn a ((a.onLock l { a.lock l with waiting := (a.lock l).waiting ++ [c] }).move c
        ⟨r, name, .awaits l⟩)
  | handOver {c r name l d p rest} (hc : a.place c = some ⟨r, name, .has l⟩)
      (waiters : (a.lock l).waiting = d :: rest) (hd : a.place d = some p) :
      Turn a (((a.onLock l { a.lock l with holder := some d, waiting := rest }).move c
        ⟨r, name, .refers l⟩).move d { p with standing := .has l })
  | free {c r name l} (hc : a.place c = some ⟨r, name, .has l⟩) (nobody : (a.lock l).waiting = []) :
      Turn a ((a.onLock l { a.lock l with holder := none }).move c ⟨r, name, .refers l⟩)
  | leave {c r name l} (hc : a.place c = some ⟨r, name, .refers l⟩) :
      Turn a ((a.onLock l { a.lock l with users := (a.lock l).users.erase c }).move c ⟨r, name, .past⟩)
  | clear {r name l} (there : a.table r name = some l) (nobody : (a.lock l).users = []) :
      Turn a (a.onTable r name none)

variable {a b : Locking}

theorem place_move {c d : Nat} {p : Place} :
    (a.move c p).place d = if d = c then some p else a.place d :=
  Function.update_apply ..

@[simp]
theorem lock_move {c : Nat} {p : Place} : (a.move c p).lock = a.lock := rfl

@[simp]
theorem table_move {c : Nat} {p : Place} : (a.move c p).table = a.table := rfl

theorem lock_onLock {l l' : Nat} {x : Lock} :
    (a.onLock l x).lock l' = if l' = l then x else a.lock l' :=
  Function.update_apply ..

@[simp]
theorem table_onLock {l : Nat} {x : Lock} : (a.onLock l x).table = a.table := rfl

theorem table_onTable {r r' : Nat} {name name' : String} {l : Option Nat} :
    (a.onTable r name l).table r' name' = if r = r' ∧ name = name' then l else a.table r' name' := rfl

@[simp]
theorem lock_onTable {r : Nat} {name : String} {l : Option Nat} : (a.onTable r name l).lock = a.lock := rfl

/-- A call stands to a lock in a relation. -/
def Stands (a : Locking) (c : Nat) (st : Standing) : Prop := ∃ p, a.place c = some p ∧ p.standing = st

theorem stands_of_place {c r : Nat} {name : String} {st : Standing} (hc : a.place c = some ⟨r, name, st⟩) :
    a.Stands c st :=
  ⟨_, hc, rfl⟩

theorem Stands.unique {c : Nat} {st st' : Standing} (h : a.Stands c st) (h' : a.Stands c st') : st = st' := by
  obtain ⟨p, hp, rfl⟩ := h
  obtain ⟨q, hq, rfl⟩ := h'
  rw [Option.some.inj (hp.symm.trans hq)]

theorem stands_move {c d : Nat} {p : Place} {st : Standing} :
    (a.move c p).Stands d st ↔ if d = c then p.standing = st else a.Stands d st := by
  unfold Stands
  rw [place_move]
  by_cases hd : d = c
  · simp only [hd, if_true, Option.some.injEq, exists_eq_left']
  · simp only [hd, if_false]

/-- A call that turns from one lock, or none, to the same lock, or none, has no part in its relation to
another. -/
theorem stands_move_iff {c d r l l' : Nat} {name : String} {st st' target : Standing}
    (hc : a.place c = some ⟨r, name, st⟩) (hst : ∀ i, st.lock? = some i → i = l)
    (hst' : ∀ i, st'.lock? = some i → i = l) (htarget : target.lock? = some l') :
    (a.move c ⟨r, name, st'⟩).Stands d target ↔
      if l' = l then if d = c then st' = target else a.Stands d target else a.Stands d target := by
  rw [stands_move]
  split
  · rename_i hd
    subst hd
    split
    · rfl
    · rename_i hl
      constructor
      · rintro rfl
        exact absurd (hst' l' htarget) hl
      · intro h
        rw [(stands_of_place hc).unique h] at hst
        exact absurd (hst l' htarget) hl
  · split
    · rfl
    · rfl

/-- The calls and the locks agree, and every call refers to the lock that the table holds for its name. -/
structure Sound (a : Locking) : Prop where
  tabled : ∀ {c p l}, a.place c = some p → p.standing.lock? = some l → a.table p.resolver p.name = some l
  used : ∀ {c p l}, a.place c = some p → p.standing.lock? = some l → c ∈ (a.lock l).users
  held : ∀ {c l}, (a.lock l).holder = some c ↔ a.Stands c (.has l)
  queued : ∀ {c l}, c ∈ (a.lock l).waiting ↔ a.Stands c (.awaits l)
  nodup : ∀ {l}, (a.lock l).waiting.Nodup

/-- Nobody waits for a lock that nobody has. -/
def Served (a : Locking) : Prop := ∀ l, (a.lock l).holder = none → (a.lock l).waiting = []

/-- A lock in a table was made by a call that has taken one. -/
def Made (a : Locking) : Prop :=
  ∀ r name l, a.table r name = some l → ∃ p, a.place l = some p ∧ p.standing ≠ .before

/-- One call changes its relation to one lock, and the lock changes with it. -/
theorem Sound.change (ha : a.Sound) {c r l : Nat} {name : String} {st st' : Standing} {x : Lock}
    (hc : a.place c = some ⟨r, name, st⟩) (hst : ∀ l', st.lock? = some l' → l' = l)
    (hst' : ∀ l', st'.lock? = some l' → l' = l ∧ a.table r name = some l ∧ c ∈ x.users)
    (husers : ∀ d p, d ≠ c → a.place d = some p → p.standing.lock? = some l → d ∈ x.users)
    (hholder : ∀ d, x.holder = some d ↔ if d = c then st' = .has l else (a.lock l).holder = some d)
    (hwaiting : ∀ d, d ∈ x.waiting ↔ if d = c then st' = .awaits l else d ∈ (a.lock l).waiting)
    (hnodup : x.waiting.Nodup) : ((a.onLock l x).move c ⟨r, name, st'⟩).Sound := by
  have hstands : ∀ {d l' target}, target.lock? = some l' →
      (((a.onLock l x).move c ⟨r, name, st'⟩).Stands d target ↔
        if l' = l then if d = c then st' = target else a.Stands d target else a.Stands d target) :=
    stands_move_iff (a := a.onLock l x) hc hst fun i hi => (hst' i hi).1
  refine ⟨?_, ?_, ?_, ?_, ?_⟩
  · intro d p l' hd hl
    rw [place_move] at hd
    split at hd
    · cases hd
      obtain ⟨rfl, htable, -⟩ := hst' l' hl
      exact htable
    · exact ha.tabled hd hl
  · intro d p l' hd hl
    rw [place_move] at hd
    rw [lock_move, lock_onLock]
    by_cases hdc : d = c
    · subst hdc
      rw [if_pos rfl] at hd
      cases hd
      obtain ⟨rfl, -, hmem⟩ := hst' l' hl
      rwa [if_pos rfl]
    · rw [if_neg hdc] at hd
      split
      · rename_i hl'
        subst hl'
        exact husers d p hdc hd hl
      · exact ha.used hd hl
  · intro d l'
    rw [lock_move, lock_onLock, hstands rfl]
    split
    · rename_i hl
      subst hl
      rw [hholder, ha.held]
    · exact ha.held
  · intro d l'
    rw [lock_move, lock_onLock, hstands rfl]
    split
    · rename_i hl
      subst hl
      rw [hwaiting, ha.queued]
    · exact ha.queued
  · intro l'
    rw [lock_move, lock_onLock]
    split
    · exact hnodup
    · exact ha.nodup

/-- A call that had nothing to do with locks may do anything that has not either. -/
theorem Sound.apart (ha : a.Sound) {c : Nat} {p : Place}
    (hc : ∀ q, a.place c = some q → q.standing.lock? = none) (apart : p.standing.lock? = none) :
    (a.move c p).Sound := by
  have hstands : ∀ d l st, st.lock? = some l → ((a.move c p).Stands d st ↔ a.Stands d st) := by
    intro d l st hst
    rw [stands_move]
    by_cases hd : d = c
    · subst hd
      rw [if_pos rfl]
      constructor
      · rintro rfl
        rw [apart] at hst
        cases hst
      · rintro ⟨q, hq, rfl⟩
        rw [hc q hq] at hst
        cases hst
    · rw [if_neg hd]
  have hplace : ∀ {d q l}, (a.move c p).place d = some q → q.standing.lock? = some l →
      a.place d = some q := by
    intro d q l hd hl
    rw [place_move] at hd
    split at hd
    · cases hd
      rw [apart] at hl
      cases hl
    · exact hd
  exact ⟨fun hd hl => ha.tabled (hplace hd hl) hl, fun hd hl => ha.used (hplace hd hl) hl,
    ha.held.trans (hstands _ _ _ rfl).symm, ha.queued.trans (hstands _ _ _ rfl).symm, ha.nodup⟩

/-- The table may be changed for a name whose lock nobody refers to. -/
theorem Sound.changeTable (ha : a.Sound) {r : Nat} {name : String} {l : Option Nat}
    (nobody : ∀ {c p i}, a.place c = some p → p.standing.lock? = some i → a.table r name ≠ some i) :
    (a.onTable r name l).Sound := by
  refine ⟨?_, ha.used, ha.held, ha.queued, ha.nodup⟩
  intro c p i hc hi
  have htable := ha.tabled hc hi
  rw [table_onTable]
  split
  · rename_i h
    obtain ⟨rfl, rfl⟩ := h
    exact absurd htable (nobody hc hi)
  · exact htable

/-- Nobody refers to a lock that its maker has not made yet. -/
theorem Sound.unmade (ha : a.Sound) (hm : a.Made) {c r : Nat} {name : String}
    (hc : a.place c = some ⟨r, name, .before⟩) {d : Nat} {p : Place} (hd : a.place d = some p) :
    p.standing.lock? ≠ some c := by
  intro hl
  obtain ⟨q, hq, hne⟩ := hm _ _ _ (ha.tabled hd hl)
  rw [hc] at hq
  cases hq
  exact hne rfl

/-- A call that neither had a lock nor gets it leaves the holder of that lock alone. -/
theorem Sound.holder_iff (ha : a.Sound) {c r l : Nat} {name : String} {st st' : Standing}
    (hc : a.place c = some ⟨r, name, st⟩) (hst : st ≠ .has l) (hst' : st' ≠ .has l) (d : Nat) :
    (a.lock l).holder = some d ↔ if d = c then st' = .has l else (a.lock l).holder = some d := by
  split
  · rename_i hd
    subst hd
    rw [ha.held]
    exact ⟨fun h => absurd ((stands_of_place hc).unique h) hst, fun h => absurd h hst'⟩
  · rfl

/-- A call that neither waited for a lock nor does so now leaves the queue of that lock alone. -/
theorem Sound.waiting_iff (ha : a.Sound) {c r l : Nat} {name : String} {st st' : Standing}
    (hc : a.place c = some ⟨r, name, st⟩) (hst : st ≠ .awaits l) (hst' : st' ≠ .awaits l) (d : Nat) :
    d ∈ (a.lock l).waiting ↔ if d = c then st' = .awaits l else d ∈ (a.lock l).waiting := by
  split
  · rename_i hd
    subst hd
    rw [ha.queued]
    exact ⟨fun h => absurd ((stands_of_place hc).unique h) hst, fun h => absurd h hst'⟩
  · rfl

theorem Sound.take (ha : a.Sound) {c r l : Nat} {name : String}
    (hc : a.place c = some ⟨r, name, .before⟩) (there : a.table r name = some l) :
    ((a.onLock l { a.lock l with users := c :: (a.lock l).users }).move c ⟨r, name, .refers l⟩).Sound := by
  refine ha.change hc (by simp [Standing.lock?]) ?_ ?_ ?_ ?_ ha.nodup
  · rintro i ⟨⟩
    exact ⟨rfl, there, List.mem_cons_self⟩
  · intro d p _ hd hl
    exact List.mem_cons_of_mem _ (ha.used hd hl)
  · exact ha.holder_iff hc (by simp) (by simp)
  · exact ha.waiting_iff hc (by simp) (by simp)

theorem Sound.make (ha : a.Sound) (hm : a.Made) {c r : Nat} {name : String}
    (hc : a.place c = some ⟨r, name, .before⟩) (missing : a.table r name = none) :
    (((a.onTable r name (some c)).onLock c { users := [c] }).move c ⟨r, name, .refers c⟩).Sound := by
  have hb : (a.onTable r name (some c)).Sound := by
    apply ha.changeTable
    intro d p i _ _
    rw [missing]
    exact Option.some_ne_none i |>.symm
  have hholder : (a.lock c).holder = none := by
    apply Option.eq_none_iff_forall_not_mem.mpr
    intro d hd
    obtain ⟨p, hp, hst⟩ := ha.held.mp hd
    exact ha.unmade hm hc hp (by rw [hst]; rfl)
  have hwaiting : (a.lock c).waiting = [] := by
    apply List.eq_nil_iff_forall_not_mem.mpr
    intro d hd
    obtain ⟨p, hp, hst⟩ := ha.queued.mp hd
    exact ha.unmade hm hc hp (by rw [hst]; rfl)
  refine hb.change hc (by simp [Standing.lock?]) ?_ ?_ ?_ ?_ List.nodup_nil
  · rintro i ⟨⟩
    exact ⟨rfl, if_pos ⟨rfl, rfl⟩, List.mem_singleton_self c⟩
  · intro d p _ hd hl
    exact absurd hl (ha.unmade hm hc hd)
  · intro d
    rw [lock_onTable, hholder]
    simp
  · intro d
    rw [lock_onTable, hwaiting]
    simp

theorem Sound.acquire (ha : a.Sound) {c r l : Nat} {name : String}
    (hc : a.place c = some ⟨r, name, .refers l⟩) (free : (a.lock l).holder = none) :
    ((a.onLock l { a.lock l with holder := some c }).move c ⟨r, name, .has l⟩).Sound := by
  refine ha.change hc (by simp [Standing.lock?]) ?_ ?_ ?_ ?_ ha.nodup
  · rintro i ⟨⟩
    exact ⟨rfl, ha.tabled hc rfl, ha.used hc rfl⟩
  · intro d p _ hd hl
    exact ha.used hd hl
  · intro d
    rw [free]
    by_cases hd : d = c
    · simp [hd]
    · simp [hd, Ne.symm hd]
  · exact ha.waiting_iff hc (by simp) (by simp)

theorem Sound.enqueue (ha : a.Sound) {c r l : Nat} {name : String}
    (hc : a.place c = some ⟨r, name, .refers l⟩) :
    ((a.onLock l { a.lock l with waiting := (a.lock l).waiting ++ [c] }).move c
      ⟨r, name, .awaits l⟩).Sound := by
  have hnot : c ∉ (a.lock l).waiting := by
    intro h
    cases (stands_of_place hc).unique (ha.queued.mp h)
  refine ha.change hc (by simp [Standing.lock?]) ?_ ?_ ?_ ?_ ?_
  · rintro i ⟨⟩
    exact ⟨rfl, ha.tabled hc rfl, ha.used hc rfl⟩
  · intro d p _ hd hl
    exact ha.used hd hl
  · exact ha.holder_iff hc (by simp) (by simp)
  · intro d
    by_cases hd : d = c
    · simp [hd]
    · simp [hd]
  · exact List.concat_eq_append ▸ List.Nodup.concat hnot ha.nodup

/-- The lock is without a holder for as long as it takes to hand it on. -/
theorem Sound.giveBack (ha : a.Sound) {c r l : Nat} {name : String}
    (hc : a.place c = some ⟨r, name, .has l⟩) :
    ((a.onLock l { a.lock l with holder := none }).move c ⟨r, name, .refers l⟩).Sound := by
  refine ha.change hc (by simp [Standing.lock?]) ?_ ?_ ?_ ?_ ha.nodup
  · rintro i ⟨⟩
    exact ⟨rfl, ha.tabled hc rfl, ha.used hc rfl⟩
  · intro d p _ hd hl
    exact ha.used hd hl
  · intro d
    have hholder : (a.lock l).holder = some c := ha.held.mpr (stands_of_place hc)
    by_cases hd : d = c
    · simp [hd]
    · simp [hd, hholder, Ne.symm hd]
  · exact ha.waiting_iff hc (by simp) (by simp)

theorem Sound.handOver (ha : a.Sound) {c r l d : Nat} {name : String} {p : Place} {rest : List Nat}
    (hc : a.place c = some ⟨r, name, .has l⟩) (waiters : (a.lock l).waiting = d :: rest)
    (hd : a.place d = some p) :
    (((a.onLock l { a.lock l with holder := some d, waiting := rest }).move c
      ⟨r, name, .refers l⟩).move d { p with standing := .has l }).Sound := by
  have hb := ha.giveBack hc
  obtain ⟨q, hq, hawaits⟩ : a.Stands d (.awaits l) :=
    ha.queued.mp (by rw [waiters]; exact List.mem_cons_self)
  cases hd.symm.trans hq
  have hdc : d ≠ c := by
    rintro rfl
    cases (stands_of_place hc).unique ⟨p, hd, hawaits⟩
  obtain ⟨r', name', st⟩ := p
  cases hawaits
  have hplace : ((a.onLock l { a.lock l with holder := none }).move c ⟨r, name, .refers l⟩).place d =
      some ⟨r', name', .awaits l⟩ := by
    rw [place_move, if_neg hdc]
    exact hd
  have hnodup := ha.nodup (l := l)
  rw [waiters, List.nodup_cons] at hnodup
  have hsame : ((a.onLock l { a.lock l with holder := some d, waiting := rest }).move c
      ⟨r, name, .refers l⟩).move d ⟨r', name', .has l⟩ =
      (((a.onLock l { a.lock l with holder := none }).move c ⟨r, name, .refers l⟩).onLock l
        { a.lock l with holder := some d, waiting := rest }).move d ⟨r', name', .has l⟩ := by
    ext1
    · rfl
    · rfl
    · exact (Function.update_idem ..).symm
  rw [hsame]
  have hlock : ((a.onLock l { a.lock l with holder := none }).move c ⟨r, name, .refers l⟩).lock l =
      { a.lock l with holder := none } := Function.update_self ..
  refine hb.change hplace (by simp [Standing.lock?]) ?_ ?_ ?_ ?_ hnodup.2
  · rintro i ⟨⟩
    exact ⟨rfl, ha.tabled hd rfl, ha.used hd rfl⟩
  · intro e q _ he hl
    have h := hb.used he hl
    rwa [hlock] at h
  · intro e
    rw [hlock]
    by_cases he : e = d
    · simp [he]
    · simp [he, Ne.symm he]
  · intro e
    rw [hlock, waiters]
    by_cases he : e = d
    · subst he
      simpa using hnodup.1
    · simp [he]

theorem Sound.leave (ha : a.Sound) {c r l : Nat} {name : String}
    (hc : a.place c = some ⟨r, name, .refers l⟩) :
    ((a.onLock l { a.lock l with users := (a.lock l).users.erase c }).move c ⟨r, name, .past⟩).Sound := by
  refine ha.change hc (by simp [Standing.lock?]) (by simp [Standing.lock?]) ?_ ?_ ?_ ha.nodup
  · intro d p hne hd hl
    exact (List.mem_erase_of_ne hne).mpr (ha.used hd hl)
  · exact ha.holder_iff hc (by simp) (by simp)
  · exact ha.waiting_iff hc (by simp) (by simp)

theorem Sound.clear (ha : a.Sound) {r l : Nat} {name : String} (there : a.table r name = some l)
    (nobody : (a.lock l).users = []) : (a.onTable r name none).Sound := by
  apply ha.changeTable
  intro c p i hc hi htable
  cases there.symm.trans htable
  have h := ha.used hc hi
  rw [nobody] at h
  cases h

theorem Turn.sound (h : Turn a b) (ha : a.Sound) (hm : a.Made) : b.Sound := by
  cases h with
  | stay => exact ha
  | enter fresh apart => exact ha.apart (by simp [fresh]) apart
  | pass hc => exact ha.apart (by simp [hc, Standing.lock?]) rfl
  | take hc there => exact ha.take hc there
  | make hc missing => exact ha.make hm hc missing
  | acquire hc free => exact ha.acquire hc free
  | enqueue hc busy => exact ha.enqueue hc
  | handOver hc waiters hd => exact ha.handOver hc waiters hd
  | free hc nobody => exact ha.giveBack hc
  | leave hc => exact ha.leave hc
  | clear there nobody => exact ha.clear there nobody

theorem Served.onLock (hs : a.Served) {l : Nat} {x : Lock} (hx : x.holder = none → x.waiting = []) :
    (a.onLock l x).Served := by
  intro l' hl
  rw [lock_onLock] at hl ⊢
  split at hl
  · rename_i h
    rw [if_pos h]
    exact hx hl
  · rename_i h
    rw [if_neg h]
    exact hs l' hl

theorem Turn.served (h : Turn a b) (hs : a.Served) : b.Served := by
  cases h with
  | stay => exact hs
  | enter fresh apart => exact hs
  | pass hc => exact hs
  | @take c r name l hc there => exact hs.onLock (hs l)
  | make hc missing => exact Served.onLock hs fun _ => rfl
  | acquire hc free => exact hs.onLock (by simp)
  | enqueue hc busy => exact hs.onLock (by simp [busy])
  | handOver hc waiters hd => exact hs.onLock (by simp)
  | free hc nobody => exact hs.onLock fun _ => nobody
  | @leave c r name l hc => exact hs.onLock (hs l)
  | clear there nobody => exact hs

theorem Made.move (hm : a.Made) {c : Nat} {p : Place} (hp : p.standing ≠ .before) : (a.move c p).Made := by
  intro r name l hl
  obtain ⟨q, hq, hne⟩ := hm r name l hl
  rw [place_move]
  split
  · exact ⟨p, rfl, hp⟩
  · exact ⟨q, hq, hne⟩

theorem Turn.made (h : Turn a b) (hm : a.Made) : b.Made := by
  cases h with
  | stay => exact hm
  | enter fresh apart =>
      intro r name l hl
      obtain ⟨q, hq, hne⟩ := hm r name l hl
      refine ⟨q, ?_, hne⟩
      rw [place_move]
      split
      · rename_i h
        rw [← h, hq] at fresh
        cases fresh
      · exact hq
  | pass hc => exact Made.move hm (by simp)
  | take hc there => exact Made.move hm (by simp)
  | @make c r name hc missing =>
      intro r' name' l hl
      rw [table_move, table_onLock, table_onTable] at hl
      split at hl
      · cases hl
        refine ⟨⟨r, name, .refers c⟩, ?_, by simp⟩
        rw [place_move, if_pos rfl]
      · exact Made.move hm (by simp) r' name' l hl
  | acquire hc free => exact Made.move hm (by simp)
  | enqueue hc busy => exact Made.move hm (by simp)
  | handOver hc waiters hd => exact Made.move (Made.move hm (by simp)) (by simp)
  | free hc nobody => exact Made.move hm (by simp)
  | leave hc => exact Made.move hm (by simp)
  | @clear r name l there nobody =>
      intro r' name' l' hl
      rw [table_onTable] at hl
      split at hl
      · cases hl
      · exact hm r' name' l' hl

/-- What holds of the locks at all times. -/
structure Orderly (a : Locking) : Prop where
  sound : a.Sound
  served : a.Served
  made : a.Made

theorem Turn.orderly (h : Turn a b) (ha : a.Orderly) : b.Orderly :=
  ⟨h.sound ha.sound ha.made, h.served ha.served, h.made ha.made⟩

theorem move_self {c : Nat} {p : Place} (hc : a.place c = some p) : a.move c p = a := by
  ext1
  · change Function.update a.place c (some p) = a.place
    rw [← hc, Function.update_eq_self]
  · rfl
  · rfl

theorem Turn.same {c : Nat} {p : Place} (hc : a.place c = some p) : Turn a (a.move c p) := by
  rw [move_self hc]
  exact .stay

end Locking

namespace State

variable {s t : State}

theorem place_eq {c : Nat} : s.locking.place c = s.calls[c]?.map Call.place := rfl

theorem lock_eq : s.locking.lock = s.lock := rfl

theorem locking_put {c : Nat} {call : Call} {phase : Phase} :
    (s.put c call phase).locking = s.locking.move c ⟨call.resolver, call.name, phase.standing⟩ := by
  ext1
  · funext d
    rw [Locking.place_move, place_eq, place_eq, getElem?_put]
    by_cases hd : c = d
    · rw [if_pos hd, if_pos hd.symm]
      rfl
    · rw [if_neg hd, if_neg (Ne.symm hd)]
  · rfl
  · rfl

theorem locking_onLock {l : Nat} {f : Lock → Lock} :
    (s.onLock l f).locking = s.locking.onLock l (f (s.lock l)) := by
  ext1
  · rfl
  · rfl
  · funext l'
    rw [Locking.lock_onLock, lock_eq, lock_eq, lock_onLock]
    by_cases hl : l = l'
    · rw [if_pos hl, if_pos hl.symm]
    · rw [if_neg hl, if_neg (Ne.symm hl)]

theorem locking_insert {r l : Nat} {name : String} {x : Resolver} (hx : s.resolvers[r]? = some x) :
    (s.onTable r (·.insert name l)).locking = s.locking.onTable r name (some l) := by
  ext1
  · rfl
  · funext r' name'
    exact lockFor?_insert hx
  · rfl

theorem locking_erase {r : Nat} {name : String} :
    (s.onTable r (·.erase name)).locking = s.locking.onTable r name none := by
  ext1
  · rfl
  · funext r' name'
    exact lockFor?_erase
  · rfl

theorem locking_grant {d l : Nat} {p : Place} (hd : s.locking.place d = some p) :
    (s.grant d l).locking = s.locking.move d { p with standing := .has l } := by
  ext1
  · funext e
    rw [Locking.place_move, place_eq, place_eq, getElem?_grant]
    by_cases he : d = e
    · subst he
      rw [if_pos rfl, if_pos rfl]
      obtain ⟨call, hcall, rfl⟩ := Option.map_eq_some_iff.mp hd
      rw [hcall]
      rfl
    · rw [if_neg he, if_neg (Ne.symm he)]
  · rfl
  · rfl

theorem place_locking {c : Nat} {call : Call} (hc : s.calls[c]? = some call) :
    s.locking.place c = some call.place := by
  rw [place_eq, hc, Option.map_some]

theorem place_fresh {c : Nat} (hc : s.calls[c]? = none) : s.locking.place c = none := by
  rw [place_eq, hc, Option.map_none]

end State

open Locking State in
/-- Every step is a turn of the locks. -/
theorem Step.turn {s t : State} {m : Move} (h : Step s m t) (hs : s.locking.Sound) :
    s.locking.Turn t.locking := by
  cases h with
  | hit fresh hx found =>
      rw [locking_put]
      exact .enter (place_fresh fresh) rfl
  | miss fresh hx missing flight =>
      rw [locking_put]
      exact .enter (place_fresh fresh) rfl
  | missPlain fresh hx missing plain =>
      rw [locking_put]
      exact .enter (place_fresh fresh) rfl
  | take hc hx there =>
      rw [locking_put, locking_onLock]
      exact .take (place_locking hc) there
  | make hc hx missing =>
      rw [locking_put, locking_onLock, locking_insert hx]
      exact .make (place_locking hc) missing
  | acquire hc hx free =>
      rw [locking_put, locking_onLock]
      exact .acquire (place_locking hc) free
  | enqueue hc hx busy =>
      rw [locking_put, locking_onLock]
      exact .enqueue (place_locking hc) busy
  | found hc hx found =>
      rw [locking_put]
      exact .same (place_locking hc)
  | foundNone hc hx missing =>
      rw [locking_put]
      exact .same (place_locking hc)
  | ask hc hx =>
      rw [locking_put]
      exact .same (place_locking hc)
  | @store c r name x lock snapshot hc hx =>
      rw [locking_put]
      cases lock with
      | none => exact .pass (place_locking hc)
      | some l => exact .same (place_locking hc)
  | @handOver c r name x l result d rest hc hx waiters =>
      obtain ⟨p, hd, hst⟩ : s.locking.Stands d (.awaits l) :=
        hs.queued.mp (waiters ▸ List.mem_cons_self)
      have hdc : d ≠ c := by
        rintro rfl
        cases (stands_of_place (place_locking hc)).unique ⟨p, hd, hst⟩
      have hd' : ((s.put c ⟨r, name, .releasing l result⟩ (.leaving l result)).onLock l
          ({ · with holder := some d, waiting := rest })).locking.place d = some p := by
        rw [locking_onLock, locking_put]
        exact place_move.trans ((if_neg hdc).trans hd)
      rw [locking_grant hd', locking_onLock, locking_put]
      exact .handOver (place_locking hc) waiters hd
  | free hc hx nobody =>
      rw [locking_onLock, locking_put]
      exact .free (place_locking hc) nobody
  | leave hc hx =>
      rw [locking_put, locking_onLock]
      exact .leave (place_locking hc)
  | @clearTable c r name x l result hc hx there nobody =>
      have hsame : (s.put c ⟨r, name, .tidying result⟩ (.finished result)).locking = s.locking := by
        rw [locking_put]
        exact move_self (place_locking hc)
      rw [locking_erase, hsame]
      exact .clear there nobody
  | keepTable hc hx used =>
      rw [locking_put]
      exact .same (place_locking hc)
  | given hc =>
      rw [locking_put]
      exact .same (place_locking hc)
  | @failed c r name lock e hc =>
      rw [locking_put]
      cases lock with
      | none => exact .pass (place_locking hc)
      | some l => exact .same (place_locking hc)
  | invalidate | get | contains | set | delete | clear => exact .stay

theorem Step.orderly {s t : State} {m : Move} (h : Step s m t) (hs : s.locking.Orderly) :
    t.locking.Orderly :=
  (h.turn hs.sound).orderly hs

theorem State.Initial.orderly {s : State} (h : s.Initial) : s.locking.Orderly := by
  have hlock : ∀ l, s.locking.lock l = {} := h.locks
  have hplace : ∀ c, s.locking.place c = none := fun c => place_fresh (h.calls c)
  refine ⟨⟨?_, ?_, ?_, ?_, ?_⟩, ?_, ?_⟩
  · intro c p l hc
    rw [hplace] at hc
    cases hc
  · intro c p l hc
    rw [hplace] at hc
    cases hc
  · intro c l
    simp [hlock, Locking.Stands, hplace]
  · intro c l
    simp [hlock, Locking.Stands, hplace]
  · intro l
    simp [hlock]
  · intro l _
    rw [hlock]
  · intro r name l hl
    cases (h.tables r name).symm.trans hl

end ODataQuery.Resolver
