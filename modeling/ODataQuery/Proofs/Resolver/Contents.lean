import ODataQuery.Proofs.Resolver.Freshness

/-!
What the caches have, told from what was written to them. A call writes at one point only, where it stores what
it was given; all else is written by those who set, remove and clear. The writes of a row of steps, one after the
other, give what every cache has under every name in the end.
-/

namespace ODataQuery.Resolver

/-- What a step writes to a cache. -/
inductive Write where
  | store (c k : Nat) (name : String) (snapshot : Snapshot)
  | set (k : Nat) (name : String) (snapshot : Snapshot)
  | remove (k : Nat) (name : String)
  | clear (k : Nat)

/-- What a cache has under a name after a write, if it had something before or not. -/
def Write.entry (k : Nat) (name : String) (before : Option Snapshot) : Write → Option Snapshot
  | store _ k' name' snapshot | set k' name' snapshot => if k' = k ∧ name' = name then some snapshot else before
  | remove k' name' => if k' = k ∧ name' = name then none else before
  | clear k' => if k' = k then none else before

/-- A write puts something under a name into a cache. -/
def Write.Fills (k : Nat) (name : String) : Write → Prop
  | store _ k' name' _ | set k' name' _ => k' = k ∧ name' = name
  | remove .. | clear _ => False

instance (k : Nat) (name : String) : ∀ w : Write, Decidable (w.Fills k name)
  | .store _ k' name' _ | .set k' name' _ => inferInstanceAs (Decidable (k' = k ∧ name' = name))
  | .remove .. | .clear _ => isFalse id

theorem Write.entry_of_not_fills {k : Nat} {name : String} {w : Write} (h : ¬ w.Fills k name) :
    w.entry k name none = none := by
  cases w with
  | store | set => exact if_neg h
  | remove | clear => exact ite_self none

namespace State

/-- What a step writes. Of the steps of calls only a store writes anything. -/
def write? (s : State) : Move → Option Write
  | .advance c =>
    match s.calls[c]? with
    | some ⟨r, name, .storing _ snapshot⟩ => (s.cacheOf? r).map fun k => .store c k name snapshot
    | _ => none
  | .invalidate r name => (s.cacheOf? r).map fun k => .remove k name
  | .set k name snapshot => some (.set k name snapshot)
  | .delete k name => some (.remove k name)
  | .clear k => some (.clear k)
  | .start .. | .answer .. | .get .. | .contains .. => none

/-- What a row of steps writes, in order. -/
def writes : State → List Move → List Write
  | _, [] => []
  | s, m :: ms => (s.write? m).toList ++ ((s.step? m).map fun t => t.writes ms).getD []

variable {s t : State} {c k r : Nat} {name : String} {m : Move} {ms ms' : List Move}

theorem write?_advance_eq_some_iff {w : Write} : s.write? (.advance c) = some w ↔
    ∃ r name lock snapshot k, s.calls[c]? = some ⟨r, name, .storing lock snapshot⟩ ∧ s.cacheOf? r = some k ∧
      w = .store c k name snapshot := by
  constructor
  · intro h
    simp only [write?] at h
    split at h
    · rename_i r name lock snapshot hc
      obtain ⟨k, hk, rfl⟩ := Option.map_eq_some_iff.mp h
      exact ⟨r, name, lock, snapshot, k, hc, hk, rfl⟩
    · cases h
  · rintro ⟨r, name, lock, snapshot, k, hc, hk, rfl⟩
    simp only [write?, hc, hk, Option.map_some]

/-- What a call stores it was given before. -/
theorem write?_eq_store_iff {snapshot : Snapshot} : s.write? m = some (.store c k name snapshot) ↔
    m = .advance c ∧ ∃ r lock, s.calls[c]? = some ⟨r, name, .storing lock snapshot⟩ ∧ s.cacheOf? r = some k := by
  constructor
  · intro h
    cases m with
    | advance d =>
        obtain ⟨r, name', lock, snapshot', k', hc, hk, hw⟩ := write?_advance_eq_some_iff.mp h
        cases hw
        exact ⟨rfl, r, lock, hc, hk⟩
    | invalidate r name' =>
        obtain ⟨_, -, hw⟩ := Option.map_eq_some_iff.mp h
        cases hw
    | _ => cases h
  · rintro ⟨rfl, r, lock, hc, hk⟩
    exact write?_advance_eq_some_iff.mpr ⟨r, name, lock, snapshot, k, hc, hk, rfl⟩

theorem write?_advance_eq_none {call : Call} (hc : s.calls[c]? = some call) (h : call.phase.given? = none) :
    s.write? (.advance c) = none := by
  refine Option.eq_none_iff_forall_not_mem.mpr fun w hw => ?_
  obtain ⟨r, name, lock, snapshot, k, hstoring, -⟩ := write?_advance_eq_some_iff.mp hw
  cases hc.symm.trans hstoring
  cases h

theorem writes_cons (step : s.step? m = some t) : s.writes (m :: ms) = (s.write? m).toList ++ t.writes ms := by
  rw [writes, step]
  rfl

theorem writes_append (run : s.run? ms = some t) : s.writes (ms ++ ms') = s.writes ms ++ t.writes ms' := by
  induction ms generalizing s with
  | nil =>
      cases run
      rfl
  | cons m ms ih =>
      obtain ⟨u, hu, hrun⟩ := run?_cons.mp run
      rw [List.cons_append, writes_cons hu, writes_cons hu, ih hrun, List.append_assoc]

end State

open State in
/-- A step changes what the caches have by its write alone. -/
theorem Step.entry {s t : State} {m : Move} (h : Step s m t) {k : Nat} (hk : k < s.caches.length) (name : String) :
    t.cached? k name = (s.write? m).toList.foldl (Write.entry k name) (s.cached? k name) := by
  have hset : ∀ k' name' snapshot, (s.onCache k' (·.set name' snapshot)).cached? k name =
      if k' = k ∧ name' = name then some snapshot else s.cached? k name := by
    intro k' name' snapshot
    rw [cached?_set]
    by_cases hsame : k' = k ∧ name' = name
    · rw [if_pos hsame, if_pos ⟨hsame.1, hsame.2, hsame.1 ▸ hk⟩]
    · rw [if_neg hsame, if_neg fun h => hsame ⟨h.1, h.2.1⟩]
  cases h with
  | @store c r name' x lock snapshot hc hx =>
      have hwrite : s.write? (.advance c) = some (.store c x.cache name' snapshot) :=
        write?_advance_eq_some_iff.mpr ⟨r, name', lock, snapshot, x.cache, hc, cacheOf?_of_resolver hx, rfl⟩
      rw [hwrite]
      exact hset x.cache name' snapshot
  | @set k' name' snapshot => exact hset k' name' snapshot
  | @invalidate r name' x hx =>
      have hwrite : s.write? (.invalidate r name') = some (.remove x.cache name') := by
        rw [write?, cacheOf?_of_resolver hx, Option.map_some]
      rw [hwrite]
      exact cached?_delete
  | delete => exact cached?_delete
  | clear => exact cached?_clear
  | hit | miss | missPlain | get => exact cached?_look
  | found hc | foundNone hc =>
      rw [write?_advance_eq_none hc rfl]
      exact cached?_look
  | take hc | make hc | acquire hc | enqueue hc | ask hc | handOver hc | free hc | leave hc | clearTable hc
  | keepTable hc =>
      rw [write?_advance_eq_none hc rfl]
      rfl
  | given | failed | contains => rfl

namespace State

variable {s t : State} {k : Nat} {ms : List Move}

/-- The writes of a row of steps give what the caches have in the end. -/
theorem cached?_eq_foldl_writes (hk : k < s.caches.length) (run : s.run? ms = some t) (name : String) :
    t.cached? k name = (s.writes ms).foldl (Write.entry k name) (s.cached? k name) := by
  induction ms generalizing s with
  | nil =>
      cases run
      rfl
  | cons m ms ih =>
      obtain ⟨u, hu, hrun⟩ := run?_cons.mp run
      have hstep := step?_cases hu
      have hlength : u.caches.length = s.caches.length := congrArg Prod.fst hstep.setup
      rw [writes_cons hu, List.foldl_append, ← hstep.entry hk name]
      exact ih (hlength ▸ hk) hrun

/-- A cache has nothing under a name if it had nothing and nothing was put there. -/
theorem cached?_eq_none_of_writes {name : String} (hk : k < s.caches.length) (run : s.run? ms = some t)
    (missing : s.cached? k name = none) (nothing : ∀ w ∈ s.writes ms, ¬ w.Fills k name) :
    t.cached? k name = none := by
  rw [cached?_eq_foldl_writes hk run, missing]
  generalize s.writes ms = ws at nothing
  induction ws with
  | nil => rfl
  | cons w ws ih =>
      rw [List.foldl_cons, Write.entry_of_not_fills (nothing w List.mem_cons_self)]
      exact ih fun w' hw' => nothing w' (List.mem_cons_of_mem _ hw')

end State

end ODataQuery.Resolver
