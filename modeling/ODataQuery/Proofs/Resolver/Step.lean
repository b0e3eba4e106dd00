import Mathlib.Data.List.Induction
import ODataQuery.Resolver.State

/-!
What one step of the resolvers does, as a relation with a case for each thing that can happen, and what a
row of steps keeps. Everything else that is proved of the resolvers goes by these cases and never opens
the step function.
-/

namespace ODataQuery.Resolver

/-- What a step may do, with what must hold before it. -/
inductive Step (s : State) : Move → State → Prop where
  | hit {c r name x snapshot} (fresh : s.calls[c]? = none) (hx : s.resolvers[r]? = some x)
      (found : s.cached? x.cache name = some snapshot) :
      Step s (.start c r name)
        ((s.look x.cache name).put c ⟨r, name, .missed⟩ (.finished (.ok snapshot)))
  | miss {c r name x} (fresh : s.calls[c]? = none) (hx : s.resolvers[r]? = some x)
      (missing : s.cached? x.cache name = none) (flight : x.singleFlight = true) :
      Step s (.start c r name) ((s.look x.cache name).put c ⟨r, name, .missed⟩ .missed)
  | missPlain {c r name x} (fresh : s.calls[c]? = none) (hx : s.resolvers[r]? = some x)
      (missing : s.cached? x.cache name = none) (plain : x.singleFlight = false) :
      Step s (.start c r name) ((s.look x.cache name).put c ⟨r, name, .missed⟩ (.asking none))
  | take {c r name x l} (hc : s.calls[c]? = some ⟨r, name, .missed⟩) (hx : s.resolvers[r]? = some x)
      (there : s.lockFor? r name = some l) :
      Step s (.advance c)
        ((s.onLock l fun y => { y with users := c :: y.users }).put c ⟨r, name, .missed⟩ (.approaching l))
  | make {c r name x} (hc : s.calls[c]? = some ⟨r, name, .missed⟩) (hx : s.resolvers[r]? = some x)
      (missing : s.lockFor? r name = none) :
      Step s (.advance c) (((s.onTable r (·.insert name c)).onLock c fun _ => { users := [c] }).put c
        ⟨r, name, .missed⟩ (.approaching c))
  | acquire {c r name x l} (hc : s.calls[c]? = some ⟨r, name, .approaching l⟩)
      (hx : s.resolvers[r]? = some x) (free : (s.lock l).holder = none) :
      Step s (.advance c)
        ((s.onLock l ({ · with holder := some c })).put c ⟨r, name, .approaching l⟩ (.granted l))
  | enqueue {c r name x l d} (hc : s.calls[c]? = some ⟨r, name, .approaching l⟩)
      (hx : s.resolvers[r]? = some x) (busy : (s.lock l).holder = some d) :
      Step s (.advance c) ((s.onLock l fun y => { y with waiting := y.waiting ++ [c] }).put c
        ⟨r, name, .approaching l⟩ (.waiting l))
  | found {c r name x l snapshot} (hc : s.calls[c]? = some ⟨r, name, .granted l⟩)
      (hx : s.resolvers[r]? = some x) (found : s.cached? x.cache name = some snapshot) :
      Step s (.advance c)
        ((s.look x.cache name).put c ⟨r, name, .granted l⟩ (.releasing l (.ok snapshot)))
  | foundNone {c r name x l} (hc : s.calls[c]? = some ⟨r, name, .granted l⟩)
      (hx : s.resolvers[r]? = some x) (missing : s.cached? x.cache name = none) :
      Step s (.advance c)
        ((s.look x.cache name).put c ⟨r, name, .granted l⟩ (.asking (some l)))
  | ask {c r name x lock} (hc : s.calls[c]? = some ⟨r, name, .asking lock⟩)
      (hx : s.resolvers[r]? = some x) :
      Step s (.advance c) (s.put c ⟨r, name, .asking lock⟩ (.fetching lock))
  | store {c r name x lock snapshot} (hc : s.calls[c]? = some ⟨r, name, .storing lock snapshot⟩)
      (hx : s.resolvers[r]? = some x) :
      Step s (.advance c) ((s.onCache x.cache (·.set name snapshot)).put c
        ⟨r, name, .storing lock snapshot⟩ (.ended lock (.ok snapshot)))
  | handOver {c r name x l result next rest} (hc : s.calls[c]? = some ⟨r, name, .releasing l result⟩)
      (hx : s.resolvers[r]? = some x) (waiters : (s.lock l).waiting = next :: rest) :
      Step s (.advance c) (((s.put c ⟨r, name, .releasing l result⟩ (.leaving l result)).onLock l
        ({ · with holder := some next, waiting := rest })).grant next l)
  | free {c r name x l result} (hc : s.calls[c]? = some ⟨r, name, .releasing l result⟩)
      (hx : s.resolvers[r]? = some x) (nobody : (s.lock l).waiting = []) :
      Step s (.advance c) ((s.put c ⟨r, name, .releasing l result⟩ (.leaving l result)).onLock l
        ({ · with holder := none }))
  | leave {c r name x l result} (hc : s.calls[c]? = some ⟨r, name, .leaving l result⟩)
      (hx : s.resolvers[r]? = some x) :
      Step s (.advance c) ((s.onLock l fun y => { y with users := y.users.erase c }).put c
        ⟨r, name, .leaving l result⟩ (.tidying result))
  | clearTable {c r name x l result} (hc : s.calls[c]? = some ⟨r, name, .tidying result⟩)
      (hx : s.resolvers[r]? = some x) (there : s.lockFor? r name = some l)
      (nobody : (s.lock l).users = []) :
      Step s (.advance c)
        ((s.put c ⟨r, name, .tidying result⟩ (.finished result)).onTable r (·.erase name))
  | keepTable {c r name x result} (hc : s.calls[c]? = some ⟨r, name, .tidying result⟩)
      (hx : s.resolvers[r]? = some x) (used : ∀ l, s.lockFor? r name = some l → (s.lock l).users ≠ []) :
      Step s (.advance c) (s.put c ⟨r, name, .tidying result⟩ (.finished result))
  | given {c r name lock map} (hc : s.calls[c]? = some ⟨r, name, .fetching lock⟩) :
      Step s (.answer c (.ok map)) (s.put c ⟨r, name, .fetching lock⟩ (.storing lock ⟨c, map⟩))
  | failed {c r name lock e} (hc : s.calls[c]? = some ⟨r, name, .fetching lock⟩) :
      Step s (.answer c (.error e)) (s.put c ⟨r, name, .fetching lock⟩ (.ended lock (.error e)))
  | invalidate {r name x} (hx : s.resolvers[r]? = some x) :
      Step s (.invalidate r name) (s.onCache x.cache fun cache => (cache.delete name).2)
  | get {k name} : Step s (.get k name) (s.look k name)
  | contains {k name} : Step s (.contains k name) s
  | set {k name snapshot} : Step s (.set k name snapshot) (s.onCache k (·.set name snapshot))
  | delete {k name} : Step s (.delete k name) (s.onCache k fun cache => (cache.delete name).2)
  | clear {k} : Step s (.clear k) (s.onCache k Cache.clear)

namespace State

variable {s t : State}

theorem start?_cases {c r : Nat} {name : String} (h : s.start? c r name = some t) :
    Step s (.start c r name) t := by
  simp only [start?, Option.bind_eq_bind, Option.bind_eq_some_iff] at h
  obtain ⟨x, hx, h⟩ := h
  split at h
  · cases h
  · rename_i hfresh
    have fresh : s.calls[c]? = none := by
      simpa using hfresh
    split at h
    · rename_i snapshot hfound
      cases h
      exact .hit fresh hx hfound
    · rename_i hmissing
      cases h
      cases hflight : x.singleFlight with
      | true => exact .miss fresh hx hmissing hflight
      | false => exact .missPlain fresh hx hmissing hflight

theorem advance?_cases {c : Nat} (h : s.advance? c = some t) : Step s (.advance c) t := by
  simp only [advance?, Option.bind_eq_bind, Option.bind_eq_some_iff] at h
  obtain ⟨⟨r, name, phase⟩, hc, x, hx, h⟩ := h
  cases phase with
  | missed =>
      cases h
      cases hl : s.lockFor? r name with
      | some l => simpa only [takeLock, hl] using Step.take hc hx hl
      | none => simpa only [takeLock, hl] using Step.make hc hx hl
  | approaching l =>
      cases h
      cases hl : (s.lock l).holder with
      | none => simpa only [request, hl] using Step.acquire hc hx hl
      | some d => simpa only [request, hl] using Step.enqueue hc hx hl
  | granted l =>
      cases h
      cases hs : s.cached? x.cache name with
      | some snapshot => simpa only [lookAgain, hs] using Step.found hc hx hs
      | none => simpa only [lookAgain, hs] using Step.foundNone hc hx hs
  | asking lock =>
      cases h
      exact .ask hc hx
  | storing lock snapshot =>
      cases h
      exact .store hc hx
  | releasing l result =>
      cases h
      cases hq : (s.lock l).waiting with
      | cons next rest => simpa only [release, hq] using Step.handOver hc hx hq
      | nil => simpa only [release, hq] using Step.free hc hx hq
  | leaving l result =>
      cases h
      exact .leave hc hx
  | tidying result =>
      cases h
      cases hl : s.lockFor? r name with
      | none => simpa only [tidy, hl] using Step.keepTable hc hx (by simp [hl])
      | some l =>
          by_cases hu : (s.lock l).users = []
          · simpa only [tidy, hl, hu, if_true] using Step.clearTable hc hx hl hu
          · simpa only [tidy, hl, if_neg hu] using Step.keepTable hc hx (by simpa [hl] using hu)
  | waiting l => cases h
  | fetching lock => cases h
  | finished result => cases h

theorem answer?_cases {c : Nat} {answer : Except ProviderError AttributeMap}
    (h : s.answer? c answer = some t) : Step s (.answer c answer) t := by
  simp only [answer?, Option.bind_eq_bind, Option.bind_eq_some_iff] at h
  obtain ⟨⟨r, name, phase⟩, hc, h⟩ := h
  cases phase with
  | fetching lock =>
      cases answer with
      | ok map =>
          cases h
          exact .given hc
      | error e =>
          cases h
          exact .failed hc
  | _ => cases h

theorem step?_cases {m : Move} (h : s.step? m = some t) : Step s m t := by
  cases m with
  | start c r name => exact start?_cases h
  | advance c => exact advance?_cases h
  | answer c answer => exact answer?_cases h
  | invalidate r name =>
      simp only [step?, invalidate?, Option.bind_eq_bind, Option.bind_eq_some_iff] at h
      obtain ⟨x, hx, h⟩ := h
      cases h
      exact .invalidate hx
  | get k name =>
      cases h
      exact .get
  | contains k name =>
      cases h
      exact .contains
  | set k name snapshot =>
      cases h
      exact .set
  | delete k name =>
      cases h
      exact .delete
  | clear k =>
      cases h
      exact .clear

/-- The cases are all of what the step function does: each of them can be taken. -/
theorem step?_of_step {m : Move} (h : Step s m t) : s.step? m = some t := by
  have hnew : ∀ {c : Nat}, s.calls[c]? = none → ¬ c ∈ s.calls := fun fresh => by simpa using fresh
  cases h with
  | hit fresh hx found => simp [step?, start?, hx, hnew fresh, found]
  | miss fresh hx missing flight => simp [step?, start?, hx, hnew fresh, missing, flight]
  | missPlain fresh hx missing plain => simp [step?, start?, hx, hnew fresh, missing, plain]
  | take hc hx there => simp [step?, advance?, hc, hx, takeLock, there]
  | make hc hx missing => simp [step?, advance?, hc, hx, takeLock, missing]
  | acquire hc hx free => simp [step?, advance?, hc, hx, request, free]
  | enqueue hc hx busy => simp [step?, advance?, hc, hx, request, busy]
  | found hc hx found => simp [step?, advance?, hc, hx, lookAgain, found]
  | foundNone hc hx missing => simp [step?, advance?, hc, hx, lookAgain, missing]
  | ask hc hx => simp [step?, advance?, hc, hx]
  | store hc hx => simp [step?, advance?, hc, hx, store]
  | handOver hc hx waiters => simp [step?, advance?, hc, hx, release, waiters]
  | free hc hx nobody => simp [step?, advance?, hc, hx, release, nobody]
  | leave hc hx => simp [step?, advance?, hc, hx, leave]
  | clearTable hc hx there nobody => simp [step?, advance?, hc, hx, tidy, there, nobody]
  | @keepTable c r name x result hc hx used =>
      cases hl : s.lockFor? r name with
      | none => simp [step?, advance?, hc, hx, tidy, hl]
      | some l => simp [step?, advance?, hc, hx, tidy, hl, used l hl]
  | given hc => simp [step?, answer?, hc]
  | failed hc => simp [step?, answer?, hc]
  | invalidate hx => simp [step?, invalidate?, hx]
  | get | contains | set | delete | clear => rfl

/-! ### The parts of a state after a step -/

theorem getElem?_put {c d : Nat} {call : Call} {phase : Phase} :
    (s.put c call phase).calls[d]? =
      if c = d then some ⟨call.resolver, call.name, phase⟩ else s.calls[d]? := by
  simp only [put, Std.ExtTreeMap.getElem?_insert, Std.compare_eq_iff_eq]

theorem getElem?_grant {d e l : Nat} :
    (s.grant d l).calls[e]? =
      if d = e then s.calls[d]?.map fun call => ⟨call.resolver, call.name, .granted l⟩
      else s.calls[e]? := by
  simp only [grant, Std.ExtTreeMap.getElem?_modify, Std.compare_eq_iff_eq]

theorem lock_onLock {l l' : Nat} {f : Lock → Lock} :
    (s.onLock l f).lock l' = if l = l' then f (s.lock l) else s.lock l' := by
  simp only [onLock, lock, Std.ExtTreeMap.getElem?_insert, Std.compare_eq_iff_eq]
  split <;> simp

theorem getElem?_onTable {r r' : Nat} {f : Std.ExtTreeMap String Nat → Std.ExtTreeMap String Nat} :
    (s.onTable r f).resolvers[r']? =
      s.resolvers[r']?.map fun x => if r = r' then { x with table := f x.table } else x := by
  simp only [onTable, List.getElem?_modify, Option.map_eq_map]

theorem lockFor?_insert {r r' l : Nat} {name name' : String} {x : Resolver}
    (hx : s.resolvers[r]? = some x) :
    (s.onTable r (·.insert name l)).lockFor? r' name' =
      if r = r' ∧ name = name' then some l else s.lockFor? r' name' := by
  simp only [lockFor?, getElem?_onTable]
  by_cases hr : r = r'
  · subst hr
    simp only [hx, Option.map_some, Option.bind_some, if_true, true_and,
      Std.ExtTreeMap.getElem?_insert, Std.compare_eq_iff_eq]
  · simp only [hr, if_false, false_and, Option.map_id']

theorem lockFor?_erase {r r' : Nat} {name name' : String} :
    (s.onTable r (·.erase name)).lockFor? r' name' =
      if r = r' ∧ name = name' then none else s.lockFor? r' name' := by
  simp only [lockFor?, getElem?_onTable]
  by_cases hr : r = r'
  · subst hr
    cases s.resolvers[r]? with
    | none => simp
    | some x =>
        simp only [Option.map_some, Option.bind_some, if_true, true_and,
          Std.ExtTreeMap.getElem?_erase, Std.compare_eq_iff_eq]
  · simp only [hr, if_false, false_and, Option.map_id']

theorem cached?_onCache {k k' : Nat} {name : String} {f : Cache Snapshot → Cache Snapshot} :
    (s.onCache k f).cached? k' name =
      s.caches[k']?.bind fun cache => (if k = k' then f cache else cache).entries[name]? := by
  simp only [cached?, onCache, List.getElem?_modify, Option.map_eq_map]
  cases s.caches[k']? <;> simp

@[simp]
theorem cached?_look {k k' : Nat} {name name' : String} :
    (s.look k name).cached? k' name' = s.cached? k' name' := by
  rw [look, cached?_onCache, cached?]
  congr 1
  funext cache
  by_cases hk : k = k'
  · rw [if_pos hk, Cache.get]
    cases cache.entries[name]? <;> rfl
  · rw [if_neg hk]

theorem cached?_set {k k' : Nat} {name name' : String} {snapshot : Snapshot} :
    (s.onCache k (·.set name snapshot)).cached? k' name' =
      if k = k' ∧ name = name' ∧ k < s.caches.length then some snapshot else s.cached? k' name' := by
  rw [cached?_onCache, cached?]
  by_cases hk' : k = k'
  · subst hk'
    by_cases hk : k < s.caches.length
    · simp only [List.getElem?_eq_getElem hk, Option.bind_some, if_true, true_and, hk, and_true, Cache.set,
        Std.ExtTreeMap.getElem?_insert, Std.compare_eq_iff_eq]
    · simp only [List.getElem?_eq_none (Nat.le_of_not_lt hk), Option.bind_none, hk, and_false, if_false]
  · simp only [hk', if_false, false_and]

theorem cached?_delete {k k' : Nat} {name name' : String} :
    (s.onCache k fun cache => (cache.delete name).2).cached? k' name' =
      if k = k' ∧ name = name' then none else s.cached? k' name' := by
  rw [cached?_onCache]
  by_cases hk' : k = k'
  · subst hk'
    cases hc : s.caches[k]? with
    | none => simp [cached?, hc]
    | some cache =>
        simp only [cached?, hc, Option.bind_some, if_true, true_and, Cache.delete,
          Std.ExtTreeMap.getElem?_erase, Std.compare_eq_iff_eq]
  · simp only [hk', if_false, false_and, cached?]

theorem cached?_clear {k k' : Nat} {name : String} :
    (s.onCache k Cache.clear).cached? k' name = if k = k' then none else s.cached? k' name := by
  rw [cached?_onCache]
  by_cases hk : k = k'
  · cases hc : s.caches[k']? <;> simp [hk, Cache.clear]
  · simp only [hk, if_false, cached?]

/-! ### What no step changes -/

/-- The number of caches, and of every resolver how it fetches and which cache it uses. -/
def setup (s : State) : Nat × List (Bool × Nat) :=
  (s.caches.length, s.resolvers.map fun x => (x.singleFlight, x.cache))

theorem setup_onCache {k : Nat} {f : Cache Snapshot → Cache Snapshot} :
    (s.onCache k f).setup = s.setup := by
  simp only [setup, onCache, List.length_modify]

theorem setup_onTable {r : Nat} {f : Std.ExtTreeMap String Nat → Std.ExtTreeMap String Nat} :
    (s.onTable r f).setup = s.setup := by
  refine Prod.ext rfl (List.ext_getElem? fun i => ?_)
  show ((s.onTable r f).resolvers.map _)[i]? = (s.resolvers.map _)[i]?
  rw [List.getElem?_map, List.getElem?_map, getElem?_onTable, Option.map_map]
  congr 1
  funext x
  by_cases hr : r = i
  · simp only [Function.comp_apply, if_pos hr]
  · simp only [Function.comp_apply, if_neg hr]

/-! ### Rows of steps -/

/-- Every step of a row meets a condition in the state from which it is taken. -/
def Each (p : State → Move → Prop) : State → List Move → Prop
  | _, [] => True
  | s, m :: ms => p s m ∧ ∀ t, s.step? m = some t → Each p t ms

instance decidableEach (p : State → Move → Prop) [∀ s m, Decidable (p s m)] : ∀ s ms, Decidable (Each p s ms)
  | _, [] => isTrue trivial
  | s, m :: ms =>
    match hstep : s.step? m with
    | none => decidable_of_iff (p s m) (by simp [Each, hstep])
    | some t =>
      have := decidableEach p t ms
      decidable_of_iff (p s m ∧ Each p t ms) (by simp [Each, hstep])

theorem run?_cons {m : Move} {ms : List Move} :
    s.run? (m :: ms) = some t ↔ ∃ u, s.step? m = some u ∧ u.run? ms = some t := by
  simp only [run?, Option.bind_eq_some_iff]

theorem run?_append {ms ms' : List Move} :
    s.run? (ms ++ ms') = some t ↔ ∃ u, s.run? ms = some u ∧ u.run? ms' = some t := by
  induction ms generalizing s with
  | nil => simp [run?]
  | cons m ms ih =>
      simp only [List.cons_append, run?_cons, ih]
      constructor
      · rintro ⟨u, hu, v, hv, hrun⟩
        exact ⟨v, ⟨u, hu, hv⟩, hrun⟩
      · rintro ⟨v, ⟨u, hu, hv⟩, hrun⟩
        exact ⟨u, hu, v, hv, hrun⟩

/-- What every step keeps that meets a condition, a row of such steps keeps. -/
theorem run?_keeps {p : State → Move → Prop} {P : State → Prop}
    (keep : ∀ {s m t}, P s → p s m → Step s m t → P t) {ms : List Move} (hp : s.Each p ms) (hs : P s)
    (run : s.run? ms = some t) : P t := by
  induction ms generalizing s with
  | nil =>
      cases run
      exact hs
  | cons m ms ih =>
      obtain ⟨u, hu, hrun⟩ := run?_cons.mp run
      exact ih (hp.2 u hu) (keep hs hp.1 (step?_cases hu)) hrun

theorem each_true {ms : List Move} : s.Each (fun _ _ => True) ms := by
  induction ms generalizing s with
  | nil => trivial
  | cons m ms ih => exact ⟨trivial, fun _ _ => ih⟩

theorem each_append {p : State → Move → Prop} {ms ms' : List Move} (run : s.run? ms = some t) :
    s.Each p (ms ++ ms') ↔ s.Each p ms ∧ t.Each p ms' := by
  induction ms generalizing s with
  | nil =>
      cases run
      exact (and_iff_right trivial).symm
  | cons m ms ih =>
      obtain ⟨u, hu, hrun⟩ := run?_cons.mp run
      have hnext : ∀ ns, (∀ v, s.step? m = some v → v.Each p ns) ↔ u.Each p ns := fun ns =>
        ⟨fun h => h u hu, fun h v hv => Option.some.inj (hu.symm.trans hv) ▸ h⟩
      rw [List.cons_append, Each, Each, hnext, hnext, ih hrun, and_assoc]

/-- What holds of a row of steps and the state it leads to, if every further step keeps it. -/
theorem run?_history {P : List Move → State → Prop} {q : Move → Prop} {ms : List Move} (start : P [] s)
    (keep : ∀ {ms t m u}, s.run? ms = some t → P ms t → q m → t.step? m = some u → P (ms ++ [m]) u)
    (hq : ∀ m ∈ ms, q m) (run : s.run? ms = some t) : P ms t := by
  induction ms using List.reverseRecOn generalizing t with
  | nil =>
      cases run
      exact start
  | append_singleton ms m ih =>
      obtain ⟨u, hu, hlast⟩ := run?_append.mp run
      obtain ⟨v, hv, hend⟩ := run?_cons.mp hlast
      cases hend
      exact keep hu (ih (fun m' hm' => hq m' (List.mem_append_left _ hm')) hu) (hq m (by simp)) hv

/-- What every step keeps, every row of steps keeps. -/
theorem run?_invariant {P : State → Prop} (keep : ∀ {s m t}, P s → Step s m t → P t) {ms : List Move}
    (hs : P s) (run : s.run? ms = some t) : P t :=
  run?_keeps (fun h _ => keep h) each_true hs run

/-- What holds at the start of a row of steps holds at its end, or there is a first step that ends it. -/
theorem run?_until {P : State → Prop} {ms : List Move} (hs : P s) (run : s.run? ms = some t) :
    P t ∨ ∃ before m after u v, ms = before ++ m :: after ∧ s.run? before = some u ∧ P u ∧
      u.step? m = some v ∧ ¬ P v ∧ v.run? after = some t := by
  induction ms generalizing s with
  | nil =>
      cases run
      exact Or.inl hs
  | cons m ms ih =>
      obtain ⟨u, hu, hrun⟩ := run?_cons.mp run
      by_cases hP : P u
      · rcases ih hP hrun with h | ⟨before, m', after, v, w, rfl, hv, hPv, hstep, hPw, hafter⟩
        · exact Or.inl h
        · exact Or.inr ⟨m :: before, m', after, v, w, rfl, run?_cons.mpr ⟨u, hu, hv⟩, hPv, hstep,
            hPw, hafter⟩
      · exact Or.inr ⟨[], m, ms, s, u, rfl, rfl, hs, hu, hP, hrun⟩

/-- Nobody has called yet. Every resolver has its cache, which may hold anything. -/
structure Initial (s : State) : Prop where
  calls : ∀ c : Nat, s.calls[c]? = none
  locks : ∀ l, s.lock l = {}
  tables : ∀ r name, s.lockFor? r name = none
  caches : ∀ {r : Nat} {x : Resolver}, s.resolvers[r]? = some x → x.cache < s.caches.length

end State

/-- How a call may come to where a step takes it, with what must hold before. -/
inductive Arrival (s : State) : Move → Nat → Call → Prop where
  | hit {c r name x snapshot} (fresh : s.calls[c]? = none) (hx : s.resolvers[r]? = some x)
      (found : s.cached? x.cache name = some snapshot) :
      Arrival s (.start c r name) c ⟨r, name, .finished (.ok snapshot)⟩
  | miss {c r name x} (fresh : s.calls[c]? = none) (hx : s.resolvers[r]? = some x)
      (missing : s.cached? x.cache name = none) (flight : x.singleFlight = true) :
      Arrival s (.start c r name) c ⟨r, name, .missed⟩
  | missPlain {c r name x} (fresh : s.calls[c]? = none) (hx : s.resolvers[r]? = some x)
      (missing : s.cached? x.cache name = none) (plain : x.singleFlight = false) :
      Arrival s (.start c r name) c ⟨r, name, .asking none⟩
  | approach {c r name l} (hc : s.calls[c]? = some ⟨r, name, .missed⟩) :
      Arrival s (.advance c) c ⟨r, name, .approaching l⟩
  | acquire {c r name l} (hc : s.calls[c]? = some ⟨r, name, .approaching l⟩)
      (free : (s.lock l).holder = none) : Arrival s (.advance c) c ⟨r, name, .granted l⟩
  | enqueue {c r name l} (hc : s.calls[c]? = some ⟨r, name, .approaching l⟩) :
      Arrival s (.advance c) c ⟨r, name, .waiting l⟩
  /-- Another call hands over the lock. -/
  | handed {c d r name phase l rest} (hc : s.calls[c]? = some ⟨r, name, phase⟩)
      (first : (s.lock l).waiting = c :: rest) : Arrival s (.advance d) c ⟨r, name, .granted l⟩
  | found {c r name x l snapshot} (hc : s.calls[c]? = some ⟨r, name, .granted l⟩)
      (hx : s.resolvers[r]? = some x) (found : s.cached? x.cache name = some snapshot) :
      Arrival s (.advance c) c ⟨r, name, .releasing l (.ok snapshot)⟩
  | foundNone {c r name x l} (hc : s.calls[c]? = some ⟨r, name, .granted l⟩)
      (hx : s.resolvers[r]? = some x) (missing : s.cached? x.cache name = none) :
      Arrival s (.advance c) c ⟨r, name, .asking (some l)⟩
  | ask {c r name lock} (hc : s.calls[c]? = some ⟨r, name, .asking lock⟩) :
      Arrival s (.advance c) c ⟨r, name, .fetching lock⟩
  | store {c r name lock snapshot} (hc : s.calls[c]? = some ⟨r, name, .storing lock snapshot⟩) :
      Arrival s (.advance c) c ⟨r, name, .ended lock (.ok snapshot)⟩
  | release {c r name l result} (hc : s.calls[c]? = some ⟨r, name, .releasing l result⟩) :
      Arrival s (.advance c) c ⟨r, name, .leaving l result⟩
  | leave {c r name l result} (hc : s.calls[c]? = some ⟨r, name, .leaving l result⟩) :
      Arrival s (.advance c) c ⟨r, name, .tidying result⟩
  | tidy {c r name result} (hc : s.calls[c]? = some ⟨r, name, .tidying result⟩) :
      Arrival s (.advance c) c ⟨r, name, .finished result⟩
  | given {c r name lock map} (hc : s.calls[c]? = some ⟨r, name, .fetching lock⟩) :
      Arrival s (.answer c (.ok map)) c ⟨r, name, .storing lock ⟨c, map⟩⟩
  | failed {c r name lock e} (hc : s.calls[c]? = some ⟨r, name, .fetching lock⟩) :
      Arrival s (.answer c (.error e)) c ⟨r, name, .ended lock (.error e)⟩

open State in
/-- A step leaves a call where it is, or takes it somewhere. -/
theorem Step.calls {s t : State} {m : Move} (h : Step s m t) (d : Nat) :
    t.calls[d]? = s.calls[d]? ∨ ∃ call, t.calls[d]? = some call ∧ Arrival s m d call := by
  have hput : ∀ {u : State} {c : Nat} {call : Call} {phase : Phase}, u.calls = s.calls →
      Arrival s m c ⟨call.resolver, call.name, phase⟩ →
      ((u.put c call phase).calls[d]? = s.calls[d]? ∨
        ∃ call', (u.put c call phase).calls[d]? = some call' ∧ Arrival s m d call') := by
    intro u c call phase hu harrival
    rw [getElem?_put]
    split
    · rename_i hcd
      subst hcd
      exact Or.inr ⟨_, rfl, harrival⟩
    · rw [hu]
      exact Or.inl rfl
  cases h with
  | hit fresh hx found => exact hput rfl (.hit fresh hx found)
  | miss fresh hx missing flight => exact hput rfl (.miss fresh hx missing flight)
  | missPlain fresh hx missing plain => exact hput rfl (.missPlain fresh hx missing plain)
  | take hc | make hc => exact hput rfl (.approach hc)
  | acquire hc hx free => exact hput rfl (.acquire hc free)
  | enqueue hc => exact hput rfl (.enqueue hc)
  | found hc hx found => exact hput rfl (.found hc hx found)
  | foundNone hc hx missing => exact hput rfl (.foundNone hc hx missing)
  | ask hc => exact hput rfl (.ask hc)
  | store hc => exact hput rfl (.store hc)
  | @handOver c r name x l result next rest hc hx waiters =>
      rw [getElem?_grant]
      split
      · rename_i hnext
        subst hnext
        show Option.map _ (s.put c _ _).calls[next]? = _ ∨
          ∃ _, Option.map _ (s.put c _ _).calls[next]? = _ ∧ _
        rw [getElem?_put]
        cases hd : s.calls[next]? with
        | none =>
            have hne : c ≠ next := by
              rintro rfl
              cases hc.symm.trans hd
            rw [if_neg hne]
            exact Or.inl rfl
        | some call =>
            refine Or.inr ⟨⟨call.resolver, call.name, .granted l⟩, ?_, .handed hd waiters⟩
            split
            · rename_i hcn
              subst hcn
              cases hc.symm.trans hd
              rfl
            · rfl
      · exact hput (u := s) rfl (.release hc)
  | free hc => exact hput (u := s) rfl (.release hc)
  | leave hc => exact hput rfl (.leave hc)
  | clearTable hc => exact hput (u := s) rfl (.tidy hc)
  | keepTable hc => exact hput rfl (.tidy hc)
  | given hc => exact hput rfl (.given hc)
  | failed hc => exact hput rfl (.failed hc)
  | invalidate | get | contains | set | delete | clear => exact Or.inl rfl

open State in
/-- What a cache has it had before, or a call stores it, or somebody puts it there. -/
theorem Step.cached {s t : State} {m : Move} (h : Step s m t) {k : Nat} {name : String} {snapshot : Snapshot}
    (hcached : t.cached? k name = some snapshot) :
    s.cached? k name = some snapshot ∨
      (∃ (c r : Nat) (lock : Option Nat) (x : Resolver), m = .advance c ∧
        s.calls[c]? = some ⟨r, name, .storing lock snapshot⟩ ∧ s.resolvers[r]? = some x ∧ x.cache = k) ∨
      m = .set k name snapshot := by
  cases h with
  | @store c r name' x lock snapshot' hc hx =>
      change (s.onCache x.cache (·.set name' snapshot')).cached? k name = some snapshot at hcached
      rw [cached?_set] at hcached
      split at hcached
      · rename_i hsame
        obtain ⟨hk, rfl, -⟩ := hsame
        cases hcached
        exact Or.inr (Or.inl ⟨c, r, lock, x, rfl, hc, hx, hk⟩)
      · exact Or.inl hcached
  | set =>
      rw [cached?_set] at hcached
      split at hcached
      · rename_i hsame
        obtain ⟨rfl, rfl, -⟩ := hsame
        cases hcached
        exact Or.inr (Or.inr rfl)
      · exact Or.inl hcached
  | invalidate | delete =>
      rw [cached?_delete] at hcached
      split at hcached
      · cases hcached
      · exact Or.inl hcached
  | clear =>
      rw [cached?_clear] at hcached
      split at hcached
      · cases hcached
      · exact Or.inl hcached
  | hit | miss | missPlain | found | foundNone | get =>
      change (s.look _ _).cached? k name = some snapshot at hcached
      rw [cached?_look] at hcached
      exact Or.inl hcached
  | take | make | acquire | enqueue | ask | handOver | free | leave | clearTable | keepTable | given | failed
  | contains => exact Or.inl hcached

theorem State.initial_of_new {caches : List (Cache Snapshot)} {resolvers : List Resolver}
    (h : ∀ x ∈ resolvers, x.table = ∅ ∧ x.cache < caches.length) : State.Initial { caches, resolvers } := by
  refine ⟨fun c => rfl, fun l => rfl, ?_, ?_⟩
  · intro r name
    show resolvers[r]?.bind (·.table[name]?) = none
    cases hx : resolvers[r]? with
    | none => rfl
    | some x =>
        rw [Option.bind_some, (h x (List.mem_of_getElem? hx)).1]
        rfl
  · intro r x hx
    exact (h x (List.mem_of_getElem? hx)).2

/-- No step changes the setup. -/
theorem Step.setup {s t : State} {m : Move} (h : Step s m t) : t.setup = s.setup := by
  cases h with
  | @make c r name x hc hx missing =>
      show (s.onTable r (·.insert name c)).setup = s.setup
      exact State.setup_onTable
  | clearTable hc hx there nobody => exact State.setup_onTable
  | take | acquire | enqueue | ask | handOver | free | leave | keepTable | given | failed | contains => rfl
  | hit | miss | missPlain | found | foundNone | store | invalidate | get | set | delete | clear =>
      exact State.setup_onCache

theorem State.resolver_of_setup {s t : State} (h : t.setup = s.setup) {r : Nat} {x : Resolver}
    (hx : s.resolvers[r]? = some x) :
    ∃ y, t.resolvers[r]? = some y ∧ y.singleFlight = x.singleFlight ∧ y.cache = x.cache := by
  have hsetup := congrArg (fun p => p.2[r]?) h
  simp only [State.setup, List.getElem?_map, hx, Option.map_some, Option.map_eq_some_iff,
    Prod.mk.injEq] at hsetup
  exact hsetup

theorem Step.resolver {s t : State} {m : Move} (h : Step s m t) {r : Nat} {x : Resolver}
    (hx : s.resolvers[r]? = some x) :
    ∃ y, t.resolvers[r]? = some y ∧ y.singleFlight = x.singleFlight ∧ y.cache = x.cache :=
  State.resolver_of_setup h.setup hx

theorem Step.resolver_before {s t : State} {m : Move} (h : Step s m t) {r : Nat} {y : Resolver}
    (hy : t.resolvers[r]? = some y) :
    ∃ x, s.resolvers[r]? = some x ∧ x.singleFlight = y.singleFlight ∧ x.cache = y.cache :=
  State.resolver_of_setup h.setup.symm hy

end ODataQuery.Resolver
