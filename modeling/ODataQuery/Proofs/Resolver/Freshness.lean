import ODataQuery.Proofs.Resolver.SingleFlight

/-!
Freshness after a removal. A cache has no expiry, so what is removed from it may come back only by a store.
If the provider works on no call for the name when it is removed, and no map is waiting to be stored, then
every later store is of a map for which the provider was asked after the removal. Hence so is everything that
is found in the cache from then on, by whatever resolver that uses it, in its first look or under its lock.
-/

namespace ODataQuery.Resolver

/-- Whether the provider has been asked by a call, and its map is not stored yet. -/
def Phase.inFlight : Phase → Bool
  | fetching _ | storing .. => true
  | _ => false

/-- The result of a call that knows it. -/
def Phase.result? : Phase → Option (Except ProviderError Snapshot)
  | releasing _ result | leaving _ result | tidying result | finished result => some result
  | _ => none

/-- The map that a call was given and has not stored yet. -/
def Phase.given? : Phase → Option Snapshot
  | storing _ snapshot => some snapshot
  | _ => none

/-- The map that a call has returned. -/
def Phase.returned? : Phase → Option Snapshot
  | finished (.ok snapshot) => some snapshot
  | _ => none

theorem Phase.eq_finished_of_returned? {phase : Phase} {snapshot : Snapshot}
    (h : phase.returned? = some snapshot) : phase = .finished (.ok snapshot) := by
  cases phase with
  | finished result =>
      cases result with
      | ok snapshot' =>
          cases h
          rfl
      | error e => cases h
  | _ => cases h

theorem Phase.given?_ended {lock : Option Nat} {result : Except ProviderError Snapshot} :
    (Phase.ended lock result).given? = none := by
  cases lock <;> rfl

theorem Phase.result?_ended {lock : Option Nat} {result : Except ProviderError Snapshot} :
    (Phase.ended lock result).result? = some result := by
  cases lock <;> rfl

namespace State

/-- The provider works on a call for a name, or gave it a map that is not stored yet. -/
def InFlight (s : State) (r : Nat) (name : String) (c : Nat) : Prop := s.At Phase.inFlight r name c

/-- The cache that a resolver uses. -/
def cacheOf? (s : State) (r : Nat) : Option Nat := s.resolvers[r]?.map (·.cache)

/-- A call that has not begun, or does not know its result yet. -/
def Open (s : State) (c : Nat) : Prop := ∀ call, s.calls[c]? = some call → call.phase.result? = none

/-- In a row of steps a call for a name is put to the provider, who works on it up to the last step. -/
def Asked (s : State) (r : Nat) (name : String) (c : Nat) (ms : List Move) : Prop :=
  ∃ before between t u, ms = before ++ .advance c :: between ∧ s.run? before = some t ∧
    t.Begins r name c (.advance c) u ∧ u.Each (fun v _ => v.Fetches r name c) between

/-- In a row of steps a call for a name was put to the provider, who then gave it the snapshot. The call is
by a resolver that uses a certain cache. -/
def Provided (s : State) (k : Nat) (name : String) (ms : List Move) (snapshot : Snapshot) : Prop :=
  ∃ asking after r t, ms = asking ++ .answer snapshot.id (.ok snapshot.map) :: after ∧
    s.cacheOf? r = some k ∧ s.Asked r name snapshot.id asking ∧ s.run? asking = some t ∧
    t.Fetches r name snapshot.id

variable {s t u : State} {k c r : Nat} {name : String} {m : Move} {ms : List Move} {snapshot : Snapshot}

theorem cacheOf?_of_resolver {x : Resolver} (hx : s.resolvers[r]? = some x) : s.cacheOf? r = some x.cache := by
  rw [cacheOf?, hx, Option.map_some]

theorem cache_eq_of_cacheOf? {x : Resolver} (uses : s.cacheOf? r = some k) (hx : s.resolvers[r]? = some x) :
    x.cache = k :=
  Option.some.inj ((cacheOf?_of_resolver hx).symm.trans uses)

theorem cacheOf?_of_setup (h : t.setup = s.setup) : t.cacheOf? r = s.cacheOf? r := by
  have hmap : ∀ s : State, s.cacheOf? r = s.setup.2[r]?.map (·.2) := by
    intro s
    rw [setup, List.getElem?_map, Option.map_map]
    rfl
  rw [hmap, hmap, h]

theorem setup_run (run : s.run? ms = some t) : t.setup = s.setup :=
  run?_invariant (P := fun t => t.setup = s.setup) (fun h step => step.setup.trans h) rfl run

theorem cacheOf?_run (run : s.run? ms = some t) : t.cacheOf? r = s.cacheOf? r := cacheOf?_of_setup (setup_run run)

theorem Asked.snoc (h : s.Asked r name c ms) (run : s.run? ms = some t) (hc : t.Fetches r name c) :
    s.Asked r name c (ms ++ [m]) := by
  obtain ⟨before, between, v, w, rfl, hbefore, hbegins, hbetween⟩ := h
  refine ⟨before, between ++ [m], v, w, by simp, hbefore, hbegins, ?_⟩
  obtain ⟨v', hv', hrest⟩ := run?_append.mp run
  cases hbefore.symm.trans hv'
  obtain ⟨w', hw', hrun⟩ := run?_cons.mp hrest
  cases hbegins.step.symm.trans hw'
  rw [each_append hrun]
  exact ⟨hbetween, hc, fun _ _ => trivial⟩

/-- The provider works on a call after a step because it did before, or because the step puts the call to it. -/
theorem Asked.step (run : s.run? ms = some t) (step : t.step? m = some u) (hc : u.Fetches r name c)
    (before : t.Fetches r name c → s.Asked r name c ms) : s.Asked r name c (ms ++ [m]) := by
  obtain ⟨phase, hc, hasked⟩ := hc
  rcases (step?_cases step).calls c with hsame | ⟨call, hcall, harrival⟩
  · have hbefore : t.Fetches r name c := ⟨phase, hsame.symm.trans hc, hasked⟩
    exact (before hbefore).snoc run hbefore
  · cases hcall.symm.trans hc
    cases harrival with
    | ask hbefore =>
        refine ⟨ms, [], t, u, rfl, run, ⟨step, ?_, ⟨_, hc, rfl⟩⟩, trivial⟩
        rintro ⟨phase, hphase, hasked'⟩
        cases hbefore.symm.trans hphase
        cases hasked'
    | store | failed =>
        rw [Phase.asked_ended] at hasked
        cases hasked
    | _ => cases hasked

theorem Provided.snoc (h : s.Provided k name ms snapshot) : s.Provided k name (ms ++ [m]) snapshot := by
  obtain ⟨asking, after, r, t, rfl, h⟩ := h
  exact ⟨asking, after ++ [m], r, t, by simp, h⟩

/-- What holds in a row of steps after a removal. Calls on which the provider works were put to it in this row;
and what is in the cache under the name, what was given to calls, and what calls have found that knew no result
before, was provided in this row. -/
structure Fresh (s : State) (k : Nat) (name : String) (ms : List Move) (t : State) : Prop where
  cached : ∀ {snapshot}, t.cached? k name = some snapshot → s.Provided k name ms snapshot
  asked : ∀ {c r : Nat}, t.cacheOf? r = some k → t.Fetches r name c → s.Asked r name c ms
  given : ∀ {c r : Nat} {phase snapshot}, t.cacheOf? r = some k → t.calls[c]? = some ⟨r, name, phase⟩ →
    phase.given? = some snapshot → s.Provided k name ms snapshot
  found : ∀ {c r : Nat} {phase snapshot}, s.Open c → t.cacheOf? r = some k →
    t.calls[c]? = some ⟨r, name, phase⟩ → phase.result? = some (.ok snapshot) → s.Provided k name ms snapshot

namespace Fresh

variable (h : s.Fresh k name ms t) (run : s.run? ms = some t) (step : t.step? m = some u)
include h

theorem cached_step (hm : ∀ snapshot, m ≠ .set k name snapshot) (step : t.step? m = some u)
    (hcached : u.cached? k name = some snapshot) : s.Provided k name (ms ++ [m]) snapshot := by
  rcases (step?_cases step).cached hcached with hbefore | ⟨c, r, lock, x, -, hc, hx, hk⟩ | hset
  · exact (h.cached hbefore).snoc
  · have huses : t.cacheOf? r = some k := hk ▸ cacheOf?_of_resolver hx
    exact (h.given huses hc rfl).snoc
  · exact absurd hset (hm snapshot)

include run step

theorem asked_step (hk : t.cacheOf? r = some k) (hc : u.Fetches r name c) : s.Asked r name c (ms ++ [m]) :=
  Asked.step run step hc (h.asked hk)

theorem given_step (hk : t.cacheOf? r = some k) {phase : Phase} (hc : u.calls[c]? = some ⟨r, name, phase⟩)
    (hgiven : phase.given? = some snapshot) : s.Provided k name (ms ++ [m]) snapshot := by
  rcases (step?_cases step).calls c with hsame | ⟨call, hcall, harrival⟩
  · exact (h.given hk (hsame.symm.trans hc) hgiven).snoc
  · cases hcall.symm.trans hc
    cases harrival with
    | @given c r name lock map hbefore =>
        cases hgiven
        have hfetches : t.Fetches r name c := ⟨_, hbefore, rfl⟩
        have hcache : s.cacheOf? r = some k := (cacheOf?_run run).symm.trans hk
        exact ⟨ms, [], r, t, rfl, hcache, h.asked hk hfetches, run, hfetches⟩
    | store | failed =>
        rw [Phase.given?_ended] at hgiven
        cases hgiven
    | _ => cases hgiven

omit run in
theorem found_step (hopen : s.Open c) (hk : t.cacheOf? r = some k) {phase : Phase}
    (hc : u.calls[c]? = some ⟨r, name, phase⟩) (hresult : phase.result? = some (.ok snapshot)) :
    s.Provided k name (ms ++ [m]) snapshot := by
  rcases (step?_cases step).calls c with hsame | ⟨call, hcall, harrival⟩
  · exact (h.found hopen hk (hsame.symm.trans hc) hresult).snoc
  · cases hcall.symm.trans hc
    cases harrival with
    | hit fresh hx hfound | found hbefore hx hfound =>
        cases hresult
        rw [cache_eq_of_cacheOf? hk hx] at hfound
        exact (h.cached hfound).snoc
    | store hbefore =>
        rw [Phase.result?_ended] at hresult
        cases hresult
        exact (h.given hk hbefore rfl).snoc
    | release hbefore | leave hbefore | tidy hbefore =>
        exact (h.found hopen hk hbefore hresult).snoc
    | failed hbefore =>
        rw [Phase.result?_ended] at hresult
        cases hresult
    | _ => cases hresult

end Fresh

theorem Fresh.step (h : s.Fresh k name ms t) (run : s.run? ms = some t) (step : t.step? m = some u)
    (hm : ∀ snapshot, m ≠ .set k name snapshot) : s.Fresh k name (ms ++ [m]) u := by
  have hcache : ∀ {r}, u.cacheOf? r = t.cacheOf? r := cacheOf?_of_setup (step?_cases step).setup
  refine ⟨h.cached_step hm step, fun hk => ?_, fun hk => ?_, fun hopen hk => ?_⟩
  · exact h.asked_step run step (hcache ▸ hk)
  · exact h.given_step run step (hcache ▸ hk)
  · exact h.found_step step hopen (hcache ▸ hk)

end State

open State in
/-- A removal leaves nothing under the name, and changes no call. -/
theorem Step.removed {s t : State} {m : Move} {k : Nat} {name : String} (h : Step s m t)
    (removes : s.Removes k name m) : t.cached? k name = none ∧ ∀ c : Nat, t.calls[c]? = s.calls[c]? := by
  cases h with
  | @invalidate r name' x hx =>
      cases removes with
      | invalidate hx' hk =>
          cases hx.symm.trans hx'
          refine ⟨?_, fun _ => rfl⟩
          rw [cached?_delete, if_pos ⟨hk, rfl⟩]
  | delete =>
      cases removes
      refine ⟨?_, fun _ => rfl⟩
      rw [cached?_delete, if_pos ⟨rfl, rfl⟩]
  | clear =>
      cases removes
      refine ⟨?_, fun _ => rfl⟩
      rw [cached?_clear, if_pos rfl]
  | _ => cases removes

namespace State

variable {s t u : State} {k c r : Nat} {name : String} {m : Move} {ms : List Move} {snapshot : Snapshot}

/-- A removal while nothing is in flight makes a fresh start. -/
theorem fresh_of_removed (quiet : ∀ r c, s.cacheOf? r = some k → ¬ s.InFlight r name c)
    (removes : s.Removes k name m) (step : s.step? m = some t) : t.Fresh k name [] t := by
  have hstep := step?_cases step
  obtain ⟨hnone, hcalls⟩ := hstep.removed removes
  have hquiet : ∀ {r c : Nat} {phase : Phase}, t.cacheOf? r = some k →
      t.calls[c]? = some ⟨r, name, phase⟩ → phase.inFlight = true → False := by
    intro r c phase hk hc hflight
    rw [cacheOf?_of_setup hstep.setup] at hk
    exact quiet r c hk ⟨phase, (hcalls c).symm.trans hc, hflight⟩
  refine ⟨fun hcached => ?_, fun hk ⟨phase, hc, hasked⟩ => ?_, fun hk hc hgiven => ?_, fun hopen hk hc hresult => ?_⟩
  · cases hnone.symm.trans hcached
  · cases phase with
    | fetching lock => exact (hquiet hk hc rfl).elim
    | _ => cases hasked
  · rename_i phase snapshot
    cases phase with
    | storing lock snapshot' => exact (hquiet hk hc rfl).elim
    | _ => cases hgiven
  · cases (hopen _ hc).symm.trans hresult

/-- After a name was removed from a cache while no call for it was in flight, be it by an invalidation, a
deletion or a clearing, what a call for the name returns was provided after the removal, unless the call knew its
result before; so it is in particular if the call begins after the removal. It does not matter which of the
resolvers that use the cache makes the call, or in which mode. -/
theorem fresh_after_removal (quiet : ∀ r c, s.cacheOf? r = some k → ¬ s.InFlight r name c)
    (removes : s.Removes k name m) (step : s.step? m = some t)
    (calls_only : ∀ m ∈ ms, ∀ snapshot, m ≠ .set k name snapshot) (run : t.run? ms = some u)
    (unknown : t.Open c) (uses : u.cacheOf? r = some k)
    (returned : u.calls[c]? = some ⟨r, name, .finished (.ok snapshot)⟩) : t.Provided k name ms snapshot := by
  have hfresh : t.Fresh k name ms u :=
    run?_history (fresh_of_removed quiet removes step) (fun run h hm step => h.step run step hm) calls_only run
  exact hfresh.found unknown uses returned rfl

/-- When the second resolver invalidates the name, a call of the first has just stored a map and still holds the
lock, another one waits for the lock, and a plain call of the second resolver is about to ask. A fourth call
begins after that, and returns the map of the plain call, which overwrote the one of the waiting call. -/
theorem fresh_after_removal_overwritten :
    let s₀ : State := { caches := [{}], resolvers := [{ cache := 0 }, { singleFlight := false, cache := 0 }] }
    let earlier : List Move := [.start 0 0 "a", .advance 0, .advance 0, .advance 0, .advance 0, .start 1 0 "a",
      .advance 1, .advance 1, .start 2 1 "a", .answer 0 (.ok ∅), .advance 0]
    let later : List Move := [.advance 0, .start 3 0 "a", .advance 3, .advance 3, .advance 1, .advance 1,
      .advance 2, .answer 1 (.ok ∅), .advance 1, .answer 2 (.ok ∅), .advance 2, .advance 1, .advance 3,
      .advance 3, .advance 3, .advance 3]
    ∃ s t u snapshot, s₀.run? earlier = some s ∧ s.cached? 0 "a" ≠ none ∧
      (∀ r c, s.cacheOf? r = some 0 → ¬ s.InFlight r "a" c) ∧ s.step? (.invalidate 1 "a") = some t ∧
      t.calls[3]? = none ∧ t.run? later = some u ∧ u.calls[3]? = some ⟨0, "a", .finished (.ok snapshot)⟩ ∧
      snapshot.id = 2 ∧ t.Provided 0 "a" later snapshot := by
  intro s₀ earlier later
  obtain ⟨s, hs, hcached, hcalls⟩ : ∃ s, s₀.run? earlier = some s ∧ s.cached? 0 "a" ≠ none ∧
      ∀ p ∈ s.calls.toList, p.2.phase.inFlight = false := by
    have h : (s₀.run? earlier).any (fun s => (s.cached? 0 "a").isSome &&
        s.calls.toList.all fun p => !p.2.phase.inFlight) = true := by decide +kernel
    simpa only [Option.any_eq_true, Bool.and_eq_true, Option.isSome_iff_ne_none, List.all_eq_true,
      Bool.not_eq_true'] using h
  have quiet : ∀ r c, s.cacheOf? r = some 0 → ¬ s.InFlight r "a" c := by
    rintro r c - ⟨phase, hc, hflight⟩
    have hmem := Std.ExtTreeMap.mem_toList_iff_getElem?_eq_some.mpr hc
    cases hflight.symm.trans (hcalls _ hmem)
  obtain ⟨t, step, hnew, u, run, ⟨r, name, phase⟩, hcall, ⟨rfl, rfl⟩, snapshot, hreturned, hid⟩ : ∃ t,
      s.step? (.invalidate 1 "a") = some t ∧ t.calls[3]? = none ∧ ∃ u, t.run? later = some u ∧
      ∃ call, u.calls[3]? = some call ∧ (call.resolver = 0 ∧ call.name = "a") ∧
        ∃ snapshot, call.phase.returned? = some snapshot ∧ snapshot.id = 2 := by
    have h : ((s₀.run? earlier).bind (·.step? (.invalidate 1 "a"))).any (fun t => t.calls[3]?.isNone &&
        (t.run? later).any fun u => u.calls[3]?.any fun call => (call.resolver == 0 && call.name == "a") &&
          call.phase.returned?.any fun snapshot => snapshot.id == 2) = true := by decide +kernel
    rw [hs, Option.bind_some] at h
    simpa only [Option.any_eq_true, Bool.and_eq_true, Option.isNone_iff_eq_none, beq_iff_eq] using h
  cases Phase.eq_finished_of_returned? hreturned
  refine ⟨s, t, u, snapshot, hs, hcached, quiet, step, hnew, run, hcall, hid, ?_⟩
  have second : s.cacheOf? 1 = some 0 := cacheOf?_of_setup (setup_run hs)
  obtain ⟨x, hx, hk⟩ := Option.map_eq_some_iff.mp second
  have unknown : t.Open 3 := by
    intro call hc
    cases hnew.symm.trans hc
  have uses : u.cacheOf? 0 = some 0 := by
    have hsetup := (setup_run run).trans ((step?_cases step).setup.trans (setup_run hs))
    exact cacheOf?_of_setup hsetup
  exact fresh_after_removal quiet (.invalidate hx hk) step (by simp [later]) run unknown uses hcall

end State

end ODataQuery.Resolver
