import ODataQuery.Proofs.Resolver.Freshness
import ODataQuery.Proofs.Resolver.View

/-!
Names do not interfere. If all steps on other names are left out of a row of steps, what is left can still be
taken, and at every point of it there is the same to see of the name. So nothing that happens to another name can
hold up a call, answer it, take away what it would find, or let it go on earlier.
-/

namespace ODataQuery.Resolver

namespace State

variable {s t : State} {c k l r : Nat} {name : String} {m : Move} {ms : List Move}

/-- All calls are for one name. -/
def Only (s : State) (name : String) : Prop := ∀ (c : Nat) call, s.calls[c]? = some call → call.name = name

/-- Of a row of steps those that concern a name. -/
def about (name : String) : State → List Move → List Move
  | _, [] => []
  | s, m :: ms =>
    let rest := ((s.step? m).map fun t => t.about name ms).getD []
    if s.Concerns name m then m :: rest else rest

theorem name_of_concerns {name' : String} {phase : Phase} (hm : s.Concerns name (.advance c))
    (hc : s.calls[c]? = some ⟨r, name', phase⟩) : name' = name := by
  rw [Concerns, hc, Option.map_some] at hm
  exact Option.some.inj hm

/-! ### What two states with the same view have in common -/

section Same

variable (h : t.view name = s.view name)
include h

theorem call_of_view {phase : Phase} (hc : s.calls[c]? = some ⟨r, name, phase⟩) :
    t.calls[c]? = some ⟨r, name, phase⟩ := by
  have hcall : (s.view name).calls c = some ⟨r, name, phase⟩ := by
    show s.calls[c]?.filter (·.name = name) = _
    rw [hc, Option.filter_some_pos (by simp)]
  rw [← h] at hcall
  exact Option.eq_some_of_filter_eq_some hcall

theorem fresh_of_view (only : t.Only name) (fresh : s.calls[c]? = none) : t.calls[c]? = none := by
  have hnone : (t.view name).calls c = none := by rw [h, view_calls_of_fresh fresh]
  refine Option.eq_none_iff_forall_not_mem.mpr fun call hcall => ?_
  have hfilter := Option.filter_eq_none_iff.mp hnone call hcall
  exact hfilter (decide_eq_true (only c call hcall))

theorem cached?_of_view {k' : Nat} (hk : k' = k) : t.cached? k' name = s.cached? k name := by
  rw [hk]
  exact congrFun (congrArg View.cached h) k

theorem lockFor?_of_view : t.lockFor? r name = s.lockFor? r name := congrFun (congrArg View.lockFor h) r

theorem lock_of_view (hl : s.lockFor? r name = some l) : t.lock l = s.lock l := by
  have hlock : (t.lockFor? r name).map t.lock = (s.lockFor? r name).map s.lock :=
    congrFun (congrArg View.lock h) r
  rw [lockFor?_of_view h, hl] at hlock
  exact Option.some.inj hlock

theorem resolver_of_view {x : Resolver} (hx : s.resolvers[r]? = some x) :
    ∃ y, t.resolvers[r]? = some y ∧ y.singleFlight = x.singleFlight ∧ y.cache = x.cache :=
  resolver_of_setup (congrArg View.setup h) hx

theorem concerns_of_view (hm : s.Concerns name m) : t.Concerns name m := by
  cases m with
  | advance c | answer c answer =>
      obtain ⟨⟨r, name', phase⟩, hc, rfl⟩ := Option.map_eq_some_iff.mp hm
      show t.calls[c]?.map (·.name) = some name'
      rw [call_of_view h hc, Option.map_some]
  | _ => exact hm

end Same

end State

open State in
/-- A step on a name can be taken in every state in which there is the same to see of it, and leads to states
in which there is the same to see. -/
theorem Step.view_same {s t s' : State} {m : Move} {name : String} (h : Step s m s') (hs : s.locking.Sound)
    (hview : t.view name = s.view name) (only : t.Only name) (hm : s.Concerns name m) :
    ∃ t', Step t m t' ∧ t'.view name = s'.view name := by
  -- The lock of a call is the one that the table holds for its name, so that it is the same in both states.
  have hlock : ∀ {c r l : Nat} {phase : Phase}, s.calls[c]? = some ⟨r, name, phase⟩ →
      phase.standing.lock? = some l → t.lock l = s.lock l := by
    intro c r l phase hc hl
    exact lock_of_view hview (hs.tabled (place_locking hc) hl)
  cases h with
  | @hit c r name' x snapshot fresh hx found =>
      obtain rfl : name' = name := hm
      obtain ⟨y, hy, -, hk⟩ := resolver_of_view hview hx
      have found' := (cached?_of_view hview hk).trans found
      refine ⟨_, .hit (fresh_of_view hview only fresh) hy found', ?_⟩
      rw [view_put, view_put, view_look, view_look, hview]
  | @miss c r name' x fresh hx missing flight =>
      obtain rfl : name' = name := hm
      obtain ⟨y, hy, hflight, hk⟩ := resolver_of_view hview hx
      have missing' := (cached?_of_view hview hk).trans missing
      refine ⟨_, .miss (fresh_of_view hview only fresh) hy missing' (hflight.trans flight), ?_⟩
      rw [view_put, view_put, view_look, view_look, hview]
  | @missPlain c r name' x fresh hx missing plain =>
      obtain rfl : name' = name := hm
      obtain ⟨y, hy, hflight, hk⟩ := resolver_of_view hview hx
      have missing' := (cached?_of_view hview hk).trans missing
      refine ⟨_, .missPlain (fresh_of_view hview only fresh) hy missing' (hflight.trans plain), ?_⟩
      rw [view_put, view_put, view_look, view_look, hview]
  | take hc hx there =>
      cases name_of_concerns hm hc
      obtain ⟨y, hy, -⟩ := resolver_of_view hview hx
      have there' := (lockFor?_of_view hview).trans there
      refine ⟨_, .take (call_of_view hview hc) hy there', ?_⟩
      rw [view_put, view_put, view_onLock, view_onLock, hview, lock_of_view hview there]
  | @make c r name' x hc hx missing =>
      cases name_of_concerns hm hc
      obtain ⟨y, hy, -⟩ := resolver_of_view hview hx
      have missing' := (lockFor?_of_view hview).trans missing
      refine ⟨_, .make (call_of_view hview hc) hy missing', ?_⟩
      rw [view_put, view_put, view_onLock, view_onLock, view_insert hy, view_insert hx, if_pos rfl, if_pos rfl,
        if_pos rfl, hview, View.onLock_onTable _ (t.lock c) (s.lock c)]
  | acquire hc hx free =>
      cases name_of_concerns hm hc
      obtain ⟨y, hy, -⟩ := resolver_of_view hview hx
      have hsame := hlock hc rfl
      refine ⟨_, .acquire (call_of_view hview hc) hy (hsame ▸ free), ?_⟩
      rw [view_put, view_put, view_onLock, view_onLock, hview, hsame]
  | enqueue hc hx busy =>
      cases name_of_concerns hm hc
      obtain ⟨y, hy, -⟩ := resolver_of_view hview hx
      have hsame := hlock hc rfl
      refine ⟨_, .enqueue (call_of_view hview hc) hy (hsame ▸ busy), ?_⟩
      rw [view_put, view_put, view_onLock, view_onLock, hview, hsame]
  | @found c r name' x l snapshot hc hx found =>
      cases name_of_concerns hm hc
      obtain ⟨y, hy, -, hk⟩ := resolver_of_view hview hx
      have found' := (cached?_of_view hview hk).trans found
      refine ⟨_, .found (call_of_view hview hc) hy found', ?_⟩
      rw [view_put, view_put, view_look, view_look, hview]
  | @foundNone c r name' x l hc hx missing =>
      cases name_of_concerns hm hc
      obtain ⟨y, hy, -, hk⟩ := resolver_of_view hview hx
      have missing' := (cached?_of_view hview hk).trans missing
      refine ⟨_, .foundNone (call_of_view hview hc) hy missing', ?_⟩
      rw [view_put, view_put, view_look, view_look, hview]
  | ask hc hx =>
      cases name_of_concerns hm hc
      obtain ⟨y, hy, -⟩ := resolver_of_view hview hx
      refine ⟨_, .ask (call_of_view hview hc) hy, ?_⟩
      rw [view_put, view_put, hview]
  | store hc hx =>
      cases name_of_concerns hm hc
      obtain ⟨y, hy, -, hk⟩ := resolver_of_view hview hx
      refine ⟨_, .store (call_of_view hview hc) hy, ?_⟩
      rw [view_put, view_put, view_set, view_set, if_pos rfl, if_pos rfl, if_pos rfl, hview, hk]
  | handOver hc hx waiters =>
      cases name_of_concerns hm hc
      obtain ⟨y, hy, -⟩ := resolver_of_view hview hx
      have hsame := hlock hc rfl
      refine ⟨_, .handOver (call_of_view hview hc) hy (hsame ▸ waiters), ?_⟩
      rw [view_grant, view_grant, view_onLock, view_onLock, view_put, view_put, hview]
      exact congrArg (fun x : Lock => View.grant (View.onLock _ _ { x with holder := _, waiting := _ }) _ _) hsame
  | free hc hx nobody =>
      cases name_of_concerns hm hc
      obtain ⟨y, hy, -⟩ := resolver_of_view hview hx
      have hsame := hlock hc rfl
      refine ⟨_, .free (call_of_view hview hc) hy (hsame ▸ nobody), ?_⟩
      rw [view_onLock, view_onLock, view_put, view_put, hview]
      exact congrArg (fun x : Lock => View.onLock _ _ { x with holder := none }) hsame
  | leave hc hx =>
      cases name_of_concerns hm hc
      obtain ⟨y, hy, -⟩ := resolver_of_view hview hx
      have hsame := hlock hc rfl
      refine ⟨_, .leave (call_of_view hview hc) hy, ?_⟩
      rw [view_put, view_put, view_onLock, view_onLock, hview, hsame]
  | clearTable hc hx there nobody =>
      cases name_of_concerns hm hc
      obtain ⟨y, hy, -⟩ := resolver_of_view hview hx
      have there' := (lockFor?_of_view hview).trans there
      have nobody' := (congrArg Lock.users (lock_of_view hview there)).trans nobody
      refine ⟨_, .clearTable (call_of_view hview hc) hy there' nobody', ?_⟩
      rw [view_erase, view_erase, view_put, view_put, hview]
  | @keepTable c r name' x result hc hx used =>
      cases name_of_concerns hm hc
      obtain ⟨y, hy, -⟩ := resolver_of_view hview hx
      have used' : ∀ l, t.lockFor? r name = some l → (t.lock l).users ≠ [] := by
        intro l hl
        rw [lockFor?_of_view hview] at hl
        rw [lock_of_view hview hl]
        exact used l hl
      refine ⟨_, .keepTable (call_of_view hview hc) hy used', ?_⟩
      rw [view_put, view_put, hview]
  | given hc =>
      cases name_of_concerns hm hc
      refine ⟨_, .given (call_of_view hview hc), ?_⟩
      rw [view_put, view_put, hview]
  | failed hc =>
      cases name_of_concerns hm hc
      refine ⟨_, .failed (call_of_view hview hc), ?_⟩
      rw [view_put, view_put, hview]
  | invalidate hx =>
      obtain ⟨y, hy, -, hk⟩ := resolver_of_view hview hx
      refine ⟨_, .invalidate hy, ?_⟩
      rw [view_delete, view_delete, hview, hk]
  | get => exact ⟨_, .get, by rw [view_look, view_look, hview]⟩
  | contains => exact ⟨_, .contains, hview⟩
  | set => exact ⟨_, .set, by rw [view_set, view_set, hview]⟩
  | delete => exact ⟨_, .delete, by rw [view_delete, view_delete, hview]⟩
  | clear => exact ⟨_, .clear, by rw [view_clear, view_clear, hview]⟩

/-- A step on a name leaves only calls for it, if there were no others. -/
theorem Step.only_kept {s t : State} {m : Move} {name : String} (h : Step s m t) (only : s.Only name)
    (hm : s.Concerns name m) : t.Only name := by
  intro c call hc
  rcases h.calls c with hsame | ⟨call', hcall, harrival⟩
  · exact only c call (hsame.symm.trans hc)
  · cases hcall.symm.trans hc
    cases harrival with
    | hit | miss | missPlain => exact hm
    | approach hd | acquire hd | enqueue hd | handed hd | found hd | foundNone hd | ask hd | store hd | release hd
    | leave hd | tidy hd | given hd | failed hd =>
        have hname := only c _ hd
        exact hname

namespace State

variable {s t u v : State} {c r : Nat} {name : String} {m : Move} {ms before after : List Move}

/-! ### Rows of steps -/

theorem about_cons (hu : s.step? m = some u) :
    s.about name (m :: ms) = if s.Concerns name m then m :: u.about name ms else u.about name ms := by
  rw [about, hu]
  rfl

theorem about_append (run : s.run? before = some u) :
    s.about name (before ++ after) = s.about name before ++ u.about name after := by
  induction before generalizing s with
  | nil =>
      cases run
      rfl
  | cons m ms ih =>
      obtain ⟨v, hv, hrun⟩ := run?_cons.mp run
      rw [List.cons_append, about_cons hv, about_cons hv, ih hrun]
      split <;> rfl

/-- A state in which there is the same to see of a name as in another, and nothing else is going on. -/
structure Mirrors (t s : State) (name : String) : Prop where
  view : t.view name = s.view name
  only : t.Only name

/-- What holds of the locks at all times, and of whose they are. -/
structure Apart (s : State) : Prop where
  orderly : s.locking.Orderly
  owned : s.Owned

theorem Apart.step (h : s.Apart) (hstep : Step s m t) : t.Apart :=
  ⟨hstep.orderly h.orderly, hstep.owned h.owned⟩

theorem Initial.apart (h : s.Initial) : s.Apart := ⟨h.orderly, h.owned⟩

theorem Mirrors.step (h : t.Mirrors s name) (hs : s.Apart) (hstep : s.step? m = some u)
    (hm : s.Concerns name m) : ∃ v, t.step? m = some v ∧ v.Mirrors u name := by
  obtain ⟨v, hv, hview⟩ := (step?_cases hstep).view_same hs.orderly.sound h.view h.only hm
  exact ⟨v, step?_of_step hv, hview, hv.only_kept h.only (concerns_of_view h.view hm)⟩

theorem Mirrors.skip (h : t.Mirrors s name) (hs : s.Apart) (hstep : s.step? m = some u)
    (hm : ¬ s.Concerns name m) : t.Mirrors u name :=
  ⟨h.view.trans ((step?_cases hstep).view_other hs.orderly.sound hs.owned hm).symm, h.only⟩

/-- What concerns a name of a row of steps can be taken where there is the same to see of the name. -/
theorem Mirrors.run (h : t.Mirrors s name) (hs : s.Apart) (run : s.run? ms = some u) :
    ∃ v, t.run? (s.about name ms) = some v ∧ v.Mirrors u name := by
  induction ms generalizing s t with
  | nil =>
      cases run
      exact ⟨t, rfl, h⟩
  | cons m ms ih =>
      obtain ⟨s', hstep, hrun⟩ := run?_cons.mp run
      have hs' : s'.Apart := hs.step (step?_cases hstep)
      rw [about_cons hstep]
      by_cases hm : s.Concerns name m
      · rw [if_pos hm]
        obtain ⟨t', ht', hmirrors⟩ := h.step hs hstep hm
        obtain ⟨v, hv, hend⟩ := ih hmirrors hs' hrun
        exact ⟨v, run?_cons.mpr ⟨t', ht', hv⟩, hend⟩
      · rw [if_neg hm]
        exact ih (h.skip hs hstep hm) hs' hrun

theorem calls_iff_of_view (h : t.view name = s.view name) {phase : Phase} :
    t.calls[c]? = some ⟨r, name, phase⟩ ↔ s.calls[c]? = some ⟨r, name, phase⟩ :=
  ⟨call_of_view h.symm, call_of_view h⟩

theorem fetches_iff_of_view (h : t.view name = s.view name) : t.Fetches r name c ↔ s.Fetches r name c :=
  exists_congr fun _ => and_congr_left fun _ => calls_iff_of_view h

theorem Initial.mirrors (h : s.Initial) : s.Mirrors s name := by
  refine ⟨rfl, fun c call hc => ?_⟩
  cases (h.calls c).symm.trans hc

/-- Names do not interfere. If all steps on other names are left out of a row of steps, the rest can be taken, and
in the end every call for the name has come as far as it has in the whole row, and with the same result. After any
part of the row there is the same to see of the name as there is after what is left of this part: the same is in
the caches, and the tables hold locks with the same calls. And every step that is left puts the same calls for the
name to the provider as it does in the whole row, and those that are left out put none; what the provider answers
is part of the steps. -/
theorem names_apart (initial : s.Initial) (name : String) (run : s.run? ms = some t) :
    (∃ u, s.run? (s.about name ms) = some u ∧ ∀ (c : Nat) r phase,
      u.calls[c]? = some ⟨r, name, phase⟩ ↔ t.calls[c]? = some ⟨r, name, phase⟩) ∧
    ∀ before m after v w, ms = before ++ m :: after → s.run? before = some v → v.step? m = some w →
      ∃ v', s.run? (s.about name before) = some v' ∧ v'.view name = v.view name ∧
        (v.Concerns name m → s.about name ms = s.about name before ++ m :: w.about name after ∧
          ∃ w', v'.step? m = some w' ∧ w'.view name = w.view name ∧
            ∀ r c, v'.Begins r name c m w' ↔ v.Begins r name c m w) ∧
        (¬ v.Concerns name m → s.about name ms = s.about name before ++ w.about name after ∧
          w.view name = v.view name ∧ ∀ r c, ¬ v.Begins r name c m w) := by
  constructor
  · obtain ⟨u, hu, hmirrors⟩ := initial.mirrors.run initial.apart run
    exact ⟨u, hu, fun c r phase => calls_iff_of_view hmirrors.view⟩
  · rintro before m after v w rfl hbefore hstep
    obtain ⟨v', hv', hmirrors⟩ := initial.mirrors.run initial.apart hbefore
    have hapart : v.Apart :=
      run?_invariant (P := State.Apart) (fun h hstep => h.step hstep) initial.apart hbefore
    rw [about_append hbefore, about_cons hstep]
    refine ⟨v', hv', hmirrors.view, fun hm => ?_, fun hm => ?_⟩
    · obtain ⟨w', hw', hend⟩ := hmirrors.step hapart hstep hm
      refine ⟨by rw [if_pos hm], w', hw', hend.view, fun r c => ?_⟩
      have hfirst : v'.Fetches r name c ↔ v.Fetches r name c := fetches_iff_of_view hmirrors.view
      have hthen : w'.Fetches r name c ↔ w.Fetches r name c := fetches_iff_of_view hend.view
      exact ⟨fun h => ⟨hstep, mt hfirst.mpr h.not_yet, hthen.mp h.fetches⟩,
        fun h => ⟨hw', mt hfirst.mp h.not_yet, hthen.mpr h.fetches⟩⟩
    · have hview : w.view name = v.view name :=
        (step?_cases hstep).view_other hapart.orderly.sound hapart.owned hm
      refine ⟨by rw [if_neg hm], hview, fun r c h => ?_⟩
      exact h.not_yet ((fetches_iff_of_view hview).mp h.fetches)

/-- Two names, each with its own lock, in one resolver, and a plain resolver that uses the same cache. The first
call for one of them fails, and its lock goes to the second call, which waits for it; then the cache is
cleared. -/
theorem names_apart_with_hand_over :
    let s : State := { caches := [{}], resolvers := [{ cache := 0 }, { singleFlight := false, cache := 0 }] }
    let ms : List Move := [.start 0 0 "a", .start 1 0 "b", .advance 1, .advance 0, .advance 0, .advance 1,
      .start 2 0 "a", .advance 2, .advance 2, .advance 1, .advance 0, .advance 0, .advance 1, .start 3 1 "b",
      .answer 1 (.ok ∅), .advance 1, .answer 0 (.error (.unavailable "down")), .advance 0, .clear 0, .advance 2,
      .advance 3, .advance 1, .advance 2, .answer 2 (.ok ∅), .set 0 "b" ⟨9, ∅⟩, .advance 2, .delete 0 "b",
      .advance 0, .advance 2, .advance 1, .advance 2, .advance 1, .advance 2, .advance 0]
    ∃ t u snapshot, s.run? ms = some t ∧ (s.about "a" ms).length = 20 ∧ s.run? (s.about "a" ms) = some u ∧
      t.calls[2]? = some ⟨0, "a", .finished (.ok snapshot)⟩ ∧
      u.calls[2]? = some ⟨0, "a", .finished (.ok snapshot)⟩ := by
  intro s ms
  have initial : s.Initial := initial_of_new (by decide)
  obtain ⟨t, run, ⟨r, name, phase⟩, hcall, ⟨rfl, rfl⟩, hreturned⟩ : ∃ t, s.run? ms = some t ∧
      ∃ call, t.calls[2]? = some call ∧ (call.resolver = 0 ∧ call.name = "a") ∧
        call.phase.returned? ≠ none := by
    have h : (s.run? ms).any (fun t => t.calls[2]?.any fun call =>
        (call.resolver == 0 && call.name == "a") && call.phase.returned?.isSome) = true := by decide +kernel
    simpa only [Option.any_eq_true, Bool.and_eq_true, beq_iff_eq, Option.isSome_iff_ne_none] using h
  obtain ⟨snapshot, hsnapshot⟩ := Option.ne_none_iff_exists'.mp hreturned
  cases Phase.eq_finished_of_returned? hsnapshot
  obtain ⟨u, hu, hcalls⟩ := (names_apart initial "a" run).1
  exact ⟨t, u, snapshot, run, by decide +kernel, hu, hcall, (hcalls 2 0 _).mpr hcall⟩

end State

end ODataQuery.Resolver
