import ODataQuery.Proofs.Resolver.Contents

/-!
Where results come from. A call returns what it found in its cache, or what the provider said to this call and to
no other. Once it was given a map or knows its result, nothing that others do can change what it returns. So a
failure stays with the call that was put to the provider: it ends that call, whoever else waits for the same name,
and it leaves no trace in the caches.
-/

namespace ODataQuery.Resolver

/-- What a call will return, once it was given a map or knows its result. -/
def Phase.outcome? : Phase → Option (Except ProviderError Snapshot)
  | storing _ snapshot => some (.ok snapshot)
  | releasing _ result | leaving _ result | tidying result | finished result => some result
  | missed | approaching _ | waiting _ | granted _ | asking _ | fetching _ => none

theorem Phase.outcome?_ended {lock : Option Nat} {result : Except ProviderError Snapshot} :
    (Phase.ended lock result).outcome? = some result := by
  cases lock <;> rfl

theorem Phase.eq_waiting {phase : Phase} {l : Nat} (h : phase.standing = .awaits l) : phase = .waiting l := by
  cases phase with
  | waiting l' =>
      cases h
      rfl
  | asking lock | fetching lock | storing lock => cases lock <;> cases h
  | _ => cases h

/-- The error that a call has returned. -/
def Phase.failure? : Phase → Option ProviderError
  | finished (.error e) => some e
  | _ => none

theorem Phase.eq_finished_of_failure? {phase : Phase} {e : ProviderError} (h : phase.failure? = some e) :
    phase = .finished (.error e) := by
  cases phase with
  | finished result =>
      cases result with
      | ok snapshot => cases h
      | error e' =>
          cases h
          rfl
  | _ => cases h

/-- The call that takes a step. -/
def Move.call? : Move → Option Nat
  | .start c _ _ | .advance c | .answer c _ => some c
  | .invalidate .. | .get .. | .contains .. | .set .. | .delete .. | .clear _ => none

namespace State

/-- A step in which a call for a name looks into its cache. -/
inductive Looks (s : State) (r : Nat) (name : String) (c : Nat) : Move → Prop where
  | first : Looks s r name c (.start c r name)
  | again {l} (hc : s.calls[c]? = some ⟨r, name, .granted l⟩) : Looks s r name c (.advance c)

/-- In a row of steps a call for a name looked into its cache, and a snapshot was there. -/
def Found (s : State) (r : Nat) (name : String) (c : Nat) (ms : List Move) (snapshot : Snapshot) : Prop :=
  ∃ before m after t k, ms = before ++ m :: after ∧ s.run? before = some t ∧ t.Looks r name c m ∧
    t.cacheOf? r = some k ∧ t.cached? k name = some snapshot

/-- In a row of steps a call for a name was put to the provider, who then gave it an answer. -/
def Answered (s : State) (r : Nat) (name : String) (c : Nat) (ms : List Move)
    (answer : Except ProviderError AttributeMap) : Prop :=
  ∃ asking after t, ms = asking ++ .answer c answer :: after ∧ s.Asked r name c asking ∧
    s.run? asking = some t ∧ t.Fetches r name c

/-- Where a call for a name has its result from: from its cache, or from what the provider said to the call
itself. -/
inductive Source (s : State) (r : Nat) (name : String) (c : Nat) (ms : List Move) :
    Except ProviderError Snapshot → Prop where
  | cache {snapshot} (found : s.Found r name c ms snapshot) : Source s r name c ms (.ok snapshot)
  | provider {answer} (answered : s.Answered r name c ms answer) :
      Source s r name c ms (answer.map (⟨c, ·⟩))

variable {s t u : State} {c k r : Nat} {name : String} {m : Move} {ms ms' : List Move} {phase : Phase}
  {snapshot : Snapshot} {result : Except ProviderError Snapshot} {answer : Except ProviderError AttributeMap}

/-- A step of a call that writes is one that stores. -/
theorem storing_of_write? {w : Write} (hm : m.call? = some c) (hw : s.write? m = some w) :
    ∃ r name lock snapshot, s.calls[c]? = some ⟨r, name, .storing lock snapshot⟩ := by
  cases m with
  | advance d =>
      cases hm
      obtain ⟨r, name, lock, snapshot, k, hc, -⟩ := write?_advance_eq_some_iff.mp hw
      exact ⟨r, name, lock, snapshot, hc⟩
  | start | answer => cases hw
  | _ => cases hm

theorem Found.append (h : s.Found r name c ms snapshot) : s.Found r name c (ms ++ ms') snapshot := by
  obtain ⟨before, m, after, t, k, rfl, h⟩ := h
  exact ⟨before, m, after ++ ms', t, k, by simp, h⟩

theorem Answered.append (h : s.Answered r name c ms answer) : s.Answered r name c (ms ++ ms') answer := by
  obtain ⟨asking, after, t, rfl, h⟩ := h
  exact ⟨asking, after ++ ms', t, by simp, h⟩

theorem Source.append (h : s.Source r name c ms result) : s.Source r name c (ms ++ ms') result := by
  cases h with
  | cache found => exact .cache found.append
  | provider answered => exact .provider answered.append

theorem Source.answered_of_error {e : ProviderError} (h : s.Source r name c ms (.error e)) :
    s.Answered r name c ms (.error e) := by
  generalize hresult : Except.error e = result at h
  cases h with
  | cache => cases hresult
  | @provider answer answered =>
      cases answer with
      | ok map => cases hresult
      | error e' =>
          cases hresult
          exact answered

/-! ### What a call will return -/

/-- The call that waits first in a line is one that waits. -/
theorem eq_waiting_of_first (hs : s.locking.Sound) (hc : s.calls[c]? = some ⟨r, name, phase⟩) {l : Nat}
    {rest : List Nat} (first : (s.lock l).waiting = c :: rest) : phase = .waiting l := by
  have hawaits : s.locking.Stands c (.awaits l) := hs.queued.mp (first ▸ List.mem_cons_self)
  exact Phase.eq_waiting ((Locking.stands_of_place (place_locking hc)).unique hawaits)

end State

/-- No step changes what a call will return. -/
theorem Step.outcome {s t : State} {m : Move} (h : Step s m t) (hs : s.locking.Sound) {c r : Nat} {name : String}
    {phase : Phase} {result : Except ProviderError Snapshot} (hc : s.calls[c]? = some ⟨r, name, phase⟩)
    (houtcome : phase.outcome? = some result) :
    ∃ phase', t.calls[c]? = some ⟨r, name, phase'⟩ ∧ phase'.outcome? = some result := by
  rcases h.calls c with hsame | ⟨call, hcall, harrival⟩
  · exact ⟨phase, hsame.trans hc, houtcome⟩
  · cases harrival with
    | hit fresh | miss fresh | missPlain fresh => cases hc.symm.trans fresh
    | store hd =>
        cases hc.symm.trans hd
        cases houtcome
        exact ⟨_, hcall, Phase.outcome?_ended⟩
    | release hd | leave hd | tidy hd =>
        cases hc.symm.trans hd
        exact ⟨_, hcall, houtcome⟩
    | handed hd first =>
        cases hc.symm.trans hd
        cases State.eq_waiting_of_first hs hc first
        cases houtcome
    | approach hd | acquire hd | enqueue hd | found hd | foundNone hd | ask hd | given hd | failed hd =>
        cases hc.symm.trans hd
        cases houtcome

namespace State

variable {s t u : State} {c k r : Nat} {name : String} {m : Move} {ms : List Move} {phase : Phase}
  {snapshot : Snapshot} {result : Except ProviderError Snapshot} {answer : Except ProviderError AttributeMap}

theorem outcome_run (hs : s.locking.Orderly) (hc : s.calls[c]? = some ⟨r, name, phase⟩)
    (houtcome : phase.outcome? = some result) (run : s.run? ms = some t) :
    ∃ phase', t.calls[c]? = some ⟨r, name, phase'⟩ ∧ phase'.outcome? = some result := by
  refine (run?_invariant (P := fun t => t.locking.Orderly ∧ ∃ phase', t.calls[c]? = some ⟨r, name, phase'⟩ ∧
    phase'.outcome? = some result) ?_ ⟨hs, phase, hc, houtcome⟩ run).2
  rintro u m v ⟨hu, phase', hc', houtcome'⟩ step
  exact ⟨step.orderly hu, step.outcome hu.sound hc' houtcome'⟩

/-- What a finished call has returned is what it was to return at any time before. -/
theorem finished_of_outcome (hs : s.locking.Orderly) (hc : s.calls[c]? = some ⟨r, name, phase⟩)
    (houtcome : phase.outcome? = some result) (run : s.run? ms = some t) {r' : Nat} {name' : String}
    {result' : Except ProviderError Snapshot} (hend : t.calls[c]? = some ⟨r', name', .finished result'⟩) :
    result' = result := by
  obtain ⟨phase', hc', houtcome'⟩ := outcome_run hs hc houtcome run
  cases hend.symm.trans hc'
  exact Option.some.inj houtcome'

/-! ### Where results come from -/

/-- All that calls have come to in a row of steps comes from these steps. -/
structure Traced (s : State) (ms : List Move) (t : State) : Prop where
  asked : ∀ {c r name}, t.Fetches r name c → s.Asked r name c ms
  given : ∀ {c r : Nat} {name phase snapshot}, t.calls[c]? = some ⟨r, name, phase⟩ →
    phase.given? = some snapshot → snapshot.id = c ∧ s.Answered r name c ms (.ok snapshot.map)
  known : ∀ {c r : Nat} {name phase result}, t.calls[c]? = some ⟨r, name, phase⟩ →
    phase.result? = some result → s.Source r name c ms result

theorem Initial.traced (initial : s.Initial) : s.Traced [] s := by
  refine ⟨?_, ?_, ?_⟩
  · rintro c r name ⟨phase, hc, -⟩
    cases (initial.calls c).symm.trans hc
  · intro c r name phase snapshot hc
    cases (initial.calls c).symm.trans hc
  · intro c r name phase result hc
    cases (initial.calls c).symm.trans hc

namespace Traced

variable (h : s.Traced ms t) (run : s.run? ms = some t) (step : t.step? m = some u)
include h run step

theorem given_step (hc : u.calls[c]? = some ⟨r, name, phase⟩) (hgiven : phase.given? = some snapshot) :
    snapshot.id = c ∧ s.Answered r name c (ms ++ [m]) (.ok snapshot.map) := by
  rcases (step?_cases step).calls c with hsame | ⟨call, hcall, harrival⟩
  · obtain ⟨hid, hanswered⟩ := h.given (hsame.symm.trans hc) hgiven
    exact ⟨hid, hanswered.append⟩
  · cases hcall.symm.trans hc
    cases harrival with
    | given hbefore =>
        cases hgiven
        have hfetches : t.Fetches r name c := ⟨_, hbefore, rfl⟩
        exact ⟨rfl, ms, [], t, rfl, h.asked hfetches, run, hfetches⟩
    | store | failed =>
        rw [Phase.given?_ended] at hgiven
        cases hgiven
    | _ => cases hgiven

theorem known_step (hc : u.calls[c]? = some ⟨r, name, phase⟩) (hresult : phase.result? = some result) :
    s.Source r name c (ms ++ [m]) result := by
  rcases (step?_cases step).calls c with hsame | ⟨call, hcall, harrival⟩
  · exact (h.known (hsame.symm.trans hc) hresult).append
  · cases hcall.symm.trans hc
    cases harrival with
    | hit fresh hx hfound =>
        cases hresult
        exact .cache ⟨ms, _, [], t, _, rfl, run, .first, cacheOf?_of_resolver hx, hfound⟩
    | found hbefore hx hfound =>
        cases hresult
        exact .cache ⟨ms, _, [], t, _, rfl, run, .again hbefore, cacheOf?_of_resolver hx, hfound⟩
    | store hbefore =>
        rw [Phase.result?_ended] at hresult
        cases hresult
        obtain ⟨rfl, hanswered⟩ := h.given hbefore rfl
        exact .provider hanswered.append
    | failed hbefore =>
        rw [Phase.result?_ended] at hresult
        cases hresult
        have hfetches : t.Fetches r name c := ⟨_, hbefore, rfl⟩
        exact .provider ⟨ms, [], t, rfl, h.asked hfetches, run, hfetches⟩
    | release hbefore | leave hbefore | tidy hbefore => exact (h.known hbefore hresult).append
    | _ => cases hresult

end Traced

theorem Traced.step (h : s.Traced ms t) (run : s.run? ms = some t) (step : t.step? m = some u) :
    s.Traced (ms ++ [m]) u :=
  ⟨fun hc => Asked.step run step hc h.asked, h.given_step run step, h.known_step run step⟩

theorem Initial.traced_run (initial : s.Initial) (run : s.run? ms = some t) : s.Traced ms t :=
  run?_history (q := fun _ => True) initial.traced (fun run h _ step => h.step run step) (fun _ _ => trivial) run

/-- A call returns what the provider said to it. -/
theorem Answered.outcome (initial : s.Initial) (h : s.Answered r name c ms answer) (run : s.run? ms = some t) :
    ∃ phase, t.calls[c]? = some ⟨r, name, phase⟩ ∧ phase.outcome? = some (answer.map (⟨c, ·⟩)) := by
  obtain ⟨asking, after, u, rfl, -, hasking, phase, hc, hasked⟩ := h
  obtain ⟨u', hu', hrest⟩ := run?_append.mp run
  cases hasking.symm.trans hu'
  obtain ⟨v, hv, hafter⟩ := run?_cons.mp hrest
  have hstep := step?_cases hv
  have horderly : v.locking.Orderly := hstep.orderly (initial.coherent_run hasking).orderly
  cases hstep with
  | @given _ _ _ lock map hd =>
      cases hc.symm.trans hd
      have hgiven : (u.put c ⟨r, name, .fetching lock⟩ (.storing lock ⟨c, map⟩)).calls[c]? =
          some ⟨r, name, .storing lock ⟨c, map⟩⟩ := getElem?_put.trans (if_pos rfl)
      exact outcome_run horderly hgiven rfl hafter
  | @failed _ _ _ lock e hd =>
      cases hc.symm.trans hd
      have hfailed : (u.put c ⟨r, name, .fetching lock⟩ (.ended lock (.error e))).calls[c]? =
          some ⟨r, name, .ended lock (.error e)⟩ := getElem?_put.trans (if_pos rfl)
      exact outcome_run horderly hfailed Phase.outcome?_ended hafter

/-- What was written in a row of steps was written by one of them. -/
theorem exists_write?_of_mem_writes {w : Write} (run : s.run? ms = some t) (hw : w ∈ s.writes ms) :
    ∃ before m after u, ms = before ++ m :: after ∧ s.run? before = some u ∧ u.write? m = some w := by
  induction ms generalizing s with
  | nil => cases hw
  | cons m ms ih =>
      obtain ⟨u, hu, hrun⟩ := run?_cons.mp run
      rw [writes_cons hu, List.mem_append, Option.mem_toList] at hw
      rcases hw with hfirst | hlater
      · exact ⟨[], m, ms, s, rfl, rfl, hfirst⟩
      · obtain ⟨before, m', after, v, rfl, hbefore, hwrite⟩ := ih hrun hlater
        exact ⟨m :: before, m', after, v, rfl, run?_cons.mpr ⟨u, hu, hbefore⟩, hwrite⟩

end State

open State in
/-- A step that writes nothing leaves all that the caches have as it is. -/
theorem Step.cached?_of_write? {s t : State} {m : Move} (h : Step s m t) (nothing : s.write? m = none) (k : Nat)
    (name : String) : t.cached? k name = s.cached? k name := by
  by_cases hk : k < s.caches.length
  · rw [h.entry hk, nothing]
    rfl
  · have hlength : t.caches.length = s.caches.length := congrArg Prod.fst h.setup
    have hnone : s.caches[k]? = none := List.getElem?_eq_none (Nat.le_of_not_lt hk)
    have hnone' : t.caches[k]? = none := List.getElem?_eq_none (hlength ▸ Nat.le_of_not_lt hk)
    rw [cached?, cached?, hnone, hnone']

namespace State

variable {s t : State} {ms : List Move}

/-- What the caches have is what was written, and a call writes only what the provider gave to this call. What the
provider says to a call is what the call will return, whatever happens until then. Every result that a call returns
was in its cache when it looked, or is what the provider said to this very call; and it is an error exactly if the
provider failed this call with it. None of the steps of a call that returns an error changes anything in the
caches. -/
theorem failures_leave_no_trace (initial : s.Initial) (run : s.run? ms = some t) :
    (∀ k name, k < s.caches.length →
      t.cached? k name = (s.writes ms).foldl (Write.entry k name) (s.cached? k name)) ∧
    (∀ c k name snapshot, .store c k name snapshot ∈ s.writes ms →
      ∃ r, s.cacheOf? r = some k ∧ snapshot.id = c ∧ s.Answered r name c ms (.ok snapshot.map)) ∧
    (∀ c r name answer, s.Answered r name c ms answer →
      ∃ phase, t.calls[c]? = some ⟨r, name, phase⟩ ∧ phase.outcome? = some (answer.map (⟨c, ·⟩))) ∧
    ∀ (c r : Nat) name result, t.calls[c]? = some ⟨r, name, .finished result⟩ →
      s.Source r name c ms result ∧ ∀ e, (result = .error e ↔ s.Answered r name c ms (.error e)) ∧
        (result = .error e → ∀ before m after u v, ms = before ++ m :: after → s.run? before = some u →
          m.call? = some c → u.step? m = some v → ∀ k name, v.cached? k name = u.cached? k name) := by
  refine ⟨fun k name hk => cached?_eq_foldl_writes hk run name, ?_,
    fun c r name answer hanswered => hanswered.outcome initial run, ?_⟩
  · intro c k name snapshot hw
    obtain ⟨before, m, after, u, rfl, hbefore, hwrite⟩ := exists_write?_of_mem_writes run hw
    obtain ⟨rfl, r, lock, hc, hk⟩ := write?_eq_store_iff.mp hwrite
    obtain ⟨hid, hanswered⟩ := (initial.traced_run hbefore).given hc rfl
    rw [cacheOf?_run hbefore] at hk
    exact ⟨r, hk, hid, hanswered.append⟩
  · intro c r name result hc
    have hsource : s.Source r name c ms result := (initial.traced_run run).known hc rfl
    refine ⟨hsource, fun e => ⟨⟨?_, ?_⟩, ?_⟩⟩
    · rintro rfl
      exact hsource.answered_of_error
    · intro hanswered
      obtain ⟨phase, hphase, houtcome⟩ := hanswered.outcome initial run
      cases hc.symm.trans hphase
      exact Option.some.inj houtcome
    · rintro rfl before m after u v rfl hbefore hm hstep
      refine (step?_cases hstep).cached?_of_write? ?_
      -- A call that writes was given a map, and will not return an error.
      refine Option.eq_none_iff_forall_not_mem.mpr fun w hw => ?_
      obtain ⟨r', name', lock, snapshot, hstoring⟩ := storing_of_write? hm hw
      obtain ⟨u', hu', hrest⟩ := run?_append.mp run
      cases hbefore.symm.trans hu'
      cases finished_of_outcome (initial.coherent_run hbefore).orderly hstoring rfl hrest hc

/-- The provider fails for the first call while the second one waits for the lock. The second call finds nothing
either, and the provider gives it a map, although a plain call that began meanwhile fails too. The last call finds
the map of the second one. -/
theorem failures_leave_no_trace_for_waiting :
    let s : State := { caches := [{}], resolvers := [{ cache := 0 }, { singleFlight := false, cache := 0 }] }
    let e : ProviderError := .unavailable "down"
    let ms : List Move := [.start 0 0 "a", .advance 0, .advance 0, .advance 0, .advance 0, .start 1 0 "a",
      .advance 1, .advance 1, .start 2 1 "a", .set 0 "b" ⟨9, ∅⟩, .answer 0 (.error e), .advance 0, .advance 2,
      .invalidate 0 "b", .advance 1, .advance 1, .answer 2 (.error (.remote "X" "no")), .answer 1 (.ok ∅), .advance 1,
      .start 3 0 "a", .advance 0, .advance 1, .advance 0, .advance 1, .advance 1]
    ∃ t, s.run? ms = some t ∧ t.calls[0]? = some ⟨0, "a", .finished (.error e)⟩ ∧
      s.Answered 0 "a" 0 ms (.error e) ∧
      (∃ snapshot, t.calls[1]? = some ⟨0, "a", .finished (.ok snapshot)⟩ ∧
        s.Source 0 "a" 1 ms (.ok snapshot) ∧ ¬ s.Answered 0 "a" 1 ms (.error e)) ∧
      t.cached? 0 "b" = (s.writes ms).foldl (Write.entry 0 "b") none := by
  intro s e ms
  have initial : s.Initial := initial_of_new (by decide)
  obtain ⟨t, run, hfirst, hsecond⟩ : ∃ t, s.run? ms = some t ∧
      (∃ call, t.calls[0]? = some call ∧ (call.resolver = 0 ∧ call.name = "a") ∧ call.phase.failure? = some e) ∧
      ∃ call, t.calls[1]? = some call ∧ (call.resolver = 0 ∧ call.name = "a") ∧ call.phase.returned? ≠ none := by
    have h : (s.run? ms).any (fun t =>
        (t.calls[0]?.any fun call => (call.resolver == 0 && call.name == "a") && call.phase.failure? == some e) &&
        t.calls[1]?.any fun call => (call.resolver == 0 && call.name == "a") && call.phase.returned?.isSome) =
        true := by decide +kernel
    simpa only [Option.any_eq_true, Bool.and_eq_true, beq_iff_eq, Option.isSome_iff_ne_none] using h
  obtain ⟨⟨r, name, phase⟩, hcall, ⟨rfl, rfl⟩, hfailure⟩ := hfirst
  cases Phase.eq_finished_of_failure? hfailure
  obtain ⟨⟨r, name, phase⟩, hcall', ⟨rfl, rfl⟩, hreturned⟩ := hsecond
  obtain ⟨snapshot, hsnapshot⟩ := Option.ne_none_iff_exists'.mp hreturned
  cases Phase.eq_finished_of_returned? hsnapshot
  obtain ⟨hentries, -, -, hresults⟩ := failures_leave_no_trace initial run
  obtain ⟨hsource, hiff⟩ := hresults 1 0 "a" _ hcall'
  refine ⟨t, run, hcall, ((hresults 0 0 "a" _ hcall).2 e).1.mp rfl, ⟨snapshot, hcall', hsource, ?_⟩,
    hentries 0 "b" Nat.one_pos⟩
  intro hanswered
  cases (hiff e).1.mpr hanswered

end State

end ODataQuery.Resolver
