import ODataQuery.Proofs.Resolver.Failures
import ODataQuery.Proofs.Resolver.OneInstance
import ODataQuery.Proofs.Resolver.View

/-!
Prefetching. A prefetch is over when each of its calls has ended, and goes by the order of its names alone: it
reports the first error in this order, or none. What its calls have found or stored is in the cache then, whether
or not others of them have failed; and a name for which all of them have failed is not there by their doing.
-/

namespace ODataQuery.Resolver

namespace State

variable {s t u : State} {c k r : Nat} {name : String} {m : Move} {ms before : List Move} {cs : List Nat}
  {result : Except ProviderError Snapshot} {e : ProviderError}

/-! ### The results of several calls -/

theorem result?_eq_some_iff : s.result? c = some result ↔ ∃ r name, s.calls[c]? = some ⟨r, name, .finished result⟩ := by
  constructor
  · intro h
    simp only [result?] at h
    split at h
    · rename_i r name result' hc
      cases h
      exact ⟨r, name, hc⟩
    · cases h
  · rintro ⟨r, name, hc⟩
    rw [result?, hc]

theorem prefetch?_nil : s.prefetch? [] = some (.ok ()) := rfl

theorem prefetch?_cons : s.prefetch? (c :: cs) = (s.result? c).bind fun result => (s.prefetch? cs).map fun rest =>
    match result with
    | .ok _ => rest
    | .error e => .error e := by
  simp only [prefetch?, List.mapM_cons, Option.bind_eq_bind, Option.pure_def]
  cases s.result? c with
  | none => rfl
  | some result =>
      cases cs.mapM s.result? with
      | none => rfl
      | some results => cases result <;> rfl

/-- A prefetch is over exactly if all its calls have ended. -/
theorem prefetch?_ne_none_iff : s.prefetch? cs ≠ none ↔ ∀ c ∈ cs, s.result? c ≠ none := by
  induction cs with
  | nil => simp [prefetch?_nil]
  | cons c cs ih =>
      rw [prefetch?_cons, List.forall_mem_cons, ← ih]
      cases s.result? c with
      | none => simp
      | some result => simp

theorem prefetch?_eq_ok_iff : s.prefetch? cs = some (.ok ()) ↔ ∀ c ∈ cs, ∃ a, s.result? c = some (.ok a) := by
  induction cs with
  | nil => simp [prefetch?_nil]
  | cons c cs ih =>
      rw [prefetch?_cons, List.forall_mem_cons, ← ih]
      cases s.result? c with
      | none => simp
      | some result =>
          cases result with
          | ok a => simp
          | error e => simp

/-- A prefetch reports the error of the first call, in the order of its names, that has failed. -/
theorem prefetch?_eq_error_iff : s.prefetch? cs = some (.error e) ↔ (∀ c ∈ cs, s.result? c ≠ none) ∧
    ∃ first c rest, cs = first ++ c :: rest ∧ (∀ d ∈ first, ∃ a, s.result? d = some (.ok a)) ∧
      s.result? c = some (.error e) := by
  induction cs with
  | nil => simp [prefetch?_nil]
  | cons c cs ih =>
      rw [prefetch?_cons, List.forall_mem_cons]
      cases hc : s.result? c with
      | none => simp
      | some result =>
          cases result with
          | ok a =>
              simp only [Option.bind_some, Option.map_id', ih, ne_eq, reduceCtorEq, not_false_eq_true, true_and]
              refine and_congr_right fun _ => ⟨?_, ?_⟩
              · rintro ⟨first, d, rest, rfl, hfirst, hd⟩
                exact ⟨c :: first, d, rest, rfl, List.forall_mem_cons.mpr ⟨⟨a, hc⟩, hfirst⟩, hd⟩
              · rintro ⟨first, d, rest, hcs, hfirst, hd⟩
                cases first with
                | nil =>
                    cases hcs
                    cases hc.symm.trans hd
                | cons c' first =>
                    cases hcs
                    exact ⟨first, d, rest, rfl, (List.forall_mem_cons.mp hfirst).2, hd⟩
          | error e' =>
              rw [← prefetch?_ne_none_iff]
              simp only [Option.bind_some, Option.map_eq_some_iff, ne_eq, reduceCtorEq, not_false_eq_true, true_and]
              constructor
              · rintro ⟨result, hresult, hsame⟩
                cases hsame
                exact ⟨hresult ▸ Option.some_ne_none result, [], c, cs, rfl, by simp, hc⟩
              · rintro ⟨hover, first, d, rest, hcs, hfirst, hd⟩
                cases first with
                | nil =>
                    cases hcs
                    cases hc.symm.trans hd
                    obtain ⟨result, hresult⟩ := Option.ne_none_iff_exists'.mp hover
                    exact ⟨result, hresult, rfl⟩
                | cons c' first =>
                    cases hcs
                    obtain ⟨⟨a, ha⟩, -⟩ := List.forall_mem_cons.mp hfirst
                    cases hc.symm.trans ha

/-! ### A call from its beginning -/

theorem call_run (hc : ∃ phase, s.calls[c]? = some ⟨r, name, phase⟩) (run : s.run? ms = some t) :
    ∃ phase, t.calls[c]? = some ⟨r, name, phase⟩ :=
  run?_invariant (P := fun t => ∃ phase, t.calls[c]? = some ⟨r, name, phase⟩)
    (fun ⟨_, hc⟩ step => step.call_kept hc) hc run

/-- The state in which a call of a row of steps begins. Nobody has called with its number before. -/
theorem exists_of_start_mem (run : s.run? ms = some t) (begun : .start c r name ∈ ms) :
    ∃ first rest u v, ms = first ++ .start c r name :: rest ∧ s.run? first = some u ∧
      u.step? (.start c r name) = some v ∧ v.run? rest = some t ∧ u.calls[c]? = none ∧
      ∃ phase, v.calls[c]? = some ⟨r, name, phase⟩ := by
  obtain ⟨first, rest, rfl⟩ := List.append_of_mem begun
  obtain ⟨u, hu, hrest⟩ := run?_append.mp run
  obtain ⟨v, hv, hrun⟩ := run?_cons.mp hrest
  refine ⟨first, rest, u, v, rfl, hu, hv, hrun, ?_⟩
  cases step?_cases hv with
  | hit fresh | miss fresh | missPlain fresh => exact ⟨fresh, _, getElem?_put.trans (if_pos rfl)⟩

theorem call_of_start_mem (run : s.run? ms = some t) (begun : .start c r name ∈ ms) :
    ∃ phase, t.calls[c]? = some ⟨r, name, phase⟩ := by
  obtain ⟨first, rest, u, v, -, -, -, hrun, -, hc⟩ := exists_of_start_mem run begun
  exact call_run hc hrun

/-- A step takes nothing out of a cache that is there under a name. -/
def Keeps (k : Nat) (name : String) (s : State) (m : Move) : Prop := s.Removes k name m → s.cached? k name = none

instance (k : Nat) (name : String) (s : State) (m : Move) : Decidable (s.Keeps k name m) :=
  inferInstanceAs (Decidable (s.Removes k name m → s.cached? k name = none))

/-- If a call has found or stored something, the cache has something. -/
def Warm (s : State) (r k : Nat) (name : String) (c : Nat) : Prop :=
  ∀ phase a, s.calls[c]? = some ⟨r, name, phase⟩ → phase.result? = some (.ok a) → s.cached? k name ≠ none

end State

open State in
theorem Step.warm {s t : State} {m : Move} (h : Step s m t) (hs : Coherent s) {c k r : Nat} {name : String}
    (uses : s.cacheOf? r = some k) (keeps : s.Keeps k name m) (warm : s.Warm r k name c) : t.Warm r k name c := by
  have hkeep : s.cached? k name ≠ none → t.cached? k name ≠ none := fun hpresent =>
    (h.present hpresent).resolve_right fun hremoves => hpresent (keeps hremoves)
  intro phase a hc hresult
  rcases h.calls c with hsame | ⟨call, hcall, harrival⟩
  · exact hkeep (warm phase a (hsame.symm.trans hc) hresult)
  · cases hcall.symm.trans hc
    cases harrival with
    | hit fresh hx found | found hbefore hx found =>
        rw [cache_eq_of_cacheOf? uses hx] at found
        exact hkeep (found ▸ Option.some_ne_none _)
    | store hbefore =>
        obtain ⟨x, hx, rfl⟩ := Option.map_eq_some_iff.mp uses
        rw [(h.stored hbefore hx (hs.caches hx)).1]
        exact Option.some_ne_none _
    | release hbefore | leave hbefore | tidy hbefore => exact hkeep (warm _ a hbefore hresult)
    | failed hbefore =>
        rw [Phase.result?_ended] at hresult
        cases hresult
    | _ => cases hresult

namespace State

variable {s t u : State} {c k r : Nat} {name : String} {m : Move} {ms before : List Move} {cs : List Nat}
  {result : Except ProviderError Snapshot} {e : ProviderError}

/-- What a call that began in a row of steps has found or stored is there in the end, if it is not taken out. -/
theorem cached?_of_begun (hs : Coherent s) (uses : s.cacheOf? r = some k) (keeps : s.Each (Keeps k name) ms)
    (run : s.run? ms = some t) (begun : .start c r name ∈ ms) {a : Snapshot}
    (hc : t.calls[c]? = some ⟨r, name, .finished (.ok a)⟩) : t.cached? k name ≠ none := by
  obtain ⟨first, rest, u, v, rfl, hu, hv, hrun, fresh, -⟩ := exists_of_start_mem run begun
  have hcoherent : Coherent u := hs.run hu
  have hlater : u.Each (Keeps k name) (.start c r name :: rest) := ((each_append hu).mp keeps).2
  have hwarm : u.Warm r k name c := by
    intro phase a hc
    cases fresh.symm.trans hc
  have huses : u.cacheOf? r = some k := (cacheOf?_run hu).trans uses
  refine (run?_keeps (P := fun t => Coherent t ∧ t.cacheOf? r = some k ∧ t.Warm r k name c) ?_ hlater
    ⟨hcoherent, huses, hwarm⟩ (run?_cons.mpr ⟨v, hv, hrun⟩)).2.2 _ a hc rfl
  rintro s m t ⟨hs, huses, hwarm⟩ hm hstep
  exact ⟨hstep.coherent hs, (cacheOf?_of_setup hstep.setup).trans huses, hstep.warm hs huses hm hwarm⟩

/-- A call that will return an error found nothing when it began. -/
theorem missing_of_failed (hs : Coherent s) (uses : s.cacheOf? r = some k) (step : s.step? (.start c r name) = some t)
    (run : t.run? ms = some u) (hc : u.calls[c]? = some ⟨r, name, .finished (.error e)⟩) :
    s.cached? k name = none := by
  have hstep := step?_cases step
  have horderly : t.locking.Orderly := hstep.orderly hs.orderly
  cases hstep with
  | @hit _ _ _ x snapshot fresh hx found =>
      have hfound : ((s.look x.cache name).put c ⟨r, name, .missed⟩ (.finished (.ok snapshot))).calls[c]? =
          some ⟨r, name, .finished (.ok snapshot)⟩ := getElem?_put.trans (if_pos rfl)
      cases finished_of_outcome horderly hfound rfl run hc
  | miss fresh hx missing | missPlain fresh hx missing =>
      rwa [cache_eq_of_cacheOf? uses hx] at missing

/-- The calls of a row of steps with their names: each of them begins in it. -/
def Begun (r : Nat) (calls : List (String × Nat)) (ms : List Move) : Prop := ∀ p ∈ calls, .start p.2 r p.1 ∈ ms

variable {calls : List (String × Nat)}

theorem Begun.result?_eq_some_iff (begun : Begun r calls ms) (run : s.run? ms = some t) {p : String × Nat}
    (hp : p ∈ calls) : t.result? p.2 = some result ↔ t.calls[p.2]? = some ⟨r, p.1, .finished result⟩ := by
  obtain ⟨phase, hc⟩ := call_of_start_mem run (begun p hp)
  rw [State.result?_eq_some_iff]
  constructor
  · rintro ⟨r', name', hc'⟩
    cases hc.symm.trans hc'
    exact hc
  · intro hc'
    exact ⟨r, p.1, hc'⟩

/-- A name for which all calls have failed is not in the cache, if only these calls could have put it there. -/
theorem Begun.cached?_eq_none (begun : Begun r calls ms) (hs : Coherent s) (uses : s.cacheOf? r = some k)
    (run : s.run? ms = some t) (hc : (name, c) ∈ calls)
    (failed : ∀ d, (name, d) ∈ calls → ∃ e, t.calls[d]? = some ⟨r, name, .finished (.error e)⟩)
    (own : ∀ w ∈ s.writes ms, w.Fills k name → ∃ p ∈ calls, ∃ a, w = .store p.2 k name a) :
    t.cached? k name = none := by
  obtain ⟨e, hend⟩ := failed c hc
  obtain ⟨first, rest, u, v, rfl, hu, hv, hrun, -, -⟩ := exists_of_start_mem run (begun _ hc)
  have hcoherent : Coherent u := hs.run hu
  have huses : u.cacheOf? r = some k := (cacheOf?_run hu).trans uses
  have hmissing : u.cached? k name = none := missing_of_failed hcoherent huses hv hrun hend
  have hk : k < u.caches.length := by
    obtain ⟨x, hx, rfl⟩ := Option.map_eq_some_iff.mp huses
    exact hcoherent.caches hx
  have hlater : u.run? (.start c r name :: rest) = some t := run?_cons.mpr ⟨v, hv, hrun⟩
  refine cached?_eq_none_of_writes hk hlater hmissing fun w hw hfills => ?_
  have hwrite : w ∈ s.writes (first ++ .start c r name :: rest) := by
    rw [writes_append hu]
    exact List.mem_append_right _ hw
  obtain ⟨p, hp, a, rfl⟩ := own w hwrite hfills
  -- What stores under the name is a call for it, and it will return what it stores.
  obtain ⟨before, m, after, u', hms, hbefore, hstore⟩ := exists_write?_of_mem_writes hlater hw
  obtain ⟨rfl, r', lock, hstoring, -⟩ := write?_eq_store_iff.mp hstore
  rw [hms] at hlater
  obtain ⟨u'', hu'', hrest⟩ := run?_append.mp hlater
  cases hbefore.symm.trans hu''
  have horderly : u'.locking.Orderly := (hcoherent.run hbefore).orderly
  obtain ⟨phase, hphase, houtcome⟩ := outcome_run horderly hstoring rfl hrest
  obtain ⟨phase', hphase'⟩ := call_of_start_mem run (begun p hp)
  cases hphase.symm.trans hphase'
  obtain ⟨e', hfailed⟩ := failed p.2 hp
  cases hphase.symm.trans hfailed
  cases houtcome

/-- A prefetch makes one call for each of its names, at any time after it began, and is over exactly if all of them
have ended. It reports nothing exactly if all have succeeded, and otherwise the error of the first that has failed,
in the order of the names, in whatever order they failed. A name for which one of its calls has succeeded is in the
cache then, if it was not taken out, be there an error or not; a name for which all of them have failed is not, if
nobody else put it there. -/
theorem prefetch_complete {s₀ : State} (initial : s₀.Initial) (earlier : s₀.run? before = some s)
    (uses : s.cacheOf? r = some k) (during : s.run? ms = some t) (begun : Begun r calls ms) :
    (t.prefetch? (calls.map Prod.snd) ≠ none ↔
      ∀ p ∈ calls, ∃ result, t.calls[p.2]? = some ⟨r, p.1, .finished result⟩) ∧
    (t.prefetch? (calls.map Prod.snd) = some (.ok ()) ↔
      ∀ p ∈ calls, ∃ a, t.calls[p.2]? = some ⟨r, p.1, .finished (.ok a)⟩) ∧
    (∀ e, t.prefetch? (calls.map Prod.snd) = some (.error e) ↔
      (∀ p ∈ calls, ∃ result, t.calls[p.2]? = some ⟨r, p.1, .finished result⟩) ∧
      ∃ first p rest, calls = first ++ p :: rest ∧
        (∀ q ∈ first, ∃ a, t.calls[q.2]? = some ⟨r, q.1, .finished (.ok a)⟩) ∧
        t.calls[p.2]? = some ⟨r, p.1, .finished (.error e)⟩) ∧
    (∀ name, s.Each (Keeps k name) ms → ∀ c a, (name, c) ∈ calls →
      t.calls[c]? = some ⟨r, name, .finished (.ok a)⟩ → t.cached? k name ≠ none) ∧
    ∀ name c, (name, c) ∈ calls →
      (∀ d, (name, d) ∈ calls → ∃ e, t.calls[d]? = some ⟨r, name, .finished (.error e)⟩) →
      (∀ w ∈ s.writes ms, w.Fills k name → ∃ p ∈ calls, ∃ a, w = .store p.2 k name a) →
      t.cached? k name = none := by
  have hs : Coherent s := initial.coherent_run earlier
  have hended : (∀ c ∈ calls.map Prod.snd, t.result? c ≠ none) ↔
      ∀ p ∈ calls, ∃ result, t.calls[p.2]? = some ⟨r, p.1, .finished result⟩ := by
    rw [List.forall_mem_map]
    refine forall₂_congr fun p hp => ?_
    rw [Option.ne_none_iff_exists']
    exact exists_congr fun result => begun.result?_eq_some_iff during hp
  refine ⟨prefetch?_ne_none_iff.trans hended, ?_, fun e => ?_, ?_, ?_⟩
  · rw [prefetch?_eq_ok_iff, List.forall_mem_map]
    exact forall₂_congr fun p hp => exists_congr fun a => begun.result?_eq_some_iff during hp
  · rw [prefetch?_eq_error_iff, hended]
    refine and_congr_right fun _ => ⟨?_, ?_⟩
    · rintro ⟨first, c, rest, hcalls, hfirst, hc⟩
      obtain ⟨first, tail, rfl, rfl, htail⟩ := List.map_eq_append_iff.mp hcalls
      obtain ⟨p, rest, rfl, rfl, rfl⟩ := List.map_eq_cons_iff.mp htail
      refine ⟨first, p, rest, rfl, fun q hq => ?_, (begun.result?_eq_some_iff during (by simp)).mp hc⟩
      obtain ⟨a, ha⟩ := hfirst q.2 (List.mem_map_of_mem hq)
      exact ⟨a, (begun.result?_eq_some_iff during (List.mem_append_left _ hq)).mp ha⟩
    · rintro ⟨first, p, rest, rfl, hfirst, hp⟩
      refine ⟨first.map Prod.snd, p.2, rest.map Prod.snd, by simp, ?_,
        (begun.result?_eq_some_iff during (by simp)).mpr hp⟩
      rw [List.forall_mem_map]
      intro q hq
      obtain ⟨a, ha⟩ := hfirst q hq
      exact ⟨a, (begun.result?_eq_some_iff during (List.mem_append_left _ hq)).mpr ha⟩
  · intro name keeps c a hmem hc
    exact cached?_of_begun hs uses keeps during (begun _ hmem) hc
  · intro name c hmem failed own
    exact begun.cached?_eq_none hs uses during hmem failed own

/-- A prefetch of three names, two of them the same, next to a plain call of another resolver. The call for the other
name fails first, and then the first call for the repeated name, behind which the second one waits; the second one
is given a map. What is reported is the error of the first name in the list. -/
theorem prefetch_complete_in_part :
    let s₀ : State := { caches := [{}], resolvers := [{ cache := 0 }, { singleFlight := false, cache := 0 }] }
    let before : List Move := [.start 0 1 "c", .advance 0]
    let ms : List Move := [.start 1 0 "a", .start 2 0 "b", .advance 1, .start 3 0 "a", .advance 1, .advance 1,
      .advance 1, .advance 2, .advance 3, .advance 3, .advance 2, .advance 2, .advance 2, .answer 0 (.ok ∅),
      .answer 2 (.error (.remote "X" "no")), .advance 0, .advance 2, .answer 1 (.error (.unavailable "down")),
      .advance 1, .advance 3, .invalidate 1 "b", .advance 3, .advance 2, .advance 2, .answer 3 (.ok ∅), .advance 1,
      .advance 1, .advance 3, .advance 3, .advance 3, .advance 3]
    ∃ s t, s₀.run? before = some s ∧ s.run? ms = some t ∧
      t.prefetch? [1, 2, 3] = some (.error (.unavailable "down")) ∧ t.cached? 0 "a" ≠ none ∧ t.cached? 0 "b" = none := by
  intro s₀ before ms
  have initial : s₀.Initial := initial_of_new (by decide)
  obtain ⟨s, earlier, uses, keeps, nobody, t, during, ⟨⟨r, name, phase⟩, h₁, ⟨rfl, rfl⟩, hfailure⟩,
      ⟨⟨r, name, phase'⟩, h₂, ⟨rfl, rfl⟩, hfailure'⟩, ⟨r, name, phase''⟩, h₃, ⟨rfl, rfl⟩, hreturned⟩ : ∃ s,
      s₀.run? before = some s ∧ s.cacheOf? 0 = some 0 ∧ s.Each (Keeps 0 "a") ms ∧
      (∀ w ∈ s.writes ms, ¬ w.Fills 0 "b") ∧ ∃ t, s.run? ms = some t ∧
      (∃ call, t.calls[1]? = some call ∧ (call.resolver = 0 ∧ call.name = "a") ∧
        call.phase.failure? = some (.unavailable "down")) ∧
      (∃ call, t.calls[2]? = some call ∧ (call.resolver = 0 ∧ call.name = "b") ∧
        call.phase.failure? = some (.remote "X" "no")) ∧
      ∃ call, t.calls[3]? = some call ∧ (call.resolver = 0 ∧ call.name = "a") ∧ call.phase.returned? ≠ none := by
    have h : (s₀.run? before).any (fun s => decide (s.cacheOf? 0 = some 0) && (decide (s.Each (Keeps 0 "a") ms) &&
        (decide (∀ w ∈ s.writes ms, ¬ w.Fills 0 "b") && (s.run? ms).any fun t =>
          (t.calls[1]?.any fun call => (call.resolver == 0 && call.name == "a") &&
            call.phase.failure? == some (.unavailable "down")) &&
          ((t.calls[2]?.any fun call => (call.resolver == 0 && call.name == "b") &&
            call.phase.failure? == some (.remote "X" "no")) &&
          t.calls[3]?.any fun call =>
            (call.resolver == 0 && call.name == "a") && call.phase.returned?.isSome)))) = true := by
      decide +kernel
    simpa only [Option.any_eq_true, Bool.and_eq_true, beq_iff_eq, Option.isSome_iff_ne_none,
      decide_eq_true_eq] using h
  cases Phase.eq_finished_of_failure? hfailure
  cases Phase.eq_finished_of_failure? hfailure'
  obtain ⟨a, ha⟩ := Option.ne_none_iff_exists'.mp hreturned
  cases Phase.eq_finished_of_returned? ha
  have begun : Begun 0 [("a", 1), ("b", 2), ("a", 3)] ms := by simp [Begun, ms]
  obtain ⟨-, -, herror, hcached, hmissing⟩ := prefetch_complete initial earlier uses during begun
  refine ⟨s, t, earlier, during, ?_, hcached "a" keeps 3 a (by simp) h₃, hmissing "b" 2 (by simp) ?_ ?_⟩
  · refine (herror _).mpr ⟨?_, [], ("a", 1), _, rfl, by simp, h₁⟩
    simp only [List.forall_mem_cons]
    exact ⟨⟨_, h₁⟩, ⟨_, h₂⟩, ⟨_, h₃⟩, by simp⟩
  · intro d hd
    have hd : d = 2 := by simpa using hd
    exact ⟨_, hd ▸ h₂⟩
  · intro w hw hfills
    exact absurd hfills (nobody w hw)

end State

end ODataQuery.Resolver
