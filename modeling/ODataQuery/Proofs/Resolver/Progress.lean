import ODataQuery.Proofs.Resolver.Prefetch

/-!
No deadlock. A call refers to one lock in all its life, so it never waits for one while it has another. Nobody waits
for a lock that nobody has; and who has a lock waits for nothing but the provider. So whenever a call has not ended
yet, some call can go on, or goes on as soon as the provider has answered it.
-/

namespace ODataQuery.Resolver

/-- A call of a resolver that is there, which does not wait and has not ended, can go on by itself, or it is with
the provider. -/
theorem Step.exists_advance {s : State} {c r : Nat} {name : String} {phase : Phase} {x : Resolver}
    (hc : s.calls[c]? = some ⟨r, name, phase⟩) (hx : s.resolvers[r]? = some x) (patient : ∀ l, phase ≠ .waiting l)
    (unfinished : ∀ result, phase ≠ .finished result) (idle : phase.asked = false) :
    ∃ t, Step s (.advance c) t := by
  cases phase with
  | missed =>
      cases hl : s.lockFor? r name with
      | some l => exact ⟨_, .take hc hx hl⟩
      | none => exact ⟨_, .make hc hx hl⟩
  | approaching l =>
      cases hl : (s.lock l).holder with
      | none => exact ⟨_, .acquire hc hx hl⟩
      | some d => exact ⟨_, .enqueue hc hx hl⟩
  | granted l =>
      cases hs : s.cached? x.cache name with
      | some snapshot => exact ⟨_, .found hc hx hs⟩
      | none => exact ⟨_, .foundNone hc hx hs⟩
  | asking lock => exact ⟨_, .ask hc hx⟩
  | storing lock snapshot => exact ⟨_, .store hc hx⟩
  | releasing l result =>
      cases hq : (s.lock l).waiting with
      | cons next rest => exact ⟨_, .handOver hc hx hq⟩
      | nil => exact ⟨_, .free hc hx hq⟩
  | leaving l result => exact ⟨_, .leave hc hx⟩
  | tidying result =>
      by_cases hl : ∃ l, s.lockFor? r name = some l ∧ (s.lock l).users = []
      · obtain ⟨l, there, nobody⟩ := hl
        exact ⟨_, .clearTable hc hx there nobody⟩
      · exact ⟨_, .keepTable hc hx fun l there nobody => hl ⟨l, there, nobody⟩⟩
  | waiting l => exact absurd rfl (patient l)
  | fetching lock => cases idle
  | finished result => exact absurd rfl (unfinished result)

namespace State

/-- A call has begun and has not ended. -/
def Unfinished (s : State) (c : Nat) : Prop :=
  ∃ r name phase, s.calls[c]? = some ⟨r, name, phase⟩ ∧ ∀ result, phase ≠ .finished result

/-- A call waits for a lock. -/
def Awaits (s : State) (c l : Nat) : Prop := ∃ r name, s.calls[c]? = some ⟨r, name, .waiting l⟩

/-- A call has a lock, be it that it got hold of it or that it was handed over. -/
def Holds (s : State) (c l : Nat) : Prop := (s.lock l).holder = some c

/-- A call can take its next step, or the provider works on it, and it can take whatever the answer is. -/
def Ready (s : State) (c : Nat) : Prop :=
  (∃ t, s.step? (.advance c) = some t) ∨
    (∃ r name, s.Fetches r name c) ∧ ∀ answer, ∃ t, s.step? (.answer c answer) = some t

/-- Every call is one of a resolver that is there. -/
def Housed (s : State) : Prop :=
  ∀ (c : Nat) r name phase, s.calls[c]? = some ⟨r, name, phase⟩ → ∃ x, s.resolvers[r]? = some x

variable {s t u : State} {c d l l' r : Nat} {name : String} {phase : Phase} {ms between : List Move}

theorem Housed.ready (h : s.Housed) (hc : s.calls[c]? = some ⟨r, name, phase⟩) (patient : ∀ l, phase ≠ .waiting l)
    (unfinished : ∀ result, phase ≠ .finished result) : s.Ready c := by
  obtain ⟨x, hx⟩ := h c r name phase hc
  cases hasked : phase.asked with
  | false =>
      obtain ⟨t, hstep⟩ := Step.exists_advance hc hx patient unfinished hasked
      exact Or.inl ⟨t, step?_of_step hstep⟩
  | true =>
      refine Or.inr ⟨⟨r, name, phase, hc, hasked⟩, fun answer => ?_⟩
      cases phase with
      | fetching lock =>
          cases answer with
          | ok map => exact ⟨_, step?_of_step (.given hc)⟩
          | error e => exact ⟨_, step?_of_step (.failed hc)⟩
      | _ => cases hasked

theorem unfinished_of_result? (begun : s.calls[c]? ≠ none) (h : s.result? c = none) : s.Unfinished c := by
  obtain ⟨⟨r, name, phase⟩, hc⟩ := Option.ne_none_iff_exists'.mp begun
  refine ⟨r, name, phase, hc, ?_⟩
  rintro result rfl
  cases h.symm.trans (result?_eq_some_iff.mpr ⟨r, name, hc⟩)

/-! ### Who holds a lock and who waits for it -/

theorem awaits_iff (hs : s.locking.Sound) : s.Awaits c l ↔ c ∈ (s.lock l).waiting := by
  constructor
  · rintro ⟨r, name, hc⟩
    exact hs.queued.mpr (Locking.stands_of_place (place_locking hc))
  · intro hmem
    obtain ⟨p, hp, hstanding⟩ := hs.queued.mp hmem
    obtain ⟨⟨r, name, phase⟩, hc, rfl⟩ := Option.map_eq_some_iff.mp hp
    cases Phase.eq_waiting hstanding
    exact ⟨r, name, hc⟩

/-- Who has a lock is a call under way that waits for nothing. -/
theorem Holds.call (h : s.Holds c l) (hs : s.locking.Sound) :
    ∃ r name phase, s.calls[c]? = some ⟨r, name, phase⟩ ∧ phase.standing = .has l ∧
      (∀ l', phase ≠ .waiting l') ∧ ∀ result, phase ≠ .finished result := by
  obtain ⟨p, hp, hstanding⟩ := hs.held.mp h
  obtain ⟨⟨r, name, phase⟩, hc, rfl⟩ := Option.map_eq_some_iff.mp hp
  refine ⟨r, name, phase, hc, hstanding, ?_, ?_⟩
  · rintro l' rfl
    cases hstanding
  · rintro result rfl
    cases hstanding

theorem Holds.not_awaits (h : s.Holds c l) (hs : s.locking.Sound) : ¬ s.Awaits c l' := by
  rintro ⟨r, name, hc⟩
  obtain ⟨r', name', phase, hc', -, patient, -⟩ := h.call hs
  cases hc.symm.trans hc'
  exact patient l' rfl

/-- A lock that is awaited is held. -/
theorem Awaits.exists_holds (h : s.Awaits c l) (hs : s.locking.Orderly) : ∃ d, s.Holds d l := by
  refine Option.ne_none_iff_exists'.mp fun hnone => ?_
  have hmem : c ∈ (s.lock l).waiting := (awaits_iff hs.sound).mp h
  have hempty : (s.lock l).waiting = [] := hs.served l hnone
  rw [hempty] at hmem
  cases hmem

/-- The lock that a call holds or awaits is the one it refers to. -/
theorem exists_refers (h : s.Holds c l ∨ s.Awaits c l) (hs : s.locking.Sound) :
    ∃ r name phase, s.calls[c]? = some ⟨r, name, phase⟩ ∧ phase.standing.lock? = some l := by
  rcases h with hholds | ⟨r, name, hc⟩
  · obtain ⟨r, name, phase, hc, hstanding, -⟩ := hholds.call hs
    exact ⟨r, name, phase, hc, hstanding ▸ rfl⟩
  · exact ⟨r, name, _, hc, rfl⟩

end State

/-- A call that refers to a lock refers to the same one after a step, or to none any more. -/
theorem Step.refers {s t : State} {m : Move} (h : Step s m t) (hs : s.locking.Sound) {c r l : Nat} {name : String}
    {phase : Phase} (hc : s.calls[c]? = some ⟨r, name, phase⟩)
    (hl : phase.standing.lock? = some l ∨ phase.standing = .past) : ∃ r name phase,
      t.calls[c]? = some ⟨r, name, phase⟩ ∧ (phase.standing.lock? = some l ∨ phase.standing = .past) := by
  rcases h.calls c with hsame | ⟨call, hcall, harrival⟩
  · exact ⟨r, name, phase, hsame.trans hc, hl⟩
  · cases harrival with
    | hit fresh | miss fresh | missPlain fresh => cases hc.symm.trans fresh
    | approach hd =>
        cases hc.symm.trans hd
        rcases hl with hl | hl <;> cases hl
    | handed hd first =>
        cases hc.symm.trans hd
        cases State.eq_waiting_of_first hs hc first
        exact ⟨_, _, _, hcall, hl.imp_right (nomatch ·)⟩
    | @store _ _ _ lock _ hd | @failed _ _ _ lock _ hd =>
        cases hc.symm.trans hd
        cases lock with
        | none => exact ⟨_, _, _, hcall, Or.inr rfl⟩
        | some l' => exact ⟨_, _, _, hcall, hl⟩
    | leave hd | tidy hd => exact ⟨_, _, _, hcall, Or.inr rfl⟩
    | acquire hd | enqueue hd | found hd | foundNone hd | release hd =>
        cases hc.symm.trans hd
        exact ⟨_, _, _, hcall, hl.imp_right (nomatch ·)⟩
    | ask hd | given hd =>
        cases hc.symm.trans hd
        exact ⟨_, _, _, hcall, hl⟩

theorem Step.housed {s t : State} {m : Move} (h : Step s m t) (hs : s.Housed) : t.Housed := by
  intro c r name phase hc
  have hkeep : (∃ x, s.resolvers[r]? = some x) → ∃ x, t.resolvers[r]? = some x := by
    rintro ⟨x, hx⟩
    obtain ⟨y, hy, -⟩ := h.resolver hx
    exact ⟨y, hy⟩
  refine hkeep ?_
  rcases h.calls c with hsame | ⟨call, hcall, harrival⟩
  · exact hs c r name phase (hsame.symm.trans hc)
  · cases hcall.symm.trans hc
    cases harrival with
    | hit fresh hx | miss fresh hx | missPlain fresh hx => exact ⟨_, hx⟩
    | approach hd | acquire hd | enqueue hd | handed hd | found hd | foundNone hd | ask hd | store hd | release hd
    | leave hd | tidy hd | given hd | failed hd => exact hs _ _ _ _ hd

namespace State

variable {s t u : State} {c d l l' r : Nat} {name : String} {phase : Phase} {ms between : List Move}

theorem Initial.housed_run (initial : s.Initial) (run : s.run? ms = some t) : t.Housed := by
  refine run?_invariant (fun hs step => step.housed hs) ?_ run
  intro c r name phase hc
  cases (initial.calls c).symm.trans hc

/-- All locks that a call ever holds or awaits are one. -/
theorem lock_unique (hs : s.locking.Orderly) (run : s.run? ms = some t) (h : s.Holds c l ∨ s.Awaits c l)
    (h' : t.Holds c l' ∨ t.Awaits c l') : l = l' := by
  have ht : t.locking.Orderly :=
    run?_invariant (P := fun s => s.locking.Orderly) (fun hs step => step.orderly hs) hs run
  obtain ⟨r, name, phase, hc, hl⟩ := exists_refers h hs.sound
  obtain ⟨r', name', phase', hc', hl'⟩ := exists_refers h' ht.sound
  obtain ⟨-, r'', name'', phase'', hc'', hkept⟩ := run?_invariant (P := fun t => t.locking.Orderly ∧ ∃ r name phase,
    t.calls[c]? = some ⟨r, name, phase⟩ ∧ (phase.standing.lock? = some l ∨ phase.standing = .past))
    (fun ⟨hs, _, _, _, hc, hl⟩ step => ⟨step.orderly hs, step.refers hs.sound hc hl⟩)
    ⟨hs, r, name, phase, hc, Or.inl hl⟩ run
  cases hc'.symm.trans hc''
  rcases hkept with hsame | hpast
  · exact Option.some.inj (hsame.symm.trans hl')
  · rw [hpast] at hl'
    cases hl'

/-- There is no deadlock. Whenever a call has not ended, or the calls of a prefetch have not all ended, there is a
call among those that have not that waits for no lock: it can go on, or only the provider's answer is missing. No
call ever holds or awaits two locks, be it at a time or one after the other, and none awaits a lock while it holds
one. A lock that is awaited is held by another call that has not ended. -/
theorem no_deadlock (initial : s.Initial) (run : s.run? ms = some t) :
    (∀ c, t.Unfinished c → ∃ d, t.Unfinished d ∧ (∀ l, ¬ t.Awaits d l) ∧ t.Ready d) ∧
    (∀ cs : List Nat, (∀ c ∈ cs, t.calls[c]? ≠ none) → t.prefetch? cs = none →
      ∃ d, t.Unfinished d ∧ (∀ l, ¬ t.Awaits d l) ∧ t.Ready d) ∧
    (∀ c l l' between u, t.Holds c l ∨ t.Awaits c l → t.run? between = some u → u.Holds c l' ∨ u.Awaits c l' →
      l = l') ∧
    (∀ c l l', t.Holds c l → ¬ t.Awaits c l') ∧
    ∀ c l, t.Awaits c l → ∃ d, d ≠ c ∧ t.Holds d l ∧ t.Unfinished d := by
  have horderly : t.locking.Orderly := (initial.coherent_run run).orderly
  have hhoused : t.Housed := initial.housed_run run
  have hholder : ∀ {d l}, t.Holds d l → t.Unfinished d ∧ (∀ l, ¬ t.Awaits d l) ∧ t.Ready d := by
    intro d l hholds
    obtain ⟨r, name, phase, hd, -, patient, unfinished⟩ := hholds.call horderly.sound
    exact ⟨⟨r, name, phase, hd, unfinished⟩, fun l => hholds.not_awaits horderly.sound,
      hhoused.ready hd patient unfinished⟩
  have hprogress : ∀ c, t.Unfinished c → ∃ d, t.Unfinished d ∧ (∀ l, ¬ t.Awaits d l) ∧ t.Ready d := by
    rintro c ⟨r, name, phase, hc, unfinished⟩
    by_cases hwaits : ∃ l, t.Awaits c l
    · obtain ⟨l, hawaits⟩ := hwaits
      obtain ⟨d, hholds⟩ := hawaits.exists_holds horderly
      exact ⟨d, hholder hholds⟩
    · have patient : ∀ l, phase ≠ .waiting l := by
        rintro l rfl
        exact hwaits ⟨l, r, name, hc⟩
      exact ⟨c, ⟨r, name, phase, hc, unfinished⟩, fun l h => hwaits ⟨l, h⟩, hhoused.ready hc patient unfinished⟩
  refine ⟨hprogress, ?_, fun c l l' between u h later h' => lock_unique horderly later h h',
    fun c l l' hholds => hholds.not_awaits horderly.sound, ?_⟩
  · intro cs begun hnot
    obtain ⟨c, hmem, hresult⟩ : ∃ c ∈ cs, t.result? c = none := by
      by_contra hall
      refine prefetch?_ne_none_iff.mpr (fun c hmem hresult => hall ⟨c, hmem, hresult⟩) hnot
    exact hprogress c (unfinished_of_result? (begun c hmem) hresult)
  · intro c l hawaits
    obtain ⟨d, hholds⟩ := hawaits.exists_holds horderly
    refine ⟨d, ?_, hholds, (hholder hholds).1⟩
    rintro rfl
    exact hholds.not_awaits horderly.sound hawaits

/-- One call is with the provider, a second one waits for its lock, and a prefetch of another resolver has just begun.
Then the provider fails for the first call, which hands the lock over. -/
theorem no_deadlock_at_hand_over :
    let s : State := { caches := [{}], resolvers := [{ cache := 0 }, { cache := 0 }] }
    let ms : List Move := [.start 0 0 "a", .advance 0, .advance 0, .advance 0, .advance 0, .start 1 0 "a",
      .advance 1, .advance 1, .start 2 1 "a", .start 3 1 "b", .advance 3]
    let between : List Move := [.advance 2, .answer 0 (.error (.unavailable "down")), .advance 0]
    ∃ t u, s.run? ms = some t ∧ t.run? between = some u ∧ t.Awaits 1 0 ∧
      (∃ d, d ≠ 1 ∧ t.Holds d 0 ∧ t.Unfinished d) ∧ u.Holds 1 0 ∧ (∀ l, u.Holds 1 l → 0 = l) ∧
      t.prefetch? [2, 3] = none ∧ ∃ d, t.Unfinished d ∧ (∀ l, ¬ t.Awaits d l) ∧ t.Ready d := by
  intro s ms between
  have initial : s.Initial := initial_of_new (by decide)
  obtain ⟨t, run, hqueued, hbegun, hresult, u, later, hholds⟩ : ∃ t, s.run? ms = some t ∧ 1 ∈ (t.lock 0).waiting ∧
      (∀ c ∈ [2, 3], t.calls[c]?.isSome) ∧ t.result? 2 = none ∧
      ∃ u, t.run? between = some u ∧ (u.lock 0).holder = some 1 := by
    have h : (s.run? ms).any (fun t => decide (1 ∈ (t.lock 0).waiting) &&
        (decide (∀ c ∈ [2, 3], t.calls[c]?.isSome) && (decide (t.result? 2 = none) &&
          (t.run? between).any fun u => decide ((u.lock 0).holder = some 1)))) = true := by decide +kernel
    simpa only [Option.any_eq_true, Bool.and_eq_true, decide_eq_true_eq] using h
  obtain ⟨-, hprefetch, hone, -, hawaited⟩ := no_deadlock initial run
  have hawaits : t.Awaits 1 0 := (awaits_iff (initial.coherent_run run).orderly.sound).mpr hqueued
  have hnot : t.prefetch? [2, 3] = none := by
    by_contra hover
    exact prefetch?_ne_none_iff.mp hover 2 (by simp) hresult
  refine ⟨t, u, run, later, hawaits, hawaited 1 0 hawaits, hholds,
    fun l h => hone 1 0 l between u (Or.inr hawaits) later (Or.inl h), hnot, ?_⟩
  exact hprefetch [2, 3] (fun c hc => Option.isSome_iff_ne_none.mp (hbegun c hc)) hnot

end State

end ODataQuery.Resolver
