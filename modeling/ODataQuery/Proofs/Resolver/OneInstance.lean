import ODataQuery.Proofs.Resolver.Freshness

/-!
One snapshot for all. In single flight, over a cache that no other resolver uses, a name that is not removed once
it is there is stored once. Whatever a call for it has come to is then the very snapshot that the cache has: it
was there at the first look, or at the look under the lock, or the call has stored it itself. Calls that failed
before leave no trace.
-/

namespace ODataQuery.Resolver

/-- A step puts something under a name into a cache by hand. -/
def Move.Sets (k : Nat) (name : String) : Move → Prop
  | .set k' name' _ => k' = k ∧ name' = name
  | _ => False

instance (k : Nat) (name : String) : ∀ m : Move, Decidable (m.Sets k name)
  | .set k' name' _ => inferInstanceAs (Decidable (k' = k ∧ name' = name))
  | .start .. | .advance _ | .answer .. | .invalidate .. | .get .. | .contains .. | .delete .. | .clear _ =>
    isFalse id

namespace State

/-- No other resolver uses the cache of this one. -/
def Alone (s : State) (r k : Nat) : Prop := ∀ r', s.cacheOf? r' = some k → r' = r

/-- A step that takes nothing out of a cache that is there under a name, and puts nothing there by hand. -/
structure Spares (k : Nat) (name : String) (s : State) (m : Move) : Prop where
  kept : s.Removes k name m → s.cached? k name = none
  unset : ¬ m.Sets k name

instance (s : State) (k : Nat) (name : String) : ∀ m, Decidable (s.Removes k name m)
  | .invalidate r name' =>
    decidable_of_iff (s.cacheOf? r = some k ∧ name' = name) (by
      rw [cacheOf?, Option.map_eq_some_iff]
      constructor
      · rintro ⟨⟨x, hx, hk⟩, rfl⟩
        exact .invalidate hx hk
      · rintro ⟨hx, hk⟩
        exact ⟨⟨_, hx, hk⟩, rfl⟩)
  | .delete k' name' =>
    decidable_of_iff (k' = k ∧ name' = name) (by
      constructor
      · rintro ⟨rfl, rfl⟩
        exact .delete
      · rintro ⟨⟩
        exact ⟨rfl, rfl⟩)
  | .clear k' =>
    decidable_of_iff (k' = k) (by
      constructor
      · rintro rfl
        exact .clear
      · rintro ⟨⟩
        rfl)
  | .start .. | .advance _ | .answer .. | .get .. | .contains .. | .set .. => isFalse nofun

instance (s : State) (k : Nat) (name : String) (m : Move) : Decidable (s.Spares k name m) :=
  decidable_of_iff ((s.Removes k name m → s.cached? k name = none) ∧ ¬ m.Sets k name)
    ⟨fun ⟨h, h'⟩ => ⟨h, h'⟩, fun ⟨h, h'⟩ => ⟨h, h'⟩⟩

/-- What calls for a name have found or stored is what the cache has; and if it has anything, nobody loads. -/
structure Single (s : State) (r k : Nat) (name : String) : Prop where
  found : ∀ {c : Nat} {phase snapshot}, s.calls[c]? = some ⟨r, name, phase⟩ →
    phase.result? = some (.ok snapshot) → s.cached? k name = some snapshot
  nobody : s.cached? k name ≠ none → ∀ c, ¬ s.Loads r name c

variable {s t u : State} {r k : Nat} {x : Resolver} {name : String} {m : Move} {ms : List Move}

theorem Alone.of_setup (h : s.Alone r k) (hsetup : t.setup = s.setup) : t.Alone r k := by
  intro r' hr'
  rw [cacheOf?_of_setup hsetup] at hr'
  exact h r' hr'

theorem Initial.single (initial : s.Initial) : s.Single r k name := by
  refine ⟨?_, ?_⟩
  · intro c phase snapshot hc
    rw [initial.calls] at hc
    cases hc
  · rintro - c ⟨phase, hc, -⟩
    rw [initial.calls] at hc
    cases hc

/-- What a cache of a resolver's own has it has had before, or a call of this resolver stores it. -/
theorem Alone.cached_step (alone : s.Alone r k) (hstep : Step s m t) (spares : s.Spares k name m)
    {snapshot : Snapshot} (hcached : t.cached? k name = some snapshot) : s.cached? k name = some snapshot ∨
      ∃ c lock, m = .advance c ∧ s.calls[c]? = some ⟨r, name, .storing lock snapshot⟩ := by
  rcases hstep.cached hcached with hbefore | ⟨c, r', lock, y, hm, hc, hy, hk⟩ | hset
  · exact Or.inl hbefore
  · have huses : s.cacheOf? r' = some k := hk ▸ cacheOf?_of_resolver hy
    cases alone r' huses
    exact Or.inr ⟨c, lock, hm, hc⟩
  · subst hset
    exact absurd ⟨rfl, rfl⟩ spares.unset

namespace Single

variable (h : s.Single r k name) (alone : s.Alone r k) (spares : s.Spares k name m) (hstep : Step s m t)
include h alone spares hstep

/-- What the cache has it keeps: nobody is about to store anything else. -/
theorem cached_step {snapshot : Snapshot} (hcached : s.cached? k name = some snapshot) :
    t.cached? k name = some snapshot := by
  have hpresent : s.cached? k name ≠ none := hcached ▸ Option.some_ne_none snapshot
  have hstill : t.cached? k name ≠ none :=
    (hstep.present hpresent).resolve_right fun hremoves => hpresent (spares.kept hremoves)
  obtain ⟨snapshot', hsnapshot'⟩ := Option.ne_none_iff_exists'.mp hstill
  rcases alone.cached_step hstep spares hsnapshot' with hbefore | ⟨c, lock, -, hc⟩
  · rw [hsnapshot', ← hbefore, hcached]
  · exact absurd ⟨_, hc, rfl⟩ (h.nobody hpresent c)

theorem found_step (hs : Coherent s) (hx : s.resolvers[r]? = some x) (hk : x.cache = k) {c : Nat} {phase : Phase}
    {snapshot : Snapshot} (hc : t.calls[c]? = some ⟨r, name, phase⟩)
    (hresult : phase.result? = some (.ok snapshot)) : t.cached? k name = some snapshot := by
  have hkeep : ∀ {snapshot}, s.cached? k name = some snapshot → t.cached? k name = some snapshot :=
    h.cached_step alone spares hstep
  subst hk
  rcases hstep.calls c with hsame | ⟨call, hcall, harrival⟩
  · exact hkeep (h.found (hsame.symm.trans hc) hresult)
  · cases hcall.symm.trans hc
    cases harrival with
    | hit fresh hy hfound | found hbefore hy hfound =>
        cases hx.symm.trans hy
        cases hresult
        exact hkeep hfound
    | store hbefore =>
        rw [Phase.result?_ended] at hresult
        cases hresult
        exact (hstep.stored hbefore hx (hs.caches hx)).1
    | release hbefore | leave hbefore | tidy hbefore => exact hkeep (h.found hbefore hresult)
    | failed hbefore =>
        rw [Phase.result?_ended] at hresult
        cases hresult
    | _ => cases hresult

/-- The store that fills the cache ends the only call that loads; a cache that is full stops calls from
loading. -/
theorem nobody_step (hs : Coherent s) (hx : s.resolvers[r]? = some x) (hk : x.cache = k)
    (hflight : x.singleFlight = true) (hpresent : t.cached? k name ≠ none) (c : Nat) : ¬ t.Loads r name c := by
  intro hloads
  subst hk
  cases hcached : s.cached? x.cache name with
  | some snapshot =>
      have hbefore : s.cached? x.cache name ≠ none := hcached ▸ Option.some_ne_none snapshot
      exact (hstep.loads hx hloads).elim (h.nobody hbefore c) hbefore
  | none =>
      obtain ⟨snapshot, hsnapshot⟩ := Option.ne_none_iff_exists'.mp hpresent
      rcases alone.cached_step hstep spares hsnapshot with hbefore | ⟨d, lock, rfl, hd⟩
      · cases hcached.symm.trans hbefore
      · rcases hstep.storing hs hx hflight hd with hwaits | ⟨-, hfilled⟩
        · have hended := (hstep.stored hd hx (hs.caches hx)).2
          cases lock <;> cases hended.symm.trans hwaits
        · exact hfilled.nobody c hloads

end Single

/-- All that a step keeps from the start on. -/
structure Shared (s : State) (r k : Nat) (name : String) : Prop where
  coherent : Coherent s
  flight : ∃ x, s.resolvers[r]? = some x ∧ x.singleFlight = true ∧ x.cache = k
  alone : s.Alone r k
  single : s.Single r k name

theorem Shared.step (h : s.Shared r k name) (spares : s.Spares k name m) (hstep : Step s m t) :
    t.Shared r k name := by
  obtain ⟨x, hx, hflight, hk⟩ := h.flight
  obtain ⟨y, hy, hyflight, hyk⟩ := hstep.resolver hx
  exact ⟨hstep.coherent h.coherent, ⟨y, hy, hyflight.trans hflight, hyk.trans hk⟩,
    h.alone.of_setup hstep.setup, h.single.found_step h.alone spares hstep h.coherent hx hk,
    h.single.nobody_step h.alone spares hstep h.coherent hx hk hflight⟩

theorem Shared.run (h : s.Shared r k name) (spares : s.Each (Spares k name) ms) (run : s.run? ms = some t) :
    t.Shared r k name :=
  run?_keeps (P := fun t => t.Shared r k name) (fun h hm hstep => h.step hm hstep) spares h run

theorem Shared.cached_run (h : s.Shared r k name) (spares : s.Each (Spares k name) ms) (run : s.run? ms = some t)
    {snapshot : Snapshot} (hcached : s.cached? k name = some snapshot) : t.cached? k name = some snapshot := by
  refine (run?_keeps (P := fun t => t.Shared r k name ∧ t.cached? k name = some snapshot) ?_ spares
    ⟨h, hcached⟩ run).2
  rintro u m v ⟨hu, hcached⟩ hm hstep
  exact ⟨hu.step hm hstep, hu.single.cached_step hu.alone hm hstep hcached⟩

/-- In single flight over a cache of its own, all calls of a resolver for a name return one snapshot, if the name
is never removed while it is there and never set by hand. It is the one that the cache has, which keeps it from
the first store on. The two states may be any two of a run, and `between` is what happens from the earlier to
the later one. -/
theorem one_instance {before between : List Move} (initial : s.Initial) (hx : s.resolvers[r]? = some x)
    (hflight : x.singleFlight = true) (alone : s.Alone r x.cache)
    (spares : s.Each (Spares x.cache name) (before ++ between)) (earlier : s.run? before = some t)
    (later : t.run? between = some u) :
    (∀ (c d : Nat) a b, t.calls[c]? = some ⟨r, name, .finished (.ok a)⟩ →
      u.calls[d]? = some ⟨r, name, .finished (.ok b)⟩ → a = b) ∧
    (∀ (c : Nat) a, u.calls[c]? = some ⟨r, name, .finished (.ok a)⟩ → u.cached? x.cache name = some a) ∧
    (∀ (c : Nat) lock a rest, t.calls[c]? = some ⟨r, name, .storing lock a⟩ → between = .advance c :: rest →
      u.cached? x.cache name = some a) ∧
    ∀ a, t.cached? x.cache name = some a → u.cached? x.cache name = some a := by
  have hstart : s.Shared r x.cache name :=
    ⟨initial.coherent, ⟨x, hx, hflight, rfl⟩, alone, initial.single⟩
  obtain ⟨hbefore, hbetween⟩ := (each_append earlier).mp spares
  have ht : t.Shared r x.cache name := hstart.run hbefore earlier
  have hu : u.Shared r x.cache name := ht.run hbetween later
  have hkeep : ∀ a, t.cached? x.cache name = some a → u.cached? x.cache name = some a :=
    fun a => ht.cached_run hbetween later
  refine ⟨?_, fun c a hc => hu.single.found hc rfl, ?_, hkeep⟩
  · intro c d a b hc hd
    apply Option.some.inj
    calc some a
      _ = u.cached? x.cache name := (hkeep a (ht.single.found hc rfl)).symm
      _ = some b := hu.single.found hd rfl
  · rintro c lock a rest hc rfl
    obtain ⟨v, hv, hrest⟩ := run?_cons.mp later
    obtain ⟨y, hy, -, hk⟩ := ht.flight
    have hstored := ((step?_cases hv).stored hc hy (ht.coherent.caches hy)).1
    rw [hk] at hstored
    exact (ht.step hbetween.1 (step?_cases hv)).cached_run (hbetween.2 v hv) hrest hstored

/-- The provider fails for the first call while the second one waits for the lock, and somebody invalidates the
name, which is not there. The second call gets a map and stores it. The third call, which found nothing at its
first look, waits for the second one to give back the lock; the fourth finds the map at once. -/
theorem one_instance_after_failure :
    let s : State := { caches := [{}, {}], resolvers := [{ cache := 0 }, { singleFlight := false, cache := 1 }] }
    let before : List Move := [.start 0 0 "a", .advance 0, .advance 0, .advance 0, .advance 0, .start 1 0 "a",
      .advance 1, .advance 1, .start 9 1 "a", .invalidate 0 "a", .answer 0 (.error (.unavailable "down")),
      .advance 0, .start 2 0 "a", .advance 1, .advance 1, .answer 1 (.ok ∅)]
    let between : List Move := [.advance 1, .advance 2, .advance 2, .start 3 0 "a", .advance 1, .invalidate 1 "a",
      .advance 2, .advance 1, .advance 1, .advance 2, .advance 2, .advance 2]
    ∃ t u lock a, s.run? before = some t ∧ t.run? between = some u ∧
      t.calls[1]? = some ⟨0, "a", .storing lock a⟩ ∧ u.cached? 0 "a" = some a ∧
      ∀ c ∈ [1, 2, 3], u.calls[c]? = some ⟨0, "a", .finished (.ok a)⟩ := by
  intro s before between
  have initial : s.Initial := initial_of_new (by decide)
  have alone : s.Alone 0 0 := by
    intro r hr
    match r with
    | 0 => rfl
    | 1 | _ + 2 => cases hr
  have spares : s.Each (Spares 0 "a") (before ++ between) := by decide +kernel
  obtain ⟨t, earlier, ⟨⟨r, name, phase⟩, hstoring, ⟨rfl, rfl⟩, hgiven⟩, u, later, hreturned⟩ : ∃ t,
      s.run? before = some t ∧
      (∃ call, t.calls[1]? = some call ∧ (call.resolver = 0 ∧ call.name = "a") ∧ call.phase.given? ≠ none) ∧
      ∃ u, t.run? between = some u ∧ ∀ c ∈ [1, 2, 3], ∃ call, u.calls[c]? = some call ∧
        (call.resolver = 0 ∧ call.name = "a") ∧ call.phase.returned? ≠ none := by
    have h : (s.run? before).any (fun t =>
        t.calls[1]?.any (fun call => (call.resolver == 0 && call.name == "a") && call.phase.given?.isSome) &&
        (t.run? between).any fun u => [1, 2, 3].all fun c => u.calls[c]?.any fun call =>
          (call.resolver == 0 && call.name == "a") && call.phase.returned?.isSome) = true := by decide +kernel
    simpa only [Option.any_eq_true, Bool.and_eq_true, beq_iff_eq, List.all_eq_true,
      Option.isSome_iff_ne_none] using h
  cases phase with
  | storing lock a =>
      obtain ⟨-, hcached, hstored, -⟩ := one_instance initial (r := 0) rfl rfl alone spares earlier later
      have ha : u.cached? 0 "a" = some a := hstored 1 lock a _ hstoring rfl
      refine ⟨t, u, lock, a, earlier, later, hstoring, ha, ?_⟩
      intro c hc
      obtain ⟨⟨r, name, phase⟩, hcall, ⟨rfl, rfl⟩, hsome⟩ := hreturned c hc
      obtain ⟨b, hb⟩ := Option.ne_none_iff_exists'.mp hsome
      cases Phase.eq_finished_of_returned? hb
      cases ha.symm.trans (hcached c b hcall)
      exact hcall
  | _ => exact absurd rfl hgiven

end State

end ODataQuery.Resolver
