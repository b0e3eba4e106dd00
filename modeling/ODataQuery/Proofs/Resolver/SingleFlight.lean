import ODataQuery.Proofs.Resolver.Locking

/-!
What single flight promises. A call loads a map from the look that found nothing where it counts to the
moment at which it stores what it was given. In single flight it has the lock of its name all this time,
and everybody who has a lock for that name has the same one, so no two calls load at a time. Once the map
is stored, whoever gets the lock next finds it, until somebody removes it.
-/

namespace ODataQuery.Resolver

/-- Whether a call loads: it found nothing where it counts, and has not yet stored a map. -/
def Phase.loading : Phase → Bool
  | asking _ | fetching _ | storing .. => true
  | _ => false

/-- Whether the provider has been asked by a call, and has not answered yet. -/
def Phase.asked : Phase → Bool
  | fetching _ => true
  | _ => false

theorem Phase.loading_of_asked {phase : Phase} (h : phase.asked = true) : phase.loading = true := by
  cases phase with
  | fetching lock => rfl
  | _ => cases h

theorem Phase.standing_of_loading {phase : Phase} (h : phase.loading = true) :
    phase.standing = .plain ∨ ∃ l, phase.standing = .has l := by
  cases phase with
  | asking lock | fetching lock | storing lock snapshot =>
      cases lock with
      | none => exact Or.inl rfl
      | some l => exact Or.inr ⟨l, rfl⟩
  | _ => cases h

theorem Phase.loading_ended {lock : Option Nat} {result : Except ProviderError Snapshot} :
    (Phase.ended lock result).loading = false := by
  cases lock <;> rfl

theorem Phase.asked_ended {lock : Option Nat} {result : Except ProviderError Snapshot} :
    (Phase.ended lock result).asked = false := by
  cases lock <;> rfl

namespace State

/-- A call for a name has come to a phase of some kind. -/
def At (s : State) (kind : Phase → Bool) (r : Nat) (name : String) (c : Nat) : Prop :=
  ∃ phase, s.calls[c]? = some ⟨r, name, phase⟩ ∧ kind phase = true

instance (s : State) (kind : Phase → Bool) (r : Nat) (name : String) (c : Nat) :
    Decidable (s.At kind r name c) :=
  decidable_of_iff
    (s.calls[c]?.any (fun call => call.resolver == r && call.name == name && kind call.phase) = true) (by
      simp only [Option.any_eq_true, Bool.and_eq_true, beq_iff_eq, At]
      constructor
      · rintro ⟨⟨_, _, phase⟩, hc, ⟨rfl, rfl⟩, hkind⟩
        exact ⟨phase, hc, hkind⟩
      · rintro ⟨phase, hc, hkind⟩
        exact ⟨_, hc, ⟨rfl, rfl⟩, hkind⟩)

/-- A call for a name loads. -/
def Loads (s : State) (r : Nat) (name : String) (c : Nat) : Prop := s.At Phase.loading r name c

/-- The provider works on a call for a name. -/
def Fetches (s : State) (r : Nat) (name : String) (c : Nat) : Prop := s.At Phase.asked r name c

instance (s : State) (r : Nat) (name : String) (c : Nat) : Decidable (s.Fetches r name c) :=
  inferInstanceAs (Decidable (s.At Phase.asked r name c))

/-- A step puts a call for a name to the provider. -/
structure Begins (s : State) (r : Nat) (name : String) (c : Nat) (m : Move) (t : State) : Prop where
  step : s.step? m = some t
  not_yet : ¬ s.Fetches r name c
  fetches : t.Fetches r name c

/-- A step takes whatever is under a name out of a cache. -/
inductive Removes (s : State) (k : Nat) (name : String) : Move → Prop where
  | invalidate {r x} (hx : s.resolvers[r]? = some x) (hk : x.cache = k) :
      Removes s k name (.invalidate r name)
  | delete : Removes s k name (.delete k name)
  | clear : Removes s k name (.clear k)

/-- Only calls of a resolver that is not in single flight work without a lock. -/
def Moded (s : State) : Prop :=
  ∀ (c r : Nat) name phase x, s.calls[c]? = some ⟨r, name, phase⟩ → phase.standing = .plain →
    s.resolvers[r]? = some x → x.singleFlight = false

variable {s t : State}

theorem Fetches.loads {r c : Nat} {name : String} (h : s.Fetches r name c) : s.Loads r name c := by
  obtain ⟨phase, hc, hasked⟩ := h
  exact ⟨phase, hc, Phase.loading_of_asked hasked⟩

end State

theorem Step.moded {s t : State} {m : Move} (h : Step s m t) (hs : s.Moded) : t.Moded := by
  intro c r name phase y hc hplain hy
  obtain ⟨x, hx, hflight, -⟩ := h.resolver_before hy
  rw [← hflight]
  rcases h.calls c with hsame | ⟨call, hcall, harrival⟩
  · exact hs c r name phase x (hsame.symm.trans hc) hplain hx
  · cases hcall.symm.trans hc
    cases harrival with
    | missPlain fresh hx' missing plain =>
        cases hx.symm.trans hx'
        exact plain
    | ask hbefore | given hbefore => exact hs c r name _ x hbefore hplain hx
    | @store c r name lock | @failed c r name lock => cases lock <;> cases hplain
    | _ => cases hplain

/-- What holds at all times in a system that starts without calls. -/
structure Coherent (s : State) : Prop where
  orderly : s.locking.Orderly
  moded : s.Moded
  caches : ∀ {r : Nat} {x : Resolver}, s.resolvers[r]? = some x → x.cache < s.caches.length

theorem State.Initial.coherent {s : State} (h : s.Initial) : Coherent s := by
  refine ⟨h.orderly, ?_, h.caches⟩
  intro c r name phase x hc
  rw [h.calls] at hc
  cases hc

theorem Step.caches {s t : State} {m : Move} (h : Step s m t)
    (hs : ∀ {r : Nat} {x : Resolver}, s.resolvers[r]? = some x → x.cache < s.caches.length)
    {r : Nat} {y : Resolver} (hy : t.resolvers[r]? = some y) : y.cache < t.caches.length := by
  have hlength : t.caches.length = s.caches.length := congrArg Prod.fst h.setup
  obtain ⟨x, hx, -, hcache⟩ := h.resolver_before hy
  rw [hlength, ← hcache]
  exact hs hx

theorem Step.coherent {s t : State} {m : Move} (h : Step s m t) (hs : Coherent s) : Coherent t :=
  ⟨h.orderly hs.orderly, h.moded hs.moded, h.caches hs.caches⟩

theorem Coherent.run {s t : State} {ms : List Move} (h : Coherent s) (run : s.run? ms = some t) : Coherent t :=
  State.run?_invariant (fun hs step => step.coherent hs) h run

/-! ### Loading -/

namespace Coherent

variable {s : State} {r : Nat} {x : Resolver} {name : String}

/-- The lock that a call in single flight has while it loads. -/
theorem has_of_loads {c : Nat} (hs : Coherent s) (hx : s.resolvers[r]? = some x)
    (hflight : x.singleFlight = true) (h : s.Loads r name c) :
    ∃ l, s.locking.table r name = some l ∧ (s.locking.lock l).holder = some c := by
  obtain ⟨phase, hc, hloading⟩ := h
  have hplace : s.locking.place c = some ⟨r, name, phase.standing⟩ := State.place_locking hc
  rcases Phase.standing_of_loading hloading with hplain | ⟨l, hl⟩
  · have hplainly := hs.moded c r name phase x hc hplain hx
    rw [hflight] at hplainly
    cases hplainly
  · rw [hl] at hplace
    exact ⟨l, hs.orderly.sound.tabled hplace rfl,
      hs.orderly.sound.held.mpr (Locking.stands_of_place hplace)⟩

/-- In single flight no two calls load the map of a name at a time. -/
theorem loads_unique {c d : Nat} (hs : Coherent s) (hx : s.resolvers[r]? = some x)
    (hflight : x.singleFlight = true) (hc : s.Loads r name c) (hd : s.Loads r name d) : c = d := by
  obtain ⟨l, hl, hholder⟩ := hs.has_of_loads hx hflight hc
  obtain ⟨l', hl', hholder'⟩ := hs.has_of_loads hx hflight hd
  cases hl.symm.trans hl'
  exact Option.some.inj (hholder.symm.trans hholder')

end Coherent

/-- A call begins to load only when nothing is under its name. -/
theorem Step.loads {s t : State} {m : Move} (h : Step s m t) {r d : Nat} {x : Resolver} {name : String}
    (hx : s.resolvers[r]? = some x) (hd : t.Loads r name d) :
    s.Loads r name d ∨ s.cached? x.cache name = none := by
  obtain ⟨phase, hd, hloading⟩ := hd
  rcases h.calls d with hsame | ⟨call, hcall, harrival⟩
  · exact Or.inl ⟨phase, hsame.symm.trans hd, hloading⟩
  · cases hcall.symm.trans hd
    cases harrival with
    | missPlain fresh hy missing | foundNone hbefore hy missing =>
        cases hx.symm.trans hy
        exact Or.inr missing
    | ask hbefore | given hbefore => exact Or.inl ⟨_, hbefore, rfl⟩
    | store | failed =>
        rw [Phase.loading_ended] at hloading
        cases hloading
    | _ => cases hloading

/-- The provider begins to work on a call only when the call loads. -/
theorem Step.fetches {s t : State} {m : Move} (h : Step s m t) {r d : Nat} {name : String}
    (hd : t.Fetches r name d) : s.Loads r name d := by
  obtain ⟨phase, hd, hasked⟩ := hd
  rcases h.calls d with hsame | ⟨call, hcall, harrival⟩
  · exact ⟨phase, hsame.symm.trans hd, Phase.loading_of_asked hasked⟩
  · cases hcall.symm.trans hd
    cases harrival with
    | ask hbefore => exact ⟨_, hbefore, rfl⟩
    | store | failed =>
        rw [Phase.asked_ended] at hasked
        cases hasked
    | _ => cases hasked

/-! ### From the store to the removal -/

namespace State

variable {s t : State} {r : Nat} {x : Resolver} {name : String}

/-- Nobody loads the map of a name, and nobody has to: the cache has it. -/
structure Filled (s : State) (r k : Nat) (name : String) : Prop where
  present : s.cached? k name ≠ none
  nobody : ∀ c, ¬ s.Loads r name c

end State

open State in
/-- What is in a cache stays there until it is removed. -/
theorem Step.present {s t : State} {m : Move} (h : Step s m t) {k : Nat} {name : String}
    (hcached : s.cached? k name ≠ none) :
    t.cached? k name ≠ none ∨ s.Removes k name m := by
  have hset : ∀ k' name' snapshot, (s.onCache k' (·.set name' snapshot)).cached? k name ≠ none := by
    intro k' name' snapshot
    rw [cached?_set]
    split
    · exact Option.some_ne_none snapshot
    · exact hcached
  have hdelete : ∀ k' name', ¬ (k' = k ∧ name' = name) →
      (s.onCache k' fun cache => (cache.delete name').2).cached? k name ≠ none := by
    intro k' name' hne
    rw [cached?_delete, if_neg hne]
    exact hcached
  cases h with
  | @store c r name' y lock snapshot hc hy => exact Or.inl (hset y.cache name' snapshot)
  | @set k' name' snapshot => exact Or.inl (hset k' name' snapshot)
  | @invalidate r name' y hy =>
      by_cases hsame : y.cache = k ∧ name' = name
      · obtain ⟨hk', rfl⟩ := hsame
        exact Or.inr (.invalidate hy hk')
      · exact Or.inl (hdelete y.cache name' hsame)
  | @delete k' name' =>
      by_cases hsame : k' = k ∧ name' = name
      · obtain ⟨rfl, rfl⟩ := hsame
        exact Or.inr .delete
      · exact Or.inl (hdelete k' name' hsame)
  | @clear k' =>
      by_cases hk' : k' = k
      · subst hk'
        exact Or.inr .clear
      · rw [cached?_clear, if_neg hk']
        exact Or.inl hcached
  | hit | miss | missPlain | found | foundNone | get =>
      left
      show (s.look _ _).cached? k name ≠ none
      rwa [cached?_look]
  | take | make | acquire | enqueue | ask | handOver | free | leave | clearTable | keepTable | given | failed
  | contains => exact Or.inl hcached

/-- A cache that has a map has it until it is removed, and nobody loads it until then. -/
theorem Step.filled {s t : State} {m : Move} (h : Step s m t) {r : Nat} {x : Resolver}
    {name : String} (hx : s.resolvers[r]? = some x) (hfilled : s.Filled r x.cache name) :
    t.Filled r x.cache name ∨ s.Removes x.cache name m := by
  rcases h.present hfilled.present with hpresent | hremoves
  · refine Or.inl ⟨hpresent, fun d hd => ?_⟩
    rcases h.loads hx hd with hloads | hmissing
    · exact hfilled.nobody d hloads
    · exact hfilled.present hmissing
  · exact Or.inr hremoves

open State in
/-- A call that was given a map puts it into the cache, and knows its result. -/
theorem Step.stored {s t : State} {c r : Nat} {x : Resolver} {name : String} {lock : Option Nat}
    {snapshot : Snapshot} (h : Step s (.advance c) t) (hc : s.calls[c]? = some ⟨r, name, .storing lock snapshot⟩)
    (hx : s.resolvers[r]? = some x) (hcache : x.cache < s.caches.length) :
    t.cached? x.cache name = some snapshot ∧ t.calls[c]? = some ⟨r, name, .ended lock (.ok snapshot)⟩ := by
  cases h with
  | store hd hy =>
      cases hc.symm.trans hd
      cases hx.symm.trans hy
      refine ⟨?_, ?_⟩
      · change (s.onCache x.cache (·.set name snapshot)).cached? x.cache name = some snapshot
        rw [cached?_set, if_pos ⟨rfl, rfl, hcache⟩]
      · rw [getElem?_put, if_pos rfl]
  | take hd | make hd | acquire hd | enqueue hd | found hd | foundNone hd | ask hd | handOver hd
  | free hd | leave hd | clearTable hd | keepTable hd => cases hc.symm.trans hd

open State in
/-- A call that was given a map does nothing else before it stores it. Then the cache is filled. -/
theorem Step.storing {s t : State} {m : Move} (h : Step s m t) (hs : Coherent s) {c r : Nat} {x : Resolver}
    {name : String} {lock : Option Nat} {snapshot : Snapshot} (hx : s.resolvers[r]? = some x)
    (hflight : x.singleFlight = true) (hc : s.calls[c]? = some ⟨r, name, .storing lock snapshot⟩) :
    t.calls[c]? = some ⟨r, name, .storing lock snapshot⟩ ∨ m = .advance c ∧ t.Filled r x.cache name := by
  rcases h.calls c with hsame | ⟨call, hcall, harrival⟩
  · exact Or.inl (hsame.trans hc)
  · cases harrival with
    | store =>
        have hcached : t.cached? x.cache name = some snapshot := (h.stored hc hx (hs.caches hx)).1
        refine Or.inr ⟨rfl, hcached ▸ Option.some_ne_none snapshot, ?_⟩
        rintro d ⟨phase, hd, hloading⟩
        cases h with
        | store hc' hy =>
            cases hc.symm.trans hc'
            rw [getElem?_put] at hd
            split at hd
            · cases hd
              rw [Phase.loading_ended] at hloading
              cases hloading
            · rename_i hne
              exact hne (hs.loads_unique hx hflight ⟨_, hc, rfl⟩ ⟨phase, hd, hloading⟩)
        | take hc' | make hc' | acquire hc' | enqueue hc' | found hc' | foundNone hc' | ask hc' | handOver hc'
        | free hc' | leave hc' | clearTable hc' | keepTable hc' => cases hc.symm.trans hc'
    | handed hd first =>
        have hawaits : s.locking.Stands c (.awaits _) :=
          hs.orderly.sound.queued.mp (first ▸ List.mem_cons_self)
        have hstanding := (Locking.stands_of_place (place_locking hc)).unique hawaits
        cases lock <;> cases hstanding
    | hit hd | miss hd | missPlain hd | approach hd | acquire hd | enqueue hd | found hd | foundNone hd
    | ask hd | release hd | leave hd | tidy hd | given hd | failed hd => cases hc.symm.trans hd

/-! ### Runs -/

namespace State

variable {s t : State} {r : Nat} {x : Resolver} {name : String} {ms : List Move}

theorem Initial.coherent_run (h : s.Initial) (run : s.run? ms = some t) : Coherent t := h.coherent.run run

/-- A resolver keeps its way of fetching and its cache. -/
theorem resolver_run (hx : s.resolvers[r]? = some x) (run : s.run? ms = some t) :
    ∃ y, t.resolvers[r]? = some y ∧ y.singleFlight = x.singleFlight ∧ y.cache = x.cache := by
  refine run?_invariant (P := fun t => ∃ y, t.resolvers[r]? = some y ∧
    y.singleFlight = x.singleFlight ∧ y.cache = x.cache) ?_ ⟨x, hx, rfl, rfl⟩ run
  rintro u m v ⟨y, hy, hflight, hcache⟩ step
  obtain ⟨z, hz, hflight', hcache'⟩ := step.resolver hy
  exact ⟨z, hz, hflight'.trans hflight, hcache'.trans hcache⟩

/-- A filled cache is filled until the name is removed from it. -/
theorem Filled.until_removed (hx : s.resolvers[r]? = some x)
    (hfilled : s.Filled r x.cache name) (run : s.run? ms = some t) :
    t.Filled r x.cache name ∨ ∃ before m after u, ms = before ++ m :: after ∧ s.run? before = some u ∧
      u.cached? x.cache name ≠ none ∧ u.Removes x.cache name m := by
  rcases run?_until (P := fun u => u.Filled r x.cache name) hfilled run with
    hstill | ⟨before, m, after, u, v, hms, hbefore, hu, hm, hv, -⟩
  · exact Or.inl hstill
  · refine Or.inr ⟨before, m, after, u, hms, hbefore, hu.present, ?_⟩
    obtain ⟨y, hy, -, hcache⟩ := resolver_run hx hbefore
    rw [← hcache] at hu hv ⊢
    rcases (step?_cases hm).filled hy hu with hfilled' | hremoves
    · exact absurd hfilled' hv
    · exact hremoves

/-- A call that was given a map has stored it, and the name was removed again, before another call is put to
the provider. -/
theorem stored_then_removed {c d : Nat} {lock : Option Nat} {snapshot : Snapshot} {m : Move} {u : State}
    (hs : Coherent s) (hx : s.resolvers[r]? = some x) (hflight : x.singleFlight = true)
    (hc : s.calls[c]? = some ⟨r, name, .storing lock snapshot⟩) (run : s.run? ms = some t)
    (step : t.step? m = some u) (hd : u.Fetches r name d) :
    ∃ before between removal after v w, ms = before ++ .advance c :: (between ++ removal :: after) ∧
      s.run? before = some v ∧ v.calls[c]? = some ⟨r, name, .storing lock snapshot⟩ ∧
      v.run? (.advance c :: between) = some w ∧ w.cached? x.cache name ≠ none ∧
      w.Removes x.cache name removal := by
  have coherent : ∀ {ms v}, s.run? ms = some v → Coherent v :=
    fun run => run?_invariant (fun hs step => step.coherent hs) hs run
  have hloads : t.Loads r name d := (step?_cases step).fetches hd
  rcases run?_until (P := fun v => v.calls[c]? = some ⟨r, name, .storing lock snapshot⟩) hc run with
    hstill | ⟨before, m', rest, v, w, rfl, hbefore, hv, hm', hw, hrest⟩
  · -- The call would store and be put to the provider in one step.
    obtain ⟨y, hy, hyflight, hycache⟩ := resolver_run hx run
    have hcd : c = d := (coherent run).loads_unique hy (hyflight.trans hflight) ⟨_, hstill, rfl⟩ hloads
    subst hcd
    rcases (step?_cases step).storing (coherent run) hy (hyflight.trans hflight) hstill with
      hsame | ⟨-, hfilled⟩
    · obtain ⟨phase, hphase, hasked⟩ := hd
      cases hsame.symm.trans hphase
      cases hasked
    · exact absurd hd.loads (hfilled.nobody c)
  · obtain ⟨y, hy, hyflight, hycache⟩ := resolver_run hx hbefore
    have hstore := (step?_cases hm').storing (coherent hbefore) hy (hyflight.trans hflight) hv
    obtain ⟨rfl, hfilled⟩ := hstore.resolve_left hw
    have hrun : s.run? (before ++ [.advance c]) = some w :=
      run?_append.mpr ⟨v, hbefore, run?_cons.mpr ⟨w, hm', rfl⟩⟩
    obtain ⟨z, hz, -, hzcache⟩ := resolver_run hx hrun
    rw [hycache, ← hzcache] at hfilled
    rcases hfilled.until_removed hz hrest with
      hfull | ⟨between, removal, after, w', rfl, hbetween, hpresent, hremoves⟩
    · exact absurd hloads (hfull.nobody d)
    · rw [hzcache] at hpresent hremoves
      exact ⟨before, between, removal, after, v, w', rfl, hbefore, hv,
        run?_cons.mpr ⟨w, hm', hbetween⟩, hpresent, hremoves⟩

/-- In single flight the provider never works on two calls for a name at a time. If it gave a call a map, it
is asked again only after the call has stored the map and then somebody has removed what the cache had under
the name, be it this resolver or anybody else who uses the cache. -/
theorem single_flight (initial : s.Initial) (hx : s.resolvers[r]? = some x)
    (hflight : x.singleFlight = true) (name : String) :
    (∀ ms t c d, s.run? ms = some t → t.Fetches r name c → t.Fetches r name d → c = d) ∧
    ∀ ms t₁ c map t₂ since t₃ d m t₄, s.run? ms = some t₁ → t₁.Fetches r name c →
      t₁.step? (.answer c (.ok map)) = some t₂ → t₂.run? since = some t₃ → t₃.Begins r name d m t₄ →
      ∃ before between removal after u v lock,
        since = before ++ .advance c :: (between ++ removal :: after) ∧
        t₂.run? before = some u ∧ u.calls[c]? = some ⟨r, name, .storing lock ⟨c, map⟩⟩ ∧
        u.run? (.advance c :: between) = some v ∧ v.cached? x.cache name ≠ none ∧
        v.Removes x.cache name removal := by
  constructor
  · intro ms t c d run hc hd
    obtain ⟨y, hy, hyflight, -⟩ := resolver_run hx run
    exact (initial.coherent_run run).loads_unique hy (hyflight.trans hflight) hc.loads hd.loads
  · intro ms t₁ c map t₂ since t₃ d m t₄ run hc answered later begins
    have hrun : s.run? (ms ++ [.answer c (.ok map)]) = some t₂ :=
      run?_append.mpr ⟨t₁, run, run?_cons.mpr ⟨t₂, answered, rfl⟩⟩
    obtain ⟨y, hy, hyflight, hycache⟩ := resolver_run hx hrun
    obtain ⟨phase, hphase, -⟩ := hc
    cases step?_cases answered with
    | @given _ r' name' lock _ hgiven =>
        cases hphase.symm.trans hgiven
        have hstoring : (t₁.put c ⟨r, name, .fetching lock⟩ (.storing lock ⟨c, map⟩)).calls[c]? =
            some ⟨r, name, .storing lock ⟨c, map⟩⟩ := by
          rw [getElem?_put, if_pos rfl]
        obtain ⟨before, between, removal, after, u, v, h⟩ :=
          stored_then_removed (initial.coherent_run hrun) hy (hyflight.trans hflight) hstoring later
            begins.step begins.fetches
        rw [hycache] at h
        exact ⟨before, between, removal, after, u, v, lock, h⟩

/-- Two calls one after the other, with an invalidation by another resolver between them. When the first has
ended, the table holds no lock any more, and the second call makes a new one. -/
theorem single_flight_with_new_lock :
    let s : State := { caches := [{}], resolvers := [{ cache := 0 }, { cache := 0 }] }
    let first : List Move := [.start 0 0 "a", .advance 0, .advance 0, .advance 0, .advance 0]
    let since : List Move := [.advance 0, .advance 0, .advance 0, .advance 0, .invalidate 1 "a",
      .start 1 0 "a", .advance 1, .advance 1, .advance 1]
    ∃ t, s.run? (first ++ [.answer 0 (.ok ∅)]) = some t ∧
      ∃ before between removal after u v lock,
        since = before ++ .advance 0 :: (between ++ removal :: after) ∧
        t.run? before = some u ∧ u.calls[0]? = some ⟨0, "a", .storing lock ⟨0, ∅⟩⟩ ∧
        u.run? (.advance 0 :: between) = some v ∧ v.cached? 0 "a" ≠ none ∧
        v.Removes 0 "a" removal := by
  intro s first since
  have initial : s.Initial := initial_of_new (by decide)
  obtain ⟨t₁, run, hc⟩ : ∃ t, s.run? first = some t ∧ t.Fetches 0 "a" 0 := by
    have h : (s.run? first).any (fun t => decide (t.Fetches 0 "a" 0)) = true := by decide +kernel
    simpa only [Option.any_eq_true, decide_eq_true_eq] using h
  obtain ⟨t₃, run', hnot, t₄, step, hd⟩ : ∃ t, s.run? (first ++ .answer 0 (.ok ∅) :: since) = some t ∧
      ¬ t.Fetches 0 "a" 1 ∧ ∃ u, t.step? (.advance 1) = some u ∧ u.Fetches 0 "a" 1 := by
    have h : (s.run? (first ++ .answer 0 (.ok ∅) :: since)).any (fun t => decide (¬ t.Fetches 0 "a" 1) &&
        (t.step? (.advance 1)).any fun u => decide (u.Fetches 0 "a" 1)) = true := by decide +kernel
    simpa only [Option.any_eq_true, Bool.and_eq_true, decide_eq_true_eq] using h
  obtain ⟨t₁', hfirst, hrest⟩ := run?_append.mp run'
  cases run.symm.trans hfirst
  obtain ⟨t₂, answered, later⟩ := run?_cons.mp hrest
  refine ⟨t₂, run?_append.mpr ⟨t₁, run, run?_cons.mpr ⟨t₂, answered, rfl⟩⟩, ?_⟩
  exact (single_flight initial (r := 0) rfl rfl "a").2 first t₁ 0 ∅ t₂ since t₃ 1 (.advance 1) t₄ run hc
    answered later ⟨step, hnot, hd⟩

end State

end ODataQuery.Resolver
