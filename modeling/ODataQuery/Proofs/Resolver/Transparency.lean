import Mathlib.Control.Monad.Basic
import ODataQuery.Proofs.Resolver.Step

/-!
Caches do not show in results. If the provider goes by one function from names to answers, then whatever is
cached under a name, and whatever a call for it has in hand, is what the function says of the name. It does
not matter by which way it came there: the first look, the look under the lock, or the provider; nor whose
call stored it.
-/

namespace ODataQuery.Resolver

variable {f : String → Except ProviderError AttributeMap}

/-- What a call for a name has in hand is what the provider says of the name. -/
def Phase.Agrees (f : String → Except ProviderError AttributeMap) (name : String) : Phase → Prop
  | storing _ snapshot => f name = .ok snapshot.map
  | releasing _ result | leaving _ result | tidying result | finished result =>
      f name = result.map (·.map)
  | missed | approaching _ | waiting _ | granted _ | asking _ | fetching _ => True

theorem Phase.agrees_ended {name : String} {lock : Option Nat} {result : Except ProviderError Snapshot}
    (h : f name = result.map (·.map)) : (Phase.ended lock result).Agrees f name := by
  cases lock with
  | none => exact h
  | some l => exact h

namespace State

/-- A step of a system whose provider goes by a function, and in which maps come into the caches by calls
only. -/
def Follows (f : String → Except ProviderError AttributeMap) (s : State) : Move → Prop
  | .answer c answer => s.calls[c]?.map (fun call => f call.name) = some answer
  | .set .. => False
  | _ => True

instance (s : State) : ∀ m, Decidable (s.Follows f m)
  | .answer c answer =>
    inferInstanceAs (Decidable (s.calls[c]?.map (fun call => f call.name) = some answer))
  | .set .. => isFalse id
  | .start .. | .advance _ | .invalidate .. | .get .. | .contains .. | .delete .. | .clear _ => isTrue trivial

/-- What the provider says is in the caches and in the hands of the calls. -/
structure Faithful (f : String → Except ProviderError AttributeMap) (s : State) : Prop where
  cached : ∀ {k name snapshot}, s.cached? k name = some snapshot → f name = .ok snapshot.map
  calls : ∀ {c : Nat} {r name phase}, s.calls[c]? = some ⟨r, name, phase⟩ → phase.Agrees f name

end State

open State in
theorem Step.faithful {s t : State} {m : Move} (h : Step s m t) (hs : s.Faithful f)
    (hm : s.Follows f m) : t.Faithful f := by
  refine ⟨?_, ?_⟩
  · intro k name snapshot hcached
    rcases h.cached hcached with hbefore | ⟨c, r, lock, x, -, hstoring, -, -⟩ | rfl
    · exact hs.cached hbefore
    · exact hs.calls hstoring
    · exact hm.elim
  · intro c r name phase hc
    rcases h.calls c with hsame | ⟨call, hcall, harrival⟩
    · exact hs.calls (hsame.symm.trans hc)
    · cases hcall.symm.trans hc
      cases harrival with
      | hit fresh hx found | found hbefore hx found => exact hs.cached found
      | store hbefore => exact Phase.agrees_ended (hs.calls hbefore)
      | release hbefore | leave hbefore | tidy hbefore =>
          have hresult := hs.calls hbefore
          exact hresult
      | @given c r name lock map hbefore =>
          have hanswer : f name = .ok map := by
            simpa only [Follows, hbefore, Option.map_some, Option.some.injEq] using hm
          exact hanswer
      | @failed c r name lock e hbefore =>
          have hanswer : f name = .error e := by
            simpa only [Follows, hbefore, Option.map_some, Option.some.injEq] using hm
          exact Phase.agrees_ended hanswer
      | _ => trivial

namespace State

variable {s t : State} {ms : List Move}

theorem Initial.faithful (initial : s.Initial) (empty : ∀ k name, s.cached? k name = none) :
    s.Faithful f := by
  refine ⟨?_, ?_⟩
  · intro k name snapshot h
    rw [empty] at h
    cases h
  · intro c r name phase h
    rw [initial.calls] at h
    cases h

/-- After any row of steps of resolvers whose caches were empty, what is cached under a name is what the
provider says of it, and so is the result of every call for it that has ended: the map, or the error. -/
theorem cache_transparent (initial : s.Initial) (empty : ∀ k name, s.cached? k name = none)
    (follows : s.Each (Follows f) ms) (run : s.run? ms = some t) :
    (∀ k name snapshot, t.cached? k name = some snapshot → f name = .ok snapshot.map) ∧
    ∀ (c : Nat) r name result, t.calls[c]? = some ⟨r, name, .finished result⟩ →
      f name = result.map (·.map) := by
  have hfaithful : t.Faithful f :=
    run?_keeps (fun hs hm step => step.faithful hs hm) follows (initial.faithful empty) run
  exact ⟨fun _ _ _ h => hfaithful.cached h, fun _ _ _ _ h => hfaithful.calls h⟩

/-- Two resolvers share a cache, one of them without single flight. The plain one asks for a name while the
other does, and an error comes between. -/
theorem cache_transparent_shared :
    let f : String → Except ProviderError AttributeMap := fun name =>
      if name = "a" then .ok (Std.ExtTreeMap.ofList [("x", (⟨.date, none⟩ : Attribute))])
      else .error (.unavailable "down")
    let s : State := { caches := [{}], resolvers := [{ cache := 0 }, { singleFlight := false, cache := 0 }] }
    let ms : List Move := [.start 0 0 "a", .advance 0, .start 1 1 "a", .start 2 1 "b", .advance 1, .advance 2,
      .answer 2 (f "b"), .advance 0, .advance 0, .answer 1 (f "a"), .advance 0, .advance 1, .answer 0 (f "a"),
      .delete 0 "a", .advance 0]
    ∃ t, s.run? ms = some t ∧ t.cached? 0 "a" ≠ none ∧
      (∀ k name snapshot, t.cached? k name = some snapshot → f name = .ok snapshot.map) ∧
      ∀ (c : Nat) r name result, t.calls[c]? = some ⟨r, name, .finished result⟩ →
        f name = result.map (·.map) := by
  intro f s ms
  have initial : s.Initial := initial_of_new (by decide)
  have empty : ∀ k name, s.cached? k name = none := by
    intro k name
    match k with
    | 0 | _ + 1 => rfl
  obtain ⟨t, run, hcached⟩ : ∃ t, s.run? ms = some t ∧ t.cached? 0 "a" ≠ none := by
    have h : (s.run? ms).any (fun t => (t.cached? 0 "a").isSome) = true := by decide +kernel
    simpa only [Option.any_eq_true, Option.isSome_iff_ne_none] using h
  have follows : s.Each (Follows f) ms := by decide +kernel
  exact ⟨t, run, hcached, cache_transparent initial empty follows run⟩

end State

end ODataQuery.Resolver
