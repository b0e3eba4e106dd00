import ODataQuery.Proofs.Resolver.SingleFlight
import ODataQuery.Resolver.Session

/-!
Sessions as runs of the system. Whatever a script does, and in whichever order its members have their turns, comes about
by steps of the system: so all that holds of every run holds of what is left behind by a session, and at every turn
within one.
-/

namespace ODataQuery.Resolver

/-- Steps of the system lead from the state in one world to the state in another. -/
def World.Reaches (w w' : World) : Prop := ∃ ms, w.state.run? ms = some w'.state

namespace World

variable {w v u : World}

theorem Reaches.of_eq (h : v.state = w.state) : w.Reaches v := ⟨[], congrArg some h.symm⟩

theorem Reaches.refl (w : World) : w.Reaches w := .of_eq rfl

theorem Reaches.trans (h : w.Reaches v) (h' : v.Reaches u) : w.Reaches u := by
  obtain ⟨ms, hv⟩ := h
  obtain ⟨ms', hu⟩ := h'
  exact ⟨ms ++ ms', State.run?_append.mpr ⟨v.state, hv, hu⟩⟩

/-! ### One call -/

theorem exists_run?_goOn (c n : Nat) (s : State) : ∃ ms, s.run? ms = some (s.goOn c n) := by
  induction n generalizing s with
  | zero => exact ⟨[], rfl⟩
  | succ n ih =>
      rw [State.goOn]
      cases hstep : s.advance? c with
      | none => exact ⟨[], rfl⟩
      | some t =>
          obtain ⟨ms, hms⟩ := ih t
          exact ⟨.advance c :: ms, State.run?_cons.mpr ⟨t, hstep, hms⟩⟩

theorem reaches_move (w : World) (m : Move) : w.Reaches (w.move m) := by
  cases hstep : w.state.step? m with
  | none => exact .of_eq (by rw [move, hstep]; rfl)
  | some t => exact ⟨[m], State.run?_cons.mpr ⟨t, hstep, by rw [move, hstep]; rfl⟩⟩

theorem reaches_settle (w : World) (call : Nat) (purpose : Purpose) : w.Reaches (w.settle call purpose).2 := by
  have hstate : (w.settle call purpose).2.state = w.state.settle call := by
    unfold settle
    dsimp only
    split
    · rfl
    · split <;> rfl
  obtain ⟨ms, hms⟩ := exists_run?_goOn call _ w.state
  exact ⟨ms, hms.trans (congrArg some hstate.symm)⟩

theorem reaches_receive (w : World) (call : Nat) (answer : Except ProviderError AttributeMap) (purpose : Purpose) :
    w.Reaches (w.receive call answer purpose).2 :=
  (w.reaches_move _).trans (reaches_settle _ call purpose)

theorem reaches_hasten (a : Activity) (w : World) : w.Reaches (hasten (a, w)).2 := by
  unfold hasten
  split
  · rename_i heq
    cases heq
    exact w.reaches_receive _ _ _
  · exact .refl w

theorem reaches_fetch (w : World) (r : Nat) (name : String) (purpose : Purpose) :
    w.Reaches (w.fetch r name purpose).2 := by
  let counted : World := { w with next := w.next + 1 }
  have hcounted : w.Reaches counted := .of_eq rfl
  exact ((hcounted.trans (counted.reaches_move _)).trans (reaches_settle _ w.next purpose)).trans (reaches_hasten _ _)

theorem reaches_resolved (w : World) (r : Nat) (input : String) (answer : Except ProviderError (Option EntityNames))
    (purpose : Purpose) : w.Reaches (w.resolved r input answer purpose).2 := by
  cases purpose with
  | none => exact .refl w
  | some purpose =>
      rw [resolved]
      split
      · exact w.reaches_fetch r _ _
      · exact .refl w

theorem reaches_resolve (w : World) (r : Nat) (input : String) (purpose : Purpose) :
    w.Reaches (w.resolve r input purpose).2 := by
  let asked : World := (w.ask "resolve" input fun c => .ok (c.resolve? input)).2
  have hasked : w.Reaches asked := .of_eq rfl
  unfold resolve
  dsimp only
  split
  · exact hasked.trans (asked.reaches_resolved r input _ purpose)
  · exact hasked

theorem reaches_fetchEach (r : Nat) (names : List String) (w : World) : w.Reaches (fetchEach r names w).2.2 := by
  induction names generalizing w with
  | nil => exact .refl w
  | cons name names ih => exact (w.reaches_fetch r name none).trans (ih _)

theorem reaches_awaitAll (w : World) (calls : List Nat) (members : List Activity) :
    w.Reaches (w.awaitAll calls members).2 := by
  unfold awaitAll
  split <;> exact .refl w

end World

/-! ### Scripts and their turns -/

mutual

theorem Script.reaches_start (script : Script) (w : World) : w.Reaches (script.start w).2 := by
  cases script with
  | resolve r input => exact w.reaches_resolve r input none
  | attributes r name => exact w.reaches_fetch r name none
  | prefetch r names => exact (World.reaches_fetchEach r names w).trans (World.reaches_awaitAll _ _ _)
  | invalidate r name | contains r name | delete r name | clear r | get r name => exact w.reaches_move _
  | compile r table query policy =>
      cases query with
      | error e => exact .refl w
      | ok q => exact w.reaches_resolve r table _
  | addEntity entity => cases entity <;> exact .of_eq rfl
  | fail name e | heal name => exact .of_eq rfl
  | set r name map =>
      cases map with
      | error e => exact .refl w
      | ok map =>
          let counted : World := { w with next := w.next + 1 }
          have hcounted : w.Reaches counted := .of_eq rfl
          exact hcounted.trans (counted.reaches_move _)
  | pause => exact .refl w
  | sequence steps => exact Script.reaches_startInOrder [] steps w
  | together steps => exact Script.reaches_startEach steps w

theorem Script.reaches_startInOrder (before : List Outcome) (steps : List Script) (w : World) :
    w.Reaches (Script.startInOrder before steps w).2 := by
  cases steps with
  | nil => exact .refl w
  | cons step rest =>
      have hstep := Script.reaches_start step w
      unfold Script.startInOrder
      split
      · rename_i o w' heq
        rw [heq] at hstep
        exact hstep.trans (Script.reaches_startInOrder _ rest w')
      · rename_i a w' _ heq
        rw [heq] at hstep
        exact hstep

theorem Script.reaches_startEach (steps : List Script) (w : World) : w.Reaches (Script.startEach steps w).2 := by
  cases steps with
  | nil => exact .refl w
  | cons step rest => exact (Script.reaches_start step w).trans (Script.reaches_startEach rest _)

end

mutual

/-- A turn of an activity is a row of steps. -/
theorem Activity.reaches_poll (a : Activity) (w : World) : w.Reaches (a.poll w).2 := by
  cases a with
  | done o | pausing => exact .refl w
  | resolving r input left answer purpose =>
      unfold Activity.poll
      split
      · exact w.reaches_resolved r input answer purpose
      · exact .refl w
  | queueing call purpose => exact (w.reaches_settle call purpose).trans (World.reaches_hasten _ _)
  | fetching call left answer purpose =>
      unfold Activity.poll
      split
      · exact w.reaches_receive call answer purpose
      · exact .refl w
  | prefetching calls members => exact (Activity.reaches_pollEach members w).trans (World.reaches_awaitAll _ _ _)
  | sequence before current rest =>
      have hcurrent := Activity.reaches_poll current w
      unfold Activity.poll
      split
      · rename_i o w' heq
        rw [heq] at hcurrent
        exact hcurrent.trans (Script.reaches_startInOrder _ rest w')
      · rename_i a w' _ heq
        rw [heq] at hcurrent
        exact hcurrent
  | together members => exact Activity.reaches_pollEach members w

theorem Activity.reaches_pollEach (members : List Activity) (w : World) :
    w.Reaches (Activity.pollEach members w).2 := by
  cases members with
  | nil => exact .refl w
  | cons a as => exact (Activity.reaches_poll a w).trans (Activity.reaches_pollEach as _)

end

/-- What every turn keeps is there when an activity is done. -/
theorem Activity.run?_keeps {P : Activity → World → Prop} (keep : ∀ a w, P a w → P (a.poll w).1 (a.poll w).2)
    {rounds : Nat} {a : Activity} {w w' : World} {o : Outcome} (hP : P a w) (run : a.run? rounds w = some (o, w')) :
    P (.done o) w' := by
  induction rounds generalizing a w with
  | zero =>
      cases a <;> simp only [Activity.run?, Option.some.injEq, Prod.mk.injEq, reduceCtorEq] at run
      obtain ⟨rfl, rfl⟩ := run
      exact hP
  | succ rounds ih =>
      by_cases hdone : ∃ o, a = .done o
      · obtain ⟨o', rfl⟩ := hdone
        rw [Activity.run?] at run
        cases run
        exact hP
      · rw [Activity.run?] at run
        · exact ih (keep a w hP) run
        · exact fun o ho => hdone ⟨o, ho⟩

theorem Activity.reaches_of_run? {rounds : Nat} {a : Activity} {w w' : World} {o : Outcome}
    (run : a.run? rounds w = some (o, w')) : w.Reaches w' :=
  Activity.run?_keeps (P := fun _ v => w.Reaches v) (fun a v h => h.trans (a.reaches_poll v)) (.refl w) run

/-- A session from its beginning to its end is a row of steps of the system. -/
theorem Script.reaches_of_run? {script : Script} {w w' : World} {o : Outcome} (h : script.run? w = some (o, w')) :
    w.Reaches w' :=
  (script.reaches_start w).trans (Activity.reaches_of_run? h)

/-- A session keeps what holds at all times in a system that started without calls. -/
theorem Script.coherent_of_run? {script : Script} {w w' : World} {o : Outcome} (initial : w.state.Initial)
    (h : script.run? w = some (o, w')) : Coherent w'.state := by
  obtain ⟨ms, run⟩ := Script.reaches_of_run? h
  exact initial.coherent_run run

/-! ### What a request for attributes comes to -/

/-- An activity serves a call: it waits on its behalf, or it is done and tells what the call came to. -/
def Activity.Serves (c : Nat) (purpose : Purpose) (w : World) : Activity → Prop
  | queueing call p | fetching call _ _ p => call = c ∧ p = purpose
  | done o => o = (w.state.result? c).elim .nothing fun result => .ofResult purpose (result.mapError .provider)
  | _ => False

variable {w w' : World} {c r : Nat} {name : String} {purpose : Purpose} {a : Activity} {o : Outcome}

theorem World.serves_settle (w : World) (c : Nat) (purpose : Purpose) :
    (w.settle c purpose).1.Serves c purpose (w.settle c purpose).2 := by
  unfold settle
  dsimp only
  split
  · rename_i hcall
    simp only [Activity.Serves, State.result?, hcall, Option.elim_none]
  · rename_i hcall
    split
    · simp only [Activity.Serves, State.result?, hcall, Option.elim_some]
    · exact ⟨rfl, rfl⟩
    · exact ⟨rfl, rfl⟩

theorem World.serves_hasten (h : a.Serves c purpose w) :
    (hasten (a, w)).1.Serves c purpose (hasten (a, w)).2 := by
  unfold hasten
  split
  · rename_i heq
    cases heq
    obtain ⟨rfl, rfl⟩ := h
    exact serves_settle _ _ _
  · exact h

theorem Activity.serves_poll (h : a.Serves c purpose w) : (a.poll w).1.Serves c purpose (a.poll w).2 := by
  cases a with
  | done => exact h
  | queueing call p =>
      obtain ⟨rfl, rfl⟩ := h
      exact World.serves_hasten (w.serves_settle call p)
  | fetching call left answer p =>
      unfold Activity.poll
      split
      · obtain ⟨rfl, rfl⟩ := h
        exact World.serves_settle _ _ _
      · exact h
  | pausing | resolving | prefetching | sequence | together => exact h.elim

/-- A session that asks for the attributes of one entity is a run in which one call is made, and it tells what this call
has come to. -/
theorem Script.outcome_attributes (h : (Script.attributes r name).run? w = some (o, w')) :
    w.Reaches w' ∧
      o = (w'.state.result? w.next).elim .nothing fun result => .ofResult none (result.mapError .provider) :=
  ⟨Script.reaches_of_run? h, Activity.run?_keeps (P := fun a v => a.Serves w.next none v)
    (fun _ _ => Activity.serves_poll) (World.serves_hasten (World.serves_settle _ _ _)) h⟩

end ODataQuery.Resolver
