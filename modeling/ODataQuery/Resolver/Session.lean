import ODataQuery.Json.Decoder
import ODataQuery.Query.Compiled
import ODataQuery.Resolver.State

/-!
Sessions: scripts of what several users of some resolvers do, one after the other or at the same time. The
members of a concurrent script take turns in rounds, in the order in which they stand. In its turn a member
goes on until it has to wait: for the provider, which lets a fixed number of turns pass before it answers,
for a lock, or at a pause.
-/

namespace ODataQuery.Resolver

/-- The steps that a call can still take by itself, at most. -/
def Phase.ahead : Phase → Nat
  | missed => 6
  | approaching _ => 5
  | granted _ | storing .. => 4
  | releasing .. => 3
  | leaving .. => 2
  | asking _ | tidying _ => 1
  | waiting _ | fetching _ | finished _ => 0

/-- A call takes steps by itself, at most `n`. -/
def State.goOn (c : Nat) : Nat → State → State
  | 0, s => s
  | n + 1, s =>
    match s.advance? c with
    | some t => t.goOn c n
    | none => s

/-- A call goes on by itself as far as it can. -/
def State.settle (s : State) (c : Nat) : State :=
  s.goOn c ((s.calls[c]?.map (·.phase.ahead)).getD 0)

inductive Script where
  | resolve (r : Nat) (input : String)
  | attributes (r : Nat) (name : String)
  | prefetch (r : Nat) (names : List String)
  | invalidate (r : Nat) (name : String)
  /-- Resolves a table, gets its attributes and compiles a query for them. -/
  | compile (r : Nat) (table : String) (query : Except Json.DecodeError Query) (policy : NanPolicy)
  | addEntity (entity : Except Json.DecodeError Entity)
  /-- From now on the provider fails when it is asked for exactly this name. -/
  | fail (name : String) (e : ProviderError)
  | heal (name : String)
  | get (r : Nat) (name : String)
  | set (r : Nat) (name : String) (map : Except Json.DecodeError AttributeMap)
  | contains (r : Nat) (name : String)
  | delete (r : Nat) (name : String)
  | clear (r : Nat)
  | pause
  | sequence (steps : List Script)
  | together (steps : List Script)

/-- What a script comes to. -/
inductive Outcome where
  | nothing
  | flag (b : Bool)
  | names (n : EntityNames)
  | snapshot (s : Snapshot)
  | stored (s : Snapshot)
  /-- A compiled query, and its text when values that are no numbers are written out. -/
  | compiled (result : Compiled) (plain : String)
  | undecoded (e : Json.DecodeError)
  | failed (e : ResolveError)
  | list (outcomes : List Outcome)

/-- The resolvers, and the provider behind them: its catalog, the names it fails for, how many turns it
lets pass, and what it was asked, the last first. Calls and snapshots take their numbers from one
counter. -/
structure World where
  state : State
  next : Nat := 0
  catalog : Catalog
  failures : Std.ExtTreeMap String ProviderError := ∅
  turns : Nat := 1
  asked : List String := []

/-- What is to be done with an entity's names or attributes once they are there: nothing more, or a query
is to be compiled. -/
abbrev Purpose := Option (Query × NanPolicy)

/-- A script under way. -/
inductive Activity where
  | done (o : Outcome)
  | pausing
  /-- The provider answers after `left` turns. -/
  | resolving (r : Nat) (input : String) (left : Nat) (answer : Except ProviderError (Option EntityNames))
      (purpose : Purpose)
  | queueing (call : Nat) (purpose : Purpose)
  /-- The provider answers after `left` turns. -/
  | fetching (call : Nat) (left : Nat) (answer : Except ProviderError AttributeMap) (purpose : Purpose)
  | prefetching (calls : List Nat) (members : List Activity)
  | sequence (before : List Outcome) (current : Activity) (rest : List Script)
  | together (members : List Activity)

namespace Outcome

def ofResult : Purpose → Except ResolveError Snapshot → Outcome
  | _, .error e => failed e
  | none, .ok s => snapshot s
  | some (q, policy), .ok s =>
    let q := q.withAttributes s.map
    compiled (q.compile policy) q.compile.text

def ofPrefetch : Except ProviderError Unit → Outcome
  | .ok () => nothing
  | .error e => failed (.provider e)

end Outcome

namespace Activity

def outcome? : Activity → Option Outcome
  | done o => some o
  | _ => none

/-- The outcomes of activities that are all done. -/
def outcomes? (members : List Activity) : Option (List Outcome) := members.mapM outcome?

def ofTogether (members : List Activity) : Activity :=
  match outcomes? members with
  | some os => done (.list os)
  | none => together members

end Activity

namespace World

variable (w : World)

/-- Asks the provider: notes the question, and gives the answer, which is settled from now on. -/
def ask (verb : String) (name : String) (answer : Catalog → Except ProviderError α) :
    Except ProviderError α × World :=
  (match w.failures[name]? with
    | some e => .error e
    | none => answer w.catalog,
   { w with asked := (verb ++ " " ++ name) :: w.asked })

/-- The cache that a resolver uses. -/
def cacheOf (r : Nat) : Nat := (w.state.resolvers[r]?.map (·.cache)).getD 0

def cache (r : Nat) : Cache Snapshot := (w.state.caches[w.cacheOf r]?).getD {}

/-- A call goes on by itself as far as it can: it has ended, or it waits for its lock, or it asks the
provider. -/
def settle (call : Nat) (purpose : Purpose) : Activity × World :=
  let w : World := { w with state := w.state.settle call }
  match w.state.calls[call]? with
  | none => (.done .nothing, w)
  | some ⟨_, name, phase⟩ =>
    match phase with
    | .finished result => (.done (.ofResult purpose (result.mapError .provider)), w)
    | .fetching _ =>
      let (answer, w) := w.ask "attrs" name (·.attributes name)
      (.fetching call w.turns answer purpose, w)
    | _ => (.queueing call purpose, w)

/-- Takes a step, if it can be taken. -/
def move (m : Move) : World := { w with state := (w.state.step? m).getD w.state }

/-- The provider's answer reaches a call. -/
def receive (call : Nat) (answer : Except ProviderError AttributeMap) (purpose : Purpose) :
    Activity × World :=
  (w.move (.answer call answer)).settle call purpose

/-- Goes on at once if the provider lets no turn pass. -/
def hasten : Activity × World → Activity × World
  | (.fetching call 0 answer purpose, w) => w.receive call answer purpose
  | other => other

/-- A call for the attributes of an entity begins. -/
def fetch (r : Nat) (name : String) (purpose : Purpose) : Activity × World :=
  hasten (({ w with next := w.next + 1 }.move (.start w.next r name)).settle w.next purpose)

/-- The provider's answer to an identifier is there. -/
def resolved (r : Nat) (input : String) (answer : Except ProviderError (Option EntityNames)) :
    Purpose → Activity × World
  | none =>
    (.done (match ResolveError.ofAnswer input answer with
      | .ok names => .names names
      | .error e => .failed e), w)
  | some purpose =>
    match ResolveError.ofAnswer input answer with
    | .ok names => w.fetch r names.logical (some purpose)
    | .error e => (.done (.failed e), w)

/-- A request for the names of an entity begins. -/
def resolve (r : Nat) (input : String) (purpose : Purpose) : Activity × World :=
  let (answer, w) := w.ask "resolve" input (.ok <| ·.resolve? input)
  if w.turns = 0 then w.resolved r input answer purpose
  else (.resolving r input w.turns answer purpose, w)

/-- Calls for the attributes of several entities begin, one after the other. -/
def fetchEach (r : Nat) : List String → World → List Nat × List Activity × World
  | [], w => ([], [], w)
  | name :: names, w =>
    let (a, w') := w.fetch r name none
    let (calls, as, w') := fetchEach r names w'
    (w.next :: calls, a :: as, w')

/-- A prefetch goes on until all its calls have ended. -/
def awaitAll (calls : List Nat) (members : List Activity) : Activity × World :=
  match w.state.prefetch? calls with
  | some result => (.done (.ofPrefetch result), w)
  | none => (.prefetching calls members, w)

end World

mutual

/-- A script begins, up to where it has to wait. -/
def Script.start : Script → World → Activity × World
  | .resolve r input, w => w.resolve r input none
  | .attributes r name, w => w.fetch r name none
  | .prefetch r names, w =>
    let (calls, members, w) := World.fetchEach r names w
    w.awaitAll calls members
  | .invalidate r name, w => (.done .nothing, w.move (.invalidate r name))
  | .compile r table query policy, w =>
    match query with
    | .ok q => w.resolve r table (some (q, policy))
    | .error e => (.done (.undecoded e), w)
  | .addEntity entity, w =>
    match entity with
    | .ok e => (.done .nothing, { w with catalog := w.catalog.insert e })
    | .error e => (.done (.undecoded e), w)
  | .fail name e, w => (.done .nothing, { w with failures := w.failures.insert name e })
  | .heal name, w => (.done .nothing, { w with failures := w.failures.erase name })
  | .get r name, w =>
    (.done ((w.state.cached? (w.cacheOf r) name).elim .nothing .snapshot),
      w.move (.get (w.cacheOf r) name))
  | .set r name map, w =>
    match map with
    | .ok map =>
      let snapshot : Snapshot := ⟨w.next, map⟩
      (.done (.stored snapshot), { w with next := w.next + 1 }.move (.set (w.cacheOf r) name snapshot))
    | .error e => (.done (.undecoded e), w)
  | .contains r name, w =>
    (.done (.flag ((w.cache r).contains name)), w.move (.contains (w.cacheOf r) name))
  | .delete r name, w =>
    (.done (.flag ((w.cache r).delete name).1), w.move (.delete (w.cacheOf r) name))
  | .clear r, w => (.done .nothing, w.move (.clear (w.cacheOf r)))
  | .pause, w => (.pausing, w)
  | .sequence steps, w => Script.startInOrder [] steps w
  | .together steps, w =>
    let (members, w) := Script.startEach steps w
    (.ofTogether members, w)

/-- Scripts one after the other, up to where one of them has to wait. -/
def Script.startInOrder (before : List Outcome) : List Script → World → Activity × World
  | [], w => (.done (.list before), w)
  | step :: rest, w =>
    match step.start w with
    | (.done o, w) => Script.startInOrder (before ++ [o]) rest w
    | (a, w) => (.sequence before a rest, w)

def Script.startEach : List Script → World → List Activity × World
  | [], w => ([], w)
  | step :: rest, w =>
    let (a, w) := step.start w
    let (as, w) := Script.startEach rest w
    (a :: as, w)

end

mutual

/-- An activity has its turn. -/
def Activity.poll : Activity → World → Activity × World
  | .done o, w => (.done o, w)
  | .pausing, w => (.done .nothing, w)
  | .resolving r input left answer purpose, w =>
    if left ≤ 1 then w.resolved r input answer purpose
    else (.resolving r input (left - 1) answer purpose, w)
  | .queueing call purpose, w =>
    World.hasten (w.settle call purpose)
  | .fetching call left answer purpose, w =>
    if left ≤ 1 then w.receive call answer purpose
    else (.fetching call (left - 1) answer purpose, w)
  | .prefetching calls members, w =>
    let (members, w) := Activity.pollEach members w
    w.awaitAll calls members
  | .sequence before current rest, w =>
    match current.poll w with
    | (.done o, w) => Script.startInOrder (before ++ [o]) rest w
    | (a, w) => (.sequence before a rest, w)
  | .together members, w =>
    let (members, w) := Activity.pollEach members w
    (.ofTogether members, w)

def Activity.pollEach : List Activity → World → List Activity × World
  | [], w => ([], w)
  | a :: as, w =>
    let (a, w) := a.poll w
    let (as, w) := Activity.pollEach as w
    (a :: as, w)

end

/-- Turns until an activity is done, at most `rounds`. -/
def Activity.run? : Nat → Activity → World → Option (Outcome × World)
  | _, .done o, w => some (o, w)
  | 0, _, _ => none
  | rounds + 1, a, w =>
    let (a, w) := a.poll w
    a.run? rounds w

mutual

/-- In every round something that waits comes nearer to its end, so that a script is done after as many
rounds as its parts can wait for. -/
def Script.rounds (turns : Nat) : Script → Nat
  | .resolve .. => turns
  | .attributes .. => turns + 1
  | .prefetch _ names => names.length * (turns + 1)
  | .compile .. => 2 * turns + 1
  | .pause => 1
  | .sequence steps | .together steps => Script.roundsAll turns steps
  | _ => 0

def Script.roundsAll (turns : Nat) : List Script → Nat
  | [] => 0
  | s :: ss => s.rounds turns + Script.roundsAll turns ss

end

/-- A script from its beginning to its end. -/
def Script.run? (script : Script) (w : World) : Option (Outcome × World) :=
  let (a, w') := script.start w
  a.run? (script.rounds w.turns + 1) w'

end ODataQuery.Resolver
