import ODataQuery.Catalog.Provider
import ODataQuery.Resolver.Cache

/-!
Resolvers that fetch attribute maps into caches, as a system that moves by steps. A call for a name looks
into its cache, and on a miss it asks the provider; a prefetch is one call for each of its names. A resolver
in single flight lets one call at a time look and ask for a name: its calls pass through a lock, which a
table holds for the name. A call that found nothing refers to the lock in the table, or puts a new one
there; it waits until it has the lock and looks once more; and when it has given the lock back and lets go
of it, it removes it from the table if nobody else refers to it.

In one step a call looks into a cache or changes it, or changes a lock or a table, or exchanges a word with
the provider. Steps of other calls, and of others on the caches, may come between any two.
-/

namespace ODataQuery

/-- One fetched copy of an entity's attributes. Copies are told apart even if their maps are equal. -/
structure Snapshot where
  id : Nat
  map : AttributeMap

/-- A lock: the calls that refer to it, the one that has it, and those that wait for it, the longest
first. -/
structure Lock where
  users : List Nat := []
  holder : Option Nat := none
  waiting : List Nat := []
  deriving DecidableEq

/-- A resolver: whether it is in single flight, which cache it uses, and the locks that its table holds
for names. -/
structure Resolver where
  singleFlight : Bool := true
  cache : Nat
  table : Std.ExtTreeMap String Nat := ∅

namespace Resolver

/-- How far a call has come. The lock that a call refers to is part of it; a call that asks or stores
without a lock is not in single flight. -/
inductive Phase where
  /-- Found nothing, and takes a lock from the table next. -/
  | missed
  /-- Refers to a lock, and asks for it next. -/
  | approaching (lock : Nat)
  | waiting (lock : Nat)
  /-- Has the lock, and looks again next: somebody may have stored the map in the meantime. -/
  | granted (lock : Nat)
  /-- Found nothing where it counts, and asks the provider next. -/
  | asking (lock : Option Nat)
  /-- Waits for the provider's answer. -/
  | fetching (lock : Option Nat)
  /-- Was given a map, and stores it next. -/
  | storing (lock : Option Nat) (snapshot : Snapshot)
  /-- Knows its result, and gives the lock back next. -/
  | releasing (lock : Nat) (result : Except ProviderError Snapshot)
  /-- Lets go of the lock next. -/
  | leaving (lock : Nat) (result : Except ProviderError Snapshot)
  /-- Clears the table next, if it holds a lock to which nobody refers. -/
  | tidying (result : Except ProviderError Snapshot)
  | finished (result : Except ProviderError Snapshot)

/-- A call that knows its result gives its lock back, or is at its end if it has none. -/
def Phase.ended : Option Nat → Except ProviderError Snapshot → Phase
  | some l, result => .releasing l result
  | none, result => .finished result

structure Call where
  resolver : Nat
  name : String
  phase : Phase

/-- All that the steps act on. Caches and resolvers go by their positions, calls by numbers of their own,
and a lock by the number of the call that made it. -/
structure State where
  caches : List (Cache Snapshot)
  resolvers : List Resolver
  locks : Std.ExtTreeMap Nat Lock := ∅
  calls : Std.ExtTreeMap Nat Call := ∅

namespace State

variable (s : State)

def onCache (k : Nat) (f : Cache Snapshot → Cache Snapshot) : State :=
  { s with caches := s.caches.modify k f }

def onTable (r : Nat) (f : Std.ExtTreeMap String Nat → Std.ExtTreeMap String Nat) : State :=
  { s with resolvers := s.resolvers.modify r fun x => { x with table := f x.table } }

/-- A lock by its number. One that nobody has touched yet is free. -/
def lock (l : Nat) : Lock := s.locks[l]?.getD {}

def onLock (l : Nat) (f : Lock → Lock) : State := { s with locks := s.locks.insert l (f (s.lock l)) }

/-- Puts a call where it has come to. -/
def put (c : Nat) (call : Call) (phase : Phase) : State :=
  { s with calls := s.calls.insert c { call with phase } }

/-- Hands a lock to a call. -/
def grant (d l : Nat) : State :=
  { s with calls := s.calls.modify d ({ · with phase := .granted l }) }

/-- The value under a name in a cache. -/
def cached? (k : Nat) (name : String) : Option Snapshot := s.caches[k]?.bind (·.entries[name]?)

/-- Counts a look into a cache. -/
def look (k : Nat) (name : String) : State := s.onCache k fun cache => (cache.get name).2

/-- The lock that a table holds for a name. -/
def lockFor? (r : Nat) (name : String) : Option Nat := s.resolvers[r]?.bind (·.table[name]?)

/-- A call refers to the lock that the table holds for its name. If there is none, it makes one. -/
def takeLock (c : Nat) (call : Call) : State :=
  match s.lockFor? call.resolver call.name with
  | some l => (s.onLock l fun x => { x with users := c :: x.users }).put c call (.approaching l)
  | none =>
    ((s.onTable call.resolver (·.insert call.name c)).onLock c fun _ => { users := [c] }).put c call
      (.approaching c)

/-- A call asks for a lock: it has it at once if nobody else does, or queues up for it. -/
def request (c : Nat) (call : Call) (l : Nat) : State :=
  match (s.lock l).holder with
  | none => (s.onLock l ({ · with holder := some c })).put c call (.granted l)
  | some _ => (s.onLock l fun x => { x with waiting := x.waiting ++ [c] }).put c call (.waiting l)

/-- A call that has the lock looks again. -/
def lookAgain (c : Nat) (call : Call) (k l : Nat) : State :=
  match s.cached? k call.name with
  | some snapshot => (s.look k call.name).put c call (.releasing l (.ok snapshot))
  | none => (s.look k call.name).put c call (.asking (some l))

/-- A call stores what it was given. -/
def store (c : Nat) (call : Call) (k : Nat) (lock : Option Nat) (snapshot : Snapshot) : State :=
  (s.onCache k (·.set call.name snapshot)).put c call (.ended lock (.ok snapshot))

/-- A call gives a lock back. The one that has waited longest is handed it. -/
def release (c : Nat) (call : Call) (l : Nat) (result : Except ProviderError Snapshot) : State :=
  let left := s.put c call (.leaving l result)
  match (s.lock l).waiting with
  | next :: rest => (left.onLock l ({ · with holder := some next, waiting := rest })).grant next l
  | [] => left.onLock l ({ · with holder := none })

/-- A call lets go of a lock. -/
def leave (c : Nat) (call : Call) (l : Nat) (result : Except ProviderError Snapshot) : State :=
  (s.onLock l fun x => { x with users := x.users.erase c }).put c call (.tidying result)

/-- A call ends, and removes the lock of its name from the table if nobody refers to it. -/
def tidy (c : Nat) (call : Call) (result : Except ProviderError Snapshot) : State :=
  let ended := s.put c call (.finished result)
  match s.lockFor? call.resolver call.name with
  | some l => if (s.lock l).users = [] then ended.onTable call.resolver (·.erase call.name) else ended
  | none => ended

/-- A new call looks into its cache. -/
def start? (c r : Nat) (name : String) : Option State := do
  let resolver ← s.resolvers[r]?
  let call : Call := ⟨r, name, .missed⟩
  if s.calls.contains c then none
  else
    let looked := s.look resolver.cache name
    match s.cached? resolver.cache name with
    | some snapshot => some (looked.put c call (.finished (.ok snapshot)))
    | none => some (looked.put c call (if resolver.singleFlight then .missed else .asking none))

/-- A call takes the next step that it can take by itself. -/
def advance? (c : Nat) : Option State := do
  let call ← s.calls[c]?
  let resolver ← s.resolvers[call.resolver]?
  match call.phase with
  | .missed => some (s.takeLock c call)
  | .approaching l => some (s.request c call l)
  | .granted l => some (s.lookAgain c call resolver.cache l)
  | .asking lock => some (s.put c call (.fetching lock))
  | .storing lock snapshot => some (s.store c call resolver.cache lock snapshot)
  | .releasing l result => some (s.release c call l result)
  | .leaving l result => some (s.leave c call l result)
  | .tidying result => some (s.tidy c call result)
  | .waiting _ | .fetching _ | .finished _ => none

/-- The provider answers a call. A map becomes a snapshot of the call's own; an error ends the call
alone. -/
def answer? (c : Nat) (answer : Except ProviderError AttributeMap) : Option State := do
  let call ← s.calls[c]?
  match call.phase, answer with
  | .fetching lock, .ok map => some (s.put c call (.storing lock ⟨c, map⟩))
  | .fetching lock, .error e => some (s.put c call (.ended lock (.error e)))
  | _, _ => none

/-- Removes a name from the cache of a resolver. -/
def invalidate? (r : Nat) (name : String) : Option State := do
  let resolver ← s.resolvers[r]?
  some (s.onCache resolver.cache fun cache => (cache.delete name).2)

end State

/-- The steps of the system: those of calls, and the operations on caches by others. -/
inductive Move where
  | start (c r : Nat) (name : String)
  | advance (c : Nat)
  | answer (c : Nat) (answer : Except ProviderError AttributeMap)
  | invalidate (r : Nat) (name : String)
  | get (k : Nat) (name : String)
  | contains (k : Nat) (name : String)
  | set (k : Nat) (name : String) (snapshot : Snapshot)
  | delete (k : Nat) (name : String)
  | clear (k : Nat)

/-- One step, if it can be taken. -/
def State.step? (s : State) : Move → Option State
  | .start c r name => s.start? c r name
  | .advance c => s.advance? c
  | .answer c answer => s.answer? c answer
  | .invalidate r name => s.invalidate? r name
  | .get k name => some (s.look k name)
  | .contains .. => some s
  | .set k name snapshot => some (s.onCache k (·.set name snapshot))
  | .delete k name => some (s.onCache k fun cache => (cache.delete name).2)
  | .clear k => some (s.onCache k Cache.clear)

/-- A row of steps. -/
def State.run? (s : State) : List Move → Option State
  | [] => some s
  | m :: ms => (s.step? m).bind (·.run? ms)

/-- What a call came to, if it has ended. -/
def State.result? (s : State) (c : Nat) : Option (Except ProviderError Snapshot) :=
  match s.calls[c]? with
  | some ⟨_, _, .finished result⟩ => some result
  | _ => none

/-- What a prefetch makes of the results of its calls: the first error in the order of its names. -/
def prefetched : List (Except ProviderError Snapshot) → Except ProviderError Unit
  | [] => .ok ()
  | .ok _ :: rest => prefetched rest
  | .error e :: _ => .error e

/-- What a prefetch comes to, if all its calls have ended. -/
def State.prefetch? (s : State) (calls : List Nat) : Option (Except ProviderError Unit) :=
  (calls.mapM s.result?).map prefetched

end Resolver

end ODataQuery
