import ODataQuery.Proofs.Resolver.History
import ODataQuery.Proofs.Resolver.Step
import ODataQuery.Resolver.Session

/-!
A resolver in sequential use: every operation ends before the next one begins. Nobody else is there to hold a
lock or to fill the cache in the meantime, so that single flight makes no difference but one: a call that has
found nothing looks a second time, and that look counts as another miss. Both ways of fetching are shown to be
one cache in front of the provider, which is told how many looks a fetch takes.
-/

namespace ODataQuery.Cache

variable {α : Type} {cache : Cache α} {name : String} {a : α}

theorem get_of_some (found : cache.entries[name]? = some a) :
    cache.get name = (some a, { cache with hits := cache.hits + 1 }) := by
  rw [get, found]

theorem get_of_none (missing : cache.entries[name]? = none) :
    cache.get name = (none, { cache with misses := cache.misses + 1 }) := by
  rw [get, missing]

end ODataQuery.Cache

namespace ODataQuery.Resolver

/-- What a provider is asked for: the names of an entity, or its attributes. -/
inductive Question where
  | names (input : String)
  | attributes (name : String)
  deriving DecidableEq

def Question.isAttributes : Question → Bool
  | names _ => false
  | attributes _ => true

/-- What a provider answers at some time. -/
structure Provider where
  names : String → Except ProviderError (Option EntityNames)
  attributes : String → Except ProviderError AttributeMap

/-- What a user of a resolver and its cache may do. The counters of the cache can be read at any time, and are
no operation: they are compared apart. -/
inductive Operation where
  | resolve (input : String)
  | attributes (name : String)
  | invalidate (name : String)
  | get (name : String)
  | contains (name : String)
  | set (name : String) (snapshot : Snapshot)
  | delete (name : String)
  | clear
  | keys
  | size
  | isEmpty

/-- What an operation tells its user. -/
inductive Reply where
  | nothing
  | flag (b : Bool)
  | size (n : Nat)
  | keys (names : List String)
  | names (n : EntityNames)
  | snapshot (s : Snapshot)
  | failed (e : ResolveError)

namespace Reply

def ofNames : Except ResolveError EntityNames → Reply
  | .ok n => names n
  | .error e => failed e

def ofResult : Except ProviderError Snapshot → Reply
  | .ok s => snapshot s
  | .error e => failed (.provider e)

end Reply

/-- A resolver in sequential use: the system, the number of operations so far, and what the provider was asked,
the last first. -/
structure Usage where
  state : State
  time : Nat := 0
  asked : List Question := []

/-- A new resolver, which uses a cache alone. -/
def Usage.of (singleFlight : Bool) (cache : Cache Snapshot) : Usage :=
  { state := { caches := [cache], resolvers := [{ singleFlight, cache := 0 }] } }

namespace Usage

variable (w : Usage)

/-- An operation ends. -/
def next (state : State) (questions : List Question) : Usage :=
  { state, time := w.time + 1, asked := questions ++ w.asked }

def cache : Cache Snapshot := w.state.caches[0]?.getD {}

/-- An operation that is one step of the system. -/
def step? (m : Move) (reply : Reply) : Option (Reply × Usage) :=
  (w.state.step? m).map fun t => (reply, w.next t [])

/-- A call for the attributes under a name, from its first look to its end. It has the number of the operation. If
it does not come to its end by itself, the provider answers. -/
def fetch? (name : String) (answer : Except ProviderError AttributeMap) : Option (Reply × Usage) := do
  let begun ← w.state.step? (.start w.time 0 name)
  let t := begun.settle w.time
  match t.result? w.time with
  | some result => some (.ofResult result, w.next t [])
  | none =>
    let answered ← t.step? (.answer w.time answer)
    let u := answered.settle w.time
    (u.result? w.time).map fun result => (.ofResult result, w.next u [.attributes name])

/-- An operation, if it can be carried out. The provider answers as it does at this time, after what it was asked
before. -/
def perform? (provider : Nat → List Question → Provider) : Operation → Option (Reply × Usage)
  | .resolve input =>
    let answer := (provider w.time w.asked).names input
    some (.ofNames (ResolveError.ofAnswer input answer), w.next w.state [.names input])
  | .attributes name => w.fetch? name ((provider w.time w.asked).attributes name)
  | .invalidate name => w.step? (.invalidate 0 name) .nothing
  | .get name => w.step? (.get 0 name) ((w.cache.get name).1.elim .nothing .snapshot)
  | .contains name => w.step? (.contains 0 name) (.flag (w.cache.contains name))
  | .set name snapshot => w.step? (.set 0 name snapshot) .nothing
  | .delete name => w.step? (.delete 0 name) (.flag (w.cache.delete name).1)
  | .clear => w.step? (.clear 0) .nothing
  | .keys => some (.keys w.cache.keys, w.next w.state [])
  | .size => some (.size w.cache.size, w.next w.state [])
  | .isEmpty => some (.flag w.cache.isEmpty, w.next w.state [])

/-- Operations one after the other: what each of them tells, and what is there after it. -/
def trace? (provider : Nat → List Question → Provider) (w : Usage) :
    List Operation → Option (List (Reply × Usage))
  | [] => some []
  | op :: ops => do
    let (reply, next) ← w.perform? provider op
    let rest ← next.trace? provider ops
    some ((reply, next) :: rest)

end Usage

/-- A cache after the provider's answer to a call. -/
def answered (cache : Cache Snapshot) (c : Nat) (name : String) :
    Except ProviderError AttributeMap → Cache Snapshot
  | .ok map => cache.set name ⟨c, map⟩
  | .error _ => cache

/-- A cache in front of a provider: the cache, the number of operations so far, and what the provider was asked. -/
structure Front where
  cache : Cache Snapshot
  time : Nat := 0
  asked : List Question := []

namespace Front

variable (f : Front)

def next (cache : Cache Snapshot) (questions : List Question) : Front :=
  { cache, time := f.time + 1, asked := questions ++ f.asked }

/-- The attributes under a name, from the cache if it has them, or else from the provider. If the cache does not
have them, this takes some looks. -/
def fetch (looks : Nat) (name : String) (answer : Except ProviderError AttributeMap) : Reply × Front :=
  match f.cache.entries[name]? with
  | some snapshot => (.snapshot snapshot, f.next { f.cache with hits := f.cache.hits + 1 } [])
  | none =>
    let looked := { f.cache with misses := f.cache.misses + looks }
    (.ofResult (answer.map (⟨f.time, ·⟩)), f.next (answered looked f.time name answer) [.attributes name])

/-- What an operation tells, and what it leaves. -/
def serve (looks : Nat) (provider : Nat → List Question → Provider) : Operation → Reply × Front
  | .resolve input =>
    (.ofNames (ResolveError.ofAnswer input ((provider f.time f.asked).names input)), f.next f.cache [.names input])
  | .attributes name => f.fetch looks name ((provider f.time f.asked).attributes name)
  | .invalidate name => (.nothing, f.next (f.cache.delete name).2 [])
  | .get name => ((f.cache.get name).1.elim .nothing .snapshot, f.next (f.cache.get name).2 [])
  | .contains name => (.flag (f.cache.contains name), f.next f.cache [])
  | .set name snapshot => (.nothing, f.next (f.cache.set name snapshot) [])
  | .delete name => (.flag (f.cache.delete name).1, f.next (f.cache.delete name).2 [])
  | .clear => (.nothing, f.next f.cache.clear [])
  | .keys => (.keys f.cache.keys, f.next f.cache [])
  | .size => (.size f.cache.size, f.next f.cache [])
  | .isEmpty => (.flag f.cache.isEmpty, f.next f.cache [])

end Front

namespace State

variable {s t : State} {singleFlight : Bool} {table : Std.ExtTreeMap String Nat} {cache : Cache Snapshot}
  {c n : Nat} {name : String} {phase : Phase} {lock : Lock} {result : Except ProviderError Snapshot}

/-! ### A call alone -/

/-- Nobody is under way in a system of one resolver and one cache, and the numbers from some on are free. -/
structure Idle (s : State) (singleFlight : Bool) (cache : Cache Snapshot) (c : Nat) : Prop where
  caches : s.caches = [cache]
  resolvers : s.resolvers = [{ singleFlight, cache := 0 }]
  fresh : ∀ d, c ≤ d → s.calls[d]? = none

/-- One call is under way, and nobody else. The lock is the one that has the number of the call. -/
structure Solo (s : State) (singleFlight : Bool) (table : Std.ExtTreeMap String Nat) (cache : Cache Snapshot)
    (c : Nat) (name : String) (phase : Phase) (lock : Lock) : Prop where
  caches : s.caches = [cache]
  resolvers : s.resolvers = [{ singleFlight, cache := 0, table }]
  call : s.calls[c]? = some ⟨0, name, phase⟩
  lock : s.lock c = lock
  fresh : ∀ d, c < d → s.calls[d]? = none

theorem goOn_of_step (step : Step s (.advance c) t) : s.goOn c (n + 1) = t.goOn c n := by
  have hadvance : s.advance? c = some t := step?_of_step step
  rw [goOn, hadvance]

/-- A call that waits for the provider, or has ended, does not go on by itself. -/
theorem goOn_of_still (hcall : s.calls[c]? = some ⟨0, name, phase⟩) (hstill : phase.ahead = 0) :
    s.goOn c n = s := by
  cases n with
  | zero => rfl
  | succ n =>
      have hadvance : s.advance? c = none := by
        cases phase with
        | waiting l | fetching l | finished result => simp [advance?, hcall]
        | _ => cases hstill
      rw [goOn, hadvance]

theorem settle_eq (hcall : s.calls[c]? = some ⟨0, name, phase⟩) : s.settle c = s.goOn c phase.ahead := by
  rw [settle, hcall]
  rfl

namespace Solo

section Parts

variable (h : s.Solo singleFlight table cache c name phase lock)
include h

theorem resolver : s.resolvers[0]? = some { singleFlight, cache := 0, table } := by
  rw [h.resolvers]
  rfl

theorem cached? : s.cached? 0 name = cache.entries[name]? := by
  rw [State.cached?, h.caches]
  rfl

theorem lockFor? : s.lockFor? 0 name = table[name]? := by
  rw [State.lockFor?, h.resolver]
  rfl

theorem put (phase' : Phase) :
    (s.put c ⟨0, name, phase⟩ phase').Solo singleFlight table cache c name phase' lock := by
  refine ⟨h.caches, h.resolvers, ?_, h.lock, ?_⟩
  · rw [getElem?_put, if_pos rfl]
  · intro d hd
    rw [getElem?_put, if_neg (Nat.ne_of_lt hd)]
    exact h.fresh d hd

theorem onCache {f : Cache Snapshot → Cache Snapshot} :
    (s.onCache 0 f).Solo singleFlight table (f cache) c name phase lock := by
  refine ⟨?_, h.resolvers, h.call, h.lock, h.fresh⟩
  rw [State.onCache, h.caches]
  rfl

theorem onTable {f : Std.ExtTreeMap String Nat → Std.ExtTreeMap String Nat} :
    (s.onTable 0 f).Solo singleFlight (f table) cache c name phase lock := by
  refine ⟨h.caches, ?_, h.call, h.lock, h.fresh⟩
  rw [State.onTable, h.resolvers]
  rfl

theorem onLock {f : Lock → Lock} : (s.onLock c f).Solo singleFlight table cache c name phase (f lock) := by
  refine ⟨h.caches, h.resolvers, h.call, ?_, h.fresh⟩
  rw [lock_onLock, if_pos rfl, h.lock]

end Parts

/-! ### The steps of a call alone -/

theorem make (h : s.Solo singleFlight table cache c name .missed lock) (missing : table[name]? = none) :
    ∃ t, Step s (.advance c) t ∧
      t.Solo singleFlight (table.insert name c) cache c name (.approaching c) { users := [c] } :=
  ⟨_, .make h.call h.resolver (h.lockFor?.trans missing), h.onTable.onLock.put _⟩

theorem acquire (h : s.Solo singleFlight table cache c name (.approaching c) lock) (free : lock.holder = none) :
    ∃ t, Step s (.advance c) t ∧
      t.Solo singleFlight table cache c name (.granted c) { lock with holder := some c } :=
  ⟨_, .acquire h.call h.resolver (by rw [h.lock, free]), h.onLock.put _⟩

theorem foundNone (h : s.Solo singleFlight table cache c name (.granted c) lock)
    (missing : cache.entries[name]? = none) :
    ∃ t, Step s (.advance c) t ∧ t.Solo singleFlight table (cache.get name).2 c name (.asking (some c)) lock :=
  ⟨_, .foundNone h.call h.resolver (h.cached?.trans missing), h.onCache.put _⟩

theorem ask {lock? : Option Nat} (h : s.Solo singleFlight table cache c name (.asking lock?) lock) :
    ∃ t, Step s (.advance c) t ∧ t.Solo singleFlight table cache c name (.fetching lock?) lock :=
  ⟨_, .ask h.call h.resolver, h.put _⟩

theorem store {lock? : Option Nat} {snapshot : Snapshot}
    (h : s.Solo singleFlight table cache c name (.storing lock? snapshot) lock) : ∃ t, Step s (.advance c) t ∧
      t.Solo singleFlight table (cache.set name snapshot) c name (.ended lock? (.ok snapshot)) lock :=
  ⟨_, .store h.call h.resolver, h.onCache.put _⟩

theorem free (h : s.Solo singleFlight table cache c name (.releasing c result) lock) (nobody : lock.waiting = []) :
    ∃ t, Step s (.advance c) t ∧
      t.Solo singleFlight table cache c name (.leaving c result) { lock with holder := none } :=
  ⟨_, .free h.call h.resolver (by rw [h.lock, nobody]), (h.put _).onLock⟩

theorem leave (h : s.Solo singleFlight table cache c name (.leaving c result) lock) :
    ∃ t, Step s (.advance c) t ∧
      t.Solo singleFlight table cache c name (.tidying result) { lock with users := lock.users.erase c } :=
  ⟨_, .leave h.call h.resolver, h.onLock.put _⟩

theorem clearTable (h : s.Solo singleFlight table cache c name (.tidying result) lock)
    (there : table[name]? = some c) (nobody : lock.users = []) : ∃ t, Step s (.advance c) t ∧
      t.Solo singleFlight (table.erase name) cache c name (.finished result) lock :=
  ⟨_, .clearTable h.call h.resolver (h.lockFor?.trans there) (by rw [h.lock, nobody]), (h.put _).onTable⟩

/-! ### A fetch -/

/-- In single flight a call that found nothing takes a new lock, looks again, and is put to the provider. -/
theorem settle_missed (h : s.Solo true ∅ cache c name .missed lock) (missing : cache.entries[name]? = none) :
    (s.settle c).Solo true (Std.ExtTreeMap.insert ∅ name c) (cache.get name).2 c name (.fetching (some c))
      { users := [c], holder := some c } := by
  obtain ⟨s₁, step₁, h₁⟩ := h.make Std.ExtTreeMap.getElem?_empty
  obtain ⟨s₂, step₂, h₂⟩ := h₁.acquire rfl
  obtain ⟨s₃, step₃, h₃⟩ := h₂.foundNone missing
  obtain ⟨s₄, step₄, h₄⟩ := h₃.ask
  have hsettle : s.settle c = s₄ := by
    rw [settle_eq h.call]
    show s.goOn c 6 = s₄
    rw [goOn_of_step step₁, goOn_of_step step₂, goOn_of_step step₃, goOn_of_step step₄,
      goOn_of_still h₄.call rfl]
  rwa [hsettle]

/-- Otherwise it is put to the provider at once. -/
theorem settle_asking (h : s.Solo singleFlight table cache c name (.asking none) lock) :
    (s.settle c).Solo singleFlight table cache c name (.fetching none) lock := by
  obtain ⟨s₁, step₁, h₁⟩ := h.ask
  have hsettle : s.settle c = s₁ := by
    rw [settle_eq h.call]
    show s.goOn c 1 = s₁
    rw [goOn_of_step step₁, goOn]
  rwa [hsettle]

/-- A call that knows its result gives its lock back and removes it from the table. -/
theorem goOn_releasing (h : s.Solo singleFlight table cache c name (.releasing c result)
    { users := [c], holder := some c }) (there : table[name]? = some c) :
    (s.goOn c 3).Solo singleFlight (table.erase name) cache c name (.finished result) {} := by
  obtain ⟨s₁, step₁, h₁⟩ := h.free rfl
  obtain ⟨s₂, step₂, h₂⟩ := h₁.leave
  rw [List.erase_cons_head] at h₂
  obtain ⟨s₃, step₃, h₃⟩ := h₂.clearTable there rfl
  rwa [goOn_of_step step₁, goOn_of_step step₂, goOn_of_step step₃, goOn]

/-- A call that has ended leaves nobody under way. -/
theorem idle (h : s.Solo singleFlight ∅ cache c name phase lock) : s.Idle singleFlight cache (c + 1) :=
  ⟨h.caches, h.resolvers, fun d hd => h.fresh d hd⟩

theorem result? (h : s.Solo singleFlight table cache c name (.finished result) lock) :
    s.result? c = some result := by
  rw [State.result?, h.call]

end Solo

/-- The provider works on a call alone, which in single flight has its lock. -/
inductive Waits (s : State) (cache : Cache Snapshot) (c : Nat) (name : String) : Bool → Prop where
  | locked (h : s.Solo true (Std.ExtTreeMap.insert ∅ name c) cache c name (.fetching (some c))
      { users := [c], holder := some c }) : Waits s cache c name true
  | plain {lock : Lock} (h : s.Solo false ∅ cache c name (.fetching none) lock) : Waits s cache c name false

/-- How often a call looks until it is put to the provider. -/
def looks (singleFlight : Bool) : Nat := if singleFlight then 2 else 1

theorem Waits.result? (h : s.Waits cache c name singleFlight) : s.result? c = none := by
  cases h with
  | locked h => rw [State.result?, h.call]
  | plain h => rw [State.result?, h.call]

/-- The provider's answer brings a call to its end. -/
theorem Waits.answer (h : s.Waits cache c name singleFlight) (answer : Except ProviderError AttributeMap) :
    ∃ t lock, s.step? (.answer c answer) = some t ∧ (t.settle c).Solo singleFlight ∅ (answered cache c name answer)
      c name (.finished (answer.map (⟨c, ·⟩))) lock := by
  have there : (Std.ExtTreeMap.insert ∅ name c : Std.ExtTreeMap String Nat)[name]? = some c :=
    Std.ExtTreeMap.getElem?_insert_self
  have herase : (Std.ExtTreeMap.insert ∅ name c : Std.ExtTreeMap String Nat).erase name = ∅ := by
    apply Std.ExtTreeMap.ext_getElem?
    intro name'
    simp only [Std.ExtTreeMap.getElem?_erase, Std.ExtTreeMap.getElem?_insert, Std.ExtTreeMap.getElem?_empty]
    split <;> rfl
  cases h with
  | locked h =>
      cases answer with
      | ok map =>
          have hgiven := h.put (.storing (some c) ⟨c, map⟩)
          obtain ⟨u, step, hu⟩ := hgiven.store
          refine ⟨_, {}, step?_of_step (.given h.call), ?_⟩
          rw [settle_eq hgiven.call]
          show (State.goOn c 4 _).Solo _ _ _ _ _ _ _
          rw [goOn_of_step step, ← herase]
          exact hu.goOn_releasing there
      | error e =>
          have hfailed := h.put (.ended (some c) (.error e))
          refine ⟨_, {}, step?_of_step (.failed h.call), ?_⟩
          rw [settle_eq hfailed.call, ← herase]
          exact hfailed.goOn_releasing there
  | @plain lock h =>
      cases answer with
      | ok map =>
          have hgiven := h.put (.storing none ⟨c, map⟩)
          obtain ⟨u, step, hu⟩ := hgiven.store
          refine ⟨_, lock, step?_of_step (.given h.call), ?_⟩
          rw [settle_eq hgiven.call]
          show (State.goOn c 4 _).Solo _ _ _ _ _ _ _
          rw [goOn_of_step step, goOn_of_still hu.call rfl]
          exact hu
      | error e =>
          have hfailed := h.put (.ended none (.error e))
          refine ⟨_, lock, step?_of_step (.failed h.call), ?_⟩
          rw [settle_eq hfailed.call]
          exact hfailed

namespace Idle

variable (h : s.Idle singleFlight cache c)
include h

theorem resolver : s.resolvers[0]? = some { singleFlight, cache := 0 } := by
  rw [h.resolvers]
  rfl

theorem cached? : s.cached? 0 name = cache.entries[name]? := by
  rw [State.cached?, h.caches]
  rfl

/-- A call begins, and looks into the cache. -/
theorem begin (name : String) (phase : Phase) : ((s.look 0 name).put c ⟨0, name, .missed⟩ phase).Solo
    singleFlight ∅ (cache.get name).2 c name phase (s.lock c) := by
  refine ⟨?_, h.resolvers, ?_, rfl, ?_⟩
  · show (s.look 0 name).caches = _
    rw [look, State.onCache, h.caches]
    rfl
  · rw [getElem?_put, if_pos rfl]
  · intro d hd
    rw [getElem?_put, if_neg (Nat.ne_of_lt hd)]
    exact h.fresh d (Nat.le_of_lt hd)

theorem start_hit {snapshot : Snapshot} (found : cache.entries[name]? = some snapshot) :
    ∃ t lock, s.step? (.start c 0 name) = some t ∧ (t.settle c).Solo singleFlight ∅
      { cache with hits := cache.hits + 1 } c name (.finished (.ok snapshot)) lock := by
  have hstep := Step.hit (h.fresh c (Nat.le_refl c)) h.resolver (h.cached?.trans found)
  have hbegin := h.begin name (.finished (.ok snapshot))
  rw [Cache.get_of_some found] at hbegin
  refine ⟨_, s.lock c, step?_of_step hstep, ?_⟩
  rw [settle_eq hbegin.call]
  exact hbegin

theorem start_miss (missing : cache.entries[name]? = none) :
    ∃ t, s.step? (.start c 0 name) = some t ∧ (t.settle c).Waits
      { cache with misses := cache.misses + looks singleFlight } c name singleFlight := by
  cases singleFlight with
  | true =>
      have hstep := Step.miss (h.fresh c (Nat.le_refl c)) h.resolver (h.cached?.trans missing) rfl
      have hbegin := h.begin name .missed
      rw [Cache.get_of_none missing] at hbegin
      have hwaits := hbegin.settle_missed missing
      rw [Cache.get_of_none (by exact missing)] at hwaits
      exact ⟨_, step?_of_step hstep, .locked hwaits⟩
  | false =>
      have hstep := Step.missPlain (h.fresh c (Nat.le_refl c)) h.resolver (h.cached?.trans missing) rfl
      have hbegin := h.begin name (.asking none)
      rw [Cache.get_of_none missing] at hbegin
      exact ⟨_, step?_of_step hstep, .plain hbegin.settle_asking⟩

/-- A step that only looks into the cache or changes it. -/
theorem onCache {f : Cache Snapshot → Cache Snapshot} : (s.onCache 0 f).Idle singleFlight (f cache) (c + 1) := by
  refine ⟨?_, h.resolvers, fun d hd => h.fresh d (Nat.le_of_succ_le hd)⟩
  rw [State.onCache, h.caches]
  rfl

theorem later : s.Idle singleFlight cache (c + 1) :=
  ⟨h.caches, h.resolvers, fun d hd => h.fresh d (Nat.le_of_succ_le hd)⟩

end Idle

end State

/-! ### Operations -/

/-- A resolver in sequential use is a cache in front of the provider. -/
structure Usage.Shows (w : Usage) (singleFlight : Bool) (f : Front) : Prop where
  idle : w.state.Idle singleFlight f.cache f.time
  time : w.time = f.time
  asked : w.asked = f.asked

namespace Usage.Shows

variable {w : Usage} {singleFlight : Bool} {f : Front} {t : State} {cache : Cache Snapshot}
  (h : w.Shows singleFlight f)
include h

theorem next (ht : t.Idle singleFlight cache (f.time + 1)) (questions : List Question) :
    (w.next t questions).Shows singleFlight (f.next cache questions) :=
  ⟨ht, congrArg (· + 1) h.time, congrArg (questions ++ ·) h.asked⟩

theorem cache_eq : w.cache = f.cache := by
  rw [Usage.cache, h.idle.caches]
  rfl

theorem fetch? (name : String) (answer : Except ProviderError AttributeMap) :
    ∃ w', w.fetch? name answer = some ((f.fetch (State.looks singleFlight) name answer).1, w') ∧
      w'.Shows singleFlight (f.fetch (State.looks singleFlight) name answer).2 := by
  cases hfound : f.cache.entries[name]? with
  | some snapshot =>
      obtain ⟨t, lock, hstart, hend⟩ := h.idle.start_hit hfound
      refine ⟨w.next (t.settle f.time) [], ?_, ?_⟩
      · simp only [Usage.fetch?, h.time, hstart, Option.bind_eq_bind, Option.bind_some, hend.result?, Front.fetch,
          hfound]
        rfl
      · rw [Front.fetch, hfound]
        exact h.next hend.idle []
  | none =>
      obtain ⟨t, hstart, hwaits⟩ := h.idle.start_miss hfound
      obtain ⟨u, lock, hanswer, hend⟩ := hwaits.answer answer
      refine ⟨w.next (u.settle f.time) [.attributes name], ?_, ?_⟩
      · simp only [Usage.fetch?, h.time, hstart, Option.bind_eq_bind, Option.bind_some, hwaits.result?, hanswer,
          hend.result?, Option.map_some, Front.fetch, hfound]
      · rw [Front.fetch, hfound]
        exact h.next hend.idle [.attributes name]

variable (provider : Nat → List Question → Provider)

/-- Every operation on the resolver and its cache is the one on the cache in front of the provider. -/
theorem perform? (op : Operation) :
    ∃ w', w.perform? provider op = some ((f.serve (State.looks singleFlight) provider op).1, w') ∧
      w'.Shows singleFlight (f.serve (State.looks singleFlight) provider op).2 := by
  have hstep : ∀ {m : Move} {t : State} {cache : Cache Snapshot} {reply : Reply},
      w.state.step? m = some t → t.Idle singleFlight cache (f.time + 1) →
      ∃ w', w.step? m reply = some (reply, w') ∧ w'.Shows singleFlight (f.next cache []) := by
    intro m t cache reply hm ht
    exact ⟨w.next t [], by rw [Usage.step?, hm, Option.map_some], h.next ht []⟩
  cases op with
  | resolve input =>
      refine ⟨_, ?_, h.next h.idle.later [.names input]⟩
      rw [Usage.perform?, h.time, h.asked]
      rfl
  | attributes name =>
      rw [Usage.perform?, h.time, h.asked]
      exact h.fetch? name _
  | invalidate name => exact hstep (State.step?_of_step (.invalidate h.idle.resolver)) h.idle.onCache
  | get name =>
      rw [Usage.perform?, h.cache_eq]
      exact hstep (State.step?_of_step .get) h.idle.onCache
  | contains name =>
      rw [Usage.perform?, h.cache_eq]
      exact hstep (State.step?_of_step .contains) h.idle.later
  | set name snapshot => exact hstep (State.step?_of_step .set) h.idle.onCache
  | delete name =>
      rw [Usage.perform?, h.cache_eq]
      exact hstep (State.step?_of_step .delete) h.idle.onCache
  | clear => exact hstep (State.step?_of_step .clear) h.idle.onCache
  | keys | size | isEmpty =>
      refine ⟨_, ?_, h.next h.idle.later []⟩
      rw [Usage.perform?, h.cache_eq]
      rfl

end Usage.Shows

/-! ### Both ways of fetching -/

/-- The attributes that were asked for. -/
def attributesAsked (asked : List Question) : Nat := asked.countP Question.isAttributes

/-- Two caches in front of the provider that differ only in the misses: the first one has counted one more for
every question for attributes. -/
structure Front.Ahead (f g : Front) : Prop where
  entries : f.cache.entries = g.cache.entries
  hits : f.cache.hits = g.cache.hits
  misses : f.cache.misses = g.cache.misses + attributesAsked g.asked
  time : f.time = g.time
  asked : f.asked = g.asked

namespace Front.Ahead

variable {f g : Front} (h : f.Ahead g)
include h

theorem next {cache cache' : Cache Snapshot} {questions : List Question} (entries : cache.entries = cache'.entries)
    (hits : cache.hits = cache'.hits)
    (misses : cache.misses = cache'.misses + (attributesAsked questions + attributesAsked g.asked)) :
    (f.next cache questions).Ahead (g.next cache' questions) := by
  refine ⟨entries, hits, ?_, congrArg (· + 1) h.time, congrArg (questions ++ ·) h.asked⟩
  change cache.misses = cache'.misses + attributesAsked (questions ++ g.asked)
  rw [misses, attributesAsked, attributesAsked, attributesAsked, List.countP_append]

/-- A step that counts the same on both. -/
theorem next_nil {cache cache' : Cache Snapshot} (entries : cache.entries = cache'.entries)
    (hits : cache.hits = cache'.hits) (misses : cache.misses = cache'.misses + attributesAsked g.asked) :
    (f.next cache []).Ahead (g.next cache' []) :=
  h.next entries hits (by rw [misses, attributesAsked, attributesAsked, List.countP_nil, Nat.zero_add])

theorem fetch (name : String) (answer : Except ProviderError AttributeMap) :
    (f.fetch 2 name answer).1 = (g.fetch 1 name answer).1 ∧
      (f.fetch 2 name answer).2.Ahead (g.fetch 1 name answer).2 := by
  have hmisses : f.cache.misses + 2 = g.cache.misses + 1 + (attributesAsked [.attributes name] +
      attributesAsked g.asked) := by
    have hone : attributesAsked [.attributes name] = 1 := rfl
    rw [h.misses, hone]
    omega
  rw [Front.fetch, Front.fetch, h.entries, h.time]
  cases g.cache.entries[name]? with
  | some snapshot => exact ⟨rfl, h.next_nil h.entries (congrArg (· + 1) h.hits) h.misses⟩
  | none =>
      refine ⟨rfl, ?_⟩
      cases answer with
      | ok map => exact h.next (congrArg (·.insert name ⟨g.time, map⟩) h.entries) h.hits hmisses
      | error e => exact h.next h.entries h.hits hmisses

/-- One operation tells the same on both. -/
theorem serve (provider : Nat → List Question → Provider) (op : Operation) :
    (f.serve 2 provider op).1 = (g.serve 1 provider op).1 ∧
      (f.serve 2 provider op).2.Ahead (g.serve 1 provider op).2 := by
  cases op with
  | resolve input =>
      rw [Front.serve, Front.serve, h.time, h.asked]
      have hnone : attributesAsked [.names input] = 0 := rfl
      exact ⟨rfl, h.next h.entries h.hits (by rw [h.misses, hnone, Nat.zero_add])⟩
  | attributes name =>
      rw [Front.serve, Front.serve, h.time, h.asked]
      exact h.fetch name _
  | get name =>
      rw [Front.serve, Front.serve]
      cases hfound : g.cache.entries[name]? with
      | some snapshot =>
          rw [Cache.get_of_some hfound, Cache.get_of_some (h.entries ▸ hfound)]
          exact ⟨rfl, h.next_nil h.entries (congrArg (· + 1) h.hits) h.misses⟩
      | none =>
          have hmisses : f.cache.misses + 1 = g.cache.misses + 1 + attributesAsked g.asked := by
            rw [h.misses]
            omega
          rw [Cache.get_of_none hfound, Cache.get_of_none (h.entries ▸ hfound)]
          exact ⟨rfl, h.next_nil h.entries h.hits hmisses⟩
  | invalidate name => exact ⟨rfl, h.next_nil (congrArg (·.erase name) h.entries) h.hits h.misses⟩
  | contains name =>
      rw [Front.serve, Front.serve, Cache.contains, Cache.contains, h.entries]
      exact ⟨rfl, h.next_nil h.entries h.hits h.misses⟩
  | set name snapshot => exact ⟨rfl, h.next_nil (congrArg (·.insert name snapshot) h.entries) h.hits h.misses⟩
  | delete name =>
      rw [Front.serve, Front.serve, Cache.delete, Cache.delete, Cache.contains, Cache.contains, h.entries]
      exact ⟨rfl, h.next_nil rfl h.hits h.misses⟩
  | clear => exact ⟨rfl, h.next_nil rfl h.hits h.misses⟩
  | keys =>
      rw [Front.serve, Front.serve, Cache.keys, Cache.keys, h.entries]
      exact ⟨rfl, h.next_nil h.entries h.hits h.misses⟩
  | size =>
      rw [Front.serve, Front.serve, Cache.size, Cache.size, h.entries]
      exact ⟨rfl, h.next_nil h.entries h.hits h.misses⟩
  | isEmpty =>
      rw [Front.serve, Front.serve, Cache.isEmpty, Cache.isEmpty, h.entries]
      exact ⟨rfl, h.next_nil h.entries h.hits h.misses⟩

end Front.Ahead

/-- What an operation tells and leaves in single flight, and what it does without. Both caches are told apart only by
the misses, also when these are read, as long as they fit into a word. -/
structure Alike (p q : Reply × Usage) : Prop where
  reply : p.1 = q.1
  asked : p.2.asked = q.2.asked
  caches : ∃ c d, p.2.state.caches = [c] ∧ q.2.state.caches = [d] ∧ c.entries = d.entries ∧
    c.hits = d.hits ∧ c.misses = d.misses + attributesAsked q.2.asked ∧ c.stats.hits = d.stats.hits ∧
    (c.misses < UInt64.size → c.stats.misses.toNat = d.stats.misses.toNat + attributesAsked q.2.asked)

theorem Front.Ahead.alike {f g : Front} {v w : Usage} (h : f.Ahead g) (hv : v.Shows true f) (hw : w.Shows false g)
    (reply : Reply) : Alike (reply, v) (reply, w) := by
  have hasked : v.asked = w.asked := calc
    v.asked = f.asked := hv.asked
    _ = g.asked := h.asked
    _ = w.asked := hw.asked.symm
  have hmisses : f.cache.misses = g.cache.misses + attributesAsked w.asked := hw.asked ▸ h.misses
  refine ⟨rfl, hasked, f.cache, g.cache, hv.idle.caches, hw.idle.caches, h.entries, h.hits, hmisses, ?_, fun fits => ?_⟩
  · rw [Cache.stats, Cache.stats, h.hits]
  · rw [Cache.toNat_stats_misses fits, Cache.toNat_stats_misses (by omega), hmisses]

theorem Front.Ahead.traces {f g : Front} {v w : Usage} (h : f.Ahead g) (hv : v.Shows true f) (hw : w.Shows false g)
    (provider : Nat → List Question → Provider) (ops : List Operation) :
    ∃ flight plain, v.trace? provider ops = some flight ∧ w.trace? provider ops = some plain ∧
      List.Forall₂ Alike flight plain := by
  induction ops generalizing f g v w with
  | nil => exact ⟨[], [], rfl, rfl, .nil⟩
  | cons op ops ih =>
      obtain ⟨v', hperform, hv'⟩ := hv.perform? provider op
      obtain ⟨w', hperform', hw'⟩ := hw.perform? provider op
      obtain ⟨hreply, hnext⟩ := h.serve provider op
      obtain ⟨flight, plain, hflight, hplain, halike⟩ := ih hnext hv' hw'
      refine ⟨((g.serve 1 provider op).1, v') :: flight, ((g.serve 1 provider op).1, w') :: plain, ?_, ?_,
        .cons (hnext.alike hv' hw' _) halike⟩
      · change v.perform? provider op = some ((f.serve 2 provider op).1, v') at hperform
        simp only [Usage.trace?, hperform, hreply, Option.bind_eq_bind, Option.bind_some, hflight]
      · change w.perform? provider op = some ((g.serve 1 provider op).1, w') at hperform'
        simp only [Usage.trace?, hperform', Option.bind_eq_bind, Option.bind_some, hplain]

/-- In sequential use both ways of fetching come to the same. For any provider, whose answers may change with the
time and with what it was asked before, and for any row of operations on a new resolver and its cache, which may
hold anything: all of them can be carried out in single flight and without, and every one of them tells the same
in either way. After every one of them the provider has been asked the same, and the caches have the same entries
and have counted the same hits; in single flight the cache has counted one more miss for every question for
attributes. This is also what is read of the counts, as long as no more misses were counted than fit into a word. -/
theorem modes_agree (provider : Nat → List Question → Provider) (cache : Cache Snapshot) (ops : List Operation) :
    ∃ flight plain, (Usage.of true cache).trace? provider ops = some flight ∧
      (Usage.of false cache).trace? provider ops = some plain ∧ List.Forall₂ Alike flight plain := by
  have hstart : ∀ singleFlight, (Usage.of singleFlight cache).Shows singleFlight { cache } :=
    fun singleFlight => ⟨⟨rfl, rfl, fun d _ => rfl⟩, rfl, rfl⟩
  have hsame : Front.Ahead { cache } { cache } := ⟨rfl, rfl, rfl, rfl, rfl⟩
  exact hsame.traces (hstart true) (hstart false) provider ops

end ODataQuery.Resolver
