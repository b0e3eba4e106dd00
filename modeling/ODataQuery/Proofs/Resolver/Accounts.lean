import Mathlib.Data.Finset.Card
import ODataQuery.Proofs.Resolver.History
import ODataQuery.Proofs.Resolver.OneInstance
import ODataQuery.Proofs.Resolver.Progress

/-!
What the counters of a cache say about the work behind it. Every call that has begun finds a map at one of its looks,
or it asks the provider once; until it has done either it is undecided. The accounts of a resolver set this down next
to the counters of its cache, and every step of the system makes one entry in them. The entries keep the accounts
balanced, and when all calls have ended nothing is undecided.
-/

namespace ODataQuery.Resolver

/-- A call may still find a map or ask the provider. -/
def Phase.undecided : Phase → Bool
  | missed | approaching _ | waiting _ | granted _ | asking _ => true
  | _ => false

/-- A call has looked for the last time, and asks the provider next. -/
def Phase.asks : Phase → Bool
  | asking _ => true
  | _ => false

/-- A call is on its way to the look under a lock. -/
def Phase.queues : Phase → Bool
  | missed | approaching _ | waiting _ | granted _ => true
  | _ => false

/-- What the calls of a resolver have done, and the counters of its cache. -/
structure Accounts where
  /-- Calls that have begun. -/
  begun : Nat
  /-- Those of them whose first look found nothing. -/
  missed : Nat
  /-- Questions to the provider. -/
  asked : Nat
  hits : Nat
  misses : Nat
  /-- Calls that may still find a map or ask the provider. -/
  undecided : Nat
  /-- Those of them that ask next. -/
  asking : Nat

namespace Accounts

/-- What a step may change in the accounts of a resolver that is in single flight or not. -/
inductive Entry (flight : Bool) (a : Accounts) : Accounts → Prop where
  | nothing : Entry flight a a
  | hit : Entry flight a { a with begun := a.begun + 1, hits := a.hits + 1 }
  | miss (single : flight = true) :
      Entry flight a { a with
        begun := a.begun + 1, missed := a.missed + 1, misses := a.misses + 1, undecided := a.undecided + 1 }
  | missPlain (plain : flight = false) :
      Entry flight a { a with
        begun := a.begun + 1, missed := a.missed + 1, misses := a.misses + 1
        undecided := a.undecided + 1, asking := a.asking + 1 }
  | found {n} (single : flight = true) (pending : a.undecided = n + 1) :
      Entry flight a { a with hits := a.hits + 1, undecided := n }
  | foundNone (single : flight = true) :
      Entry flight a { a with misses := a.misses + 1, asking := a.asking + 1 }
  | ask {n n'} (pending : a.undecided = n + 1) (next : a.asking = n' + 1) :
      Entry flight a { a with asked := a.asked + 1, undecided := n, asking := n' }

/-- The calls that have begun are those that found a map, that asked, and that are undecided. A call without single
flight looks once and asks if it found nothing. In single flight it looks again before it asks, and need not ask
after all. -/
structure Balanced (flight : Bool) (a : Accounts) : Prop where
  begun : a.hits + a.asked + a.undecided = a.begun
  plain : flight = false → a.misses = a.missed ∧ a.asked + a.undecided = a.missed
  single : flight = true → a.misses = a.asked + a.asking + a.missed ∧ a.asked + a.undecided ≤ a.missed

theorem Entry.balanced {flight : Bool} {a b : Accounts} (h : Entry flight a b) (ha : Balanced flight a) :
    Balanced flight b := by
  have hbegun := ha.begun
  cases h with
  | nothing => exact ha
  | hit =>
      refine ⟨?_, ha.plain, ha.single⟩
      dsimp only
      omega
  | miss single =>
      subst single
      have hsingle := ha.single rfl
      refine ⟨?_, nofun, fun _ => ?_⟩ <;> dsimp only <;> omega
  | missPlain plain =>
      subst plain
      have hplain := ha.plain rfl
      refine ⟨?_, fun _ => ?_, nofun⟩ <;> dsimp only <;> omega
  | found single pending | foundNone single =>
      subst single
      have hsingle := ha.single rfl
      refine ⟨?_, nofun, fun _ => ?_⟩ <;> dsimp only <;> omega
  | ask pending next =>
      refine ⟨?_, fun hplain => ?_, fun hsingle => ?_⟩
      · dsimp only
        omega
      · have hbefore := ha.plain hplain
        dsimp only
        omega
      · have hbefore := ha.single hsingle
        dsimp only
        omega

/-- What is balanced when nothing is undecided. -/
theorem Balanced.settled {flight : Bool} {a : Accounts} (ha : Balanced flight a) (decided : a.undecided = 0)
    (still : a.asking = 0) :
    a.hits + a.asked = a.begun ∧ (flight = false → a.misses = a.asked ∧ a.asked = a.missed) ∧
      (flight = true → a.misses = a.asked + a.missed ∧ a.asked ≤ a.missed) := by
  have hbegun := ha.begun
  refine ⟨by omega, fun plain => ?_, fun single => ?_⟩
  · have hplain := ha.plain plain
    omega
  · have hsingle := ha.single single
    omega

end Accounts

/-! ### The accounts of a row of steps -/

namespace State

/-- The number of steps of a row that are of a kind, which may depend on the state from which they are taken. -/
def count (kind : State → Move → Bool) : State → List Move → Nat
  | _, [] => 0
  | s, m :: ms => (kind s m).toNat + ((s.step? m).map fun t => t.count kind ms).getD 0

/-- A call of a resolver begins. -/
def begins (r : Nat) (_ : State) : Move → Bool
  | .start _ r' _ => r' == r
  | _ => false

/-- A call of a resolver begins, and finds nothing at its first look. -/
def beginsWithout (r : Nat) (s : State) : Move → Bool
  | .start _ r' name => r' == r && (s.cacheOf? r).any fun k => (s.cached? k name).isNone
  | _ => false

/-- A call of a resolver asks the provider for the attributes of its entity. -/
def asks (r : Nat) (s : State) : Move → Bool
  | .advance c => s.calls[c]?.any fun call => call.resolver == r && call.phase.asks
  | _ => false

/-- The calls of a resolver that have come to a phase of some kind. -/
def callers (s : State) (r : Nat) (kind : Phase → Bool) : Finset Nat :=
  s.calls.keys.toFinset.filter fun c => s.calls[c]?.any fun call => call.resolver == r && kind call.phase

/-- The hits and the misses that a cache has counted. -/
def counters (s : State) (k : Nat) : Nat × Nat := (s.caches[k]?.map fun cache => (cache.hits, cache.misses)).getD (0, 0)

/-- The accounts of a resolver and its cache behind a row of steps. -/
def accounts (s : State) (r k : Nat) (ms : List Move) (t : State) : Accounts where
  begun := s.count (begins r) ms
  missed := s.count (beginsWithout r) ms
  asked := s.count (asks r) ms
  hits := (t.counters k).1
  misses := (t.counters k).2
  undecided := (t.callers r Phase.undecided).card
  asking := (t.callers r Phase.asks).card

variable {s t u : State} {c k r r' : Nat} {name : String} {m : Move} {ms : List Move} {kind : Phase → Bool}
  {p q : Phase} {x : Resolver}

theorem count_concat {kind : State → Move → Bool} (run : s.run? ms = some t) :
    s.count kind (ms ++ [m]) = s.count kind ms + (kind t m).toNat := by
  induction ms generalizing s with
  | nil =>
      cases run
      rw [List.nil_append, count, count]
      cases t.step? m <;> simp [count]
  | cons m' ms ih =>
      obtain ⟨u, hu, hrun⟩ := run?_cons.mp run
      rw [List.cons_append, count, count, hu, Option.map_some, Option.map_some, Option.getD_some, Option.getD_some,
        ih hrun, Nat.add_assoc]

/-! ### Calls in a phase of some kind -/

theorem mem_callers : c ∈ s.callers r kind ↔ ∃ name, s.At kind r name c := by
  rw [callers, Finset.mem_filter, List.mem_toFinset, Std.ExtTreeMap.mem_keys, Option.any_eq_true]
  constructor
  · rintro ⟨-, ⟨_, name, phase⟩, hc, hkind⟩
    obtain ⟨hr, hkind'⟩ := Bool.and_eq_true_iff.mp hkind
    obtain rfl := eq_of_beq hr
    exact ⟨name, phase, hc, hkind'⟩
  · rintro ⟨name, phase, hc, hkind⟩
    refine ⟨Std.ExtTreeMap.mem_iff_isSome_getElem?.mpr (by rw [hc]; rfl), _, hc, ?_⟩
    rw [Bool.and_eq_true]
    exact ⟨beq_self_eq_true r, hkind⟩

theorem mem_callers_of_call (hc : s.calls[c]? = some ⟨r', name, p⟩) :
    c ∈ s.callers r kind ↔ r' = r ∧ kind p = true := by
  rw [mem_callers]
  constructor
  · rintro ⟨name', phase, hphase, hkind⟩
    cases hc.symm.trans hphase
    exact ⟨rfl, hkind⟩
  · rintro ⟨rfl, hkind⟩
    exact ⟨name, p, hc, hkind⟩

theorem not_mem_callers_of_fresh (fresh : s.calls[c]? = none) : c ∉ s.callers r kind := by
  rintro hmem
  obtain ⟨name, phase, hc, -⟩ := mem_callers.mp hmem
  cases fresh.symm.trans hc

theorem callers_put : (s.put c ⟨r', name, p⟩ q).callers r kind =
    if r' = r ∧ kind q = true then insert c (s.callers r kind) else (s.callers r kind).erase c := by
  ext d
  by_cases hd : d = c
  · subst hd
    rw [mem_callers_of_call (getElem?_put.trans (if_pos rfl))]
    split
    · rename_i h
      exact iff_of_true h (Finset.mem_insert_self d _)
    · rename_i h
      exact iff_of_false h (Finset.notMem_erase d _)
  · have hsame : d ∈ (s.put c ⟨r', name, p⟩ q).callers r kind ↔ d ∈ s.callers r kind := by
      simp only [mem_callers, At, getElem?_put, if_neg (Ne.symm hd)]
    rw [hsame]
    split
    · rw [Finset.mem_insert, or_iff_right hd]
    · rw [Finset.mem_erase, and_iff_right hd]

/-- A call that stays among the calls of a kind, or outside of them. -/
theorem callers_put_of_same (hc : s.calls[c]? = some ⟨r', name, p⟩) (h : kind q = kind p) :
    (s.put c ⟨r', name, p⟩ q).callers r kind = s.callers r kind := by
  rw [callers_put, h]
  split
  · rename_i hmem
    exact Finset.insert_eq_of_mem ((mem_callers_of_call hc).mpr hmem)
  · rename_i hmem
    exact Finset.erase_eq_of_notMem (mt (mem_callers_of_call hc).mp hmem)

/-- A call that is not among the calls of a kind, and does not come to be. -/
theorem callers_put_of_not_mem (hc : c ∉ s.callers r kind) (h : r' = r → kind q = false) :
    (s.put c ⟨r', name, p⟩ q).callers r kind = s.callers r kind := by
  rw [callers_put, if_neg fun hmem => by simp [h hmem.1] at hmem]
  exact Finset.erase_eq_of_notMem hc

theorem card_callers_enter (hc : c ∉ s.callers r kind) (hq : kind q = true) :
    ((s.put c ⟨r, name, p⟩ q).callers r kind).card = (s.callers r kind).card + 1 := by
  rw [callers_put, if_pos ⟨rfl, hq⟩]
  exact Finset.card_insert_of_notMem hc

theorem card_callers_exit (hc : s.calls[c]? = some ⟨r, name, p⟩) (hp : kind p = true) (hq : kind q = false) :
    (s.callers r kind).card = ((s.put c ⟨r, name, p⟩ q).callers r kind).card + 1 := by
  rw [callers_put, if_neg (by simp [hq])]
  exact (Finset.card_erase_add_one ((mem_callers_of_call hc).mpr ⟨rfl, hp⟩)).symm

/-- Whoever waits for a lock is as far as one who has just been handed it. -/
theorem callers_grant {l : Nat} {call : Call} (hc : s.calls[c]? = some call)
    (h : kind (.granted l) = kind call.phase) : (s.grant c l).callers r kind = s.callers r kind := by
  ext d
  by_cases hd : d = c
  · subst hd
    have hgranted : (s.grant d l).calls[d]? = some ⟨call.resolver, call.name, .granted l⟩ := by
      rw [getElem?_grant, if_pos rfl, hc, Option.map_some]
    rw [mem_callers_of_call hgranted, mem_callers_of_call hc, h]
  · simp only [mem_callers, At, getElem?_grant, if_neg (Ne.symm hd)]

/-! ### The counters of a cache -/

theorem counters_onCache {k' : Nat} {f : Cache Snapshot → Cache Snapshot}
    (keeps : ∀ cache, (f cache).hits = cache.hits ∧ (f cache).misses = cache.misses) :
    (s.onCache k' f).counters k = s.counters k := by
  simp only [counters, onCache, List.getElem?_modify, Option.map_eq_map, Option.map_map]
  congr 2
  funext cache
  by_cases hk : k' = k
  · simp [hk, keeps cache]
  · simp [hk]

theorem counters_look_of_ne {k' : Nat} (hne : k' ≠ k) : (s.look k' name).counters k = s.counters k := by
  simp only [counters, look, onCache, List.getElem?_modify, Option.map_eq_map, if_neg hne, Option.map_id']

theorem counters_look (hk : k < s.caches.length) : (s.look k name).counters k =
    if s.cached? k name = none then ((s.counters k).1, (s.counters k).2 + 1)
    else ((s.counters k).1 + 1, (s.counters k).2) := by
  have hcache := List.getElem?_eq_getElem hk
  simp only [counters, look, onCache, List.getElem?_modify, Option.map_eq_map, if_true, hcache, cached?,
    Option.map_some, Option.bind_some, Option.getD_some, Cache.get]
  cases s.caches[k].entries[name]? <;> rfl

/-! ### One step more -/

theorem accounts_concat {s₀ : State} (run : s₀.run? ms = some s) : s₀.accounts r k (ms ++ [m]) t =
    { begun := s₀.count (begins r) ms + (begins r s m).toNat
      missed := s₀.count (beginsWithout r) ms + (beginsWithout r s m).toNat
      asked := s₀.count (asks r) ms + (asks r s m).toNat
      hits := (t.counters k).1
      misses := (t.counters k).2
      undecided := (t.callers r Phase.undecided).card
      asking := (t.callers r Phase.asks).card } := by
  simp only [accounts, count_concat run]

theorem asks_advance (hc : s.calls[c]? = some ⟨r', name, p⟩) : asks r s (.advance c) = (r' == r && p.asks) := by
  simp only [asks, hc, Option.any_some]

theorem not_asks (hc : s.calls[c]? = some ⟨r', name, p⟩) (hp : p.asks = false) : asks r s (.advance c) = false := by
  rw [asks_advance hc, hp, Bool.and_false]

theorem callers_congr (h : t.calls = s.calls) : t.callers r kind = s.callers r kind := by
  rw [callers, callers, h]

/-- A step that changes neither the counters nor who is how far makes no entry. -/
theorem accounts_same {s₀ : State} (run : s₀.run? ms = some s) (begun : begins r s m = false)
    (without : beginsWithout r s m = false) (asked : asks r s m = false) (counters : t.counters k = s.counters k)
    (undecided : t.callers r Phase.undecided = s.callers r Phase.undecided)
    (asking : t.callers r Phase.asks = s.callers r Phase.asks) :
    s₀.accounts r k (ms ++ [m]) t = s₀.accounts r k ms s := by
  rw [accounts_concat run, begun, without, asked, counters, undecided, asking]
  rfl

/-- A call that goes on without looking or asking makes no entry. -/
theorem accounts_quiet {s₀ : State} (run : s₀.run? ms = some s) (begun : begins r s m = false)
    (without : beginsWithout r s m = false) (asked : asks r s m = false)
    (hc : s.calls[c]? = some ⟨r', name, p⟩) (calls : t.calls = (s.put c ⟨r', name, p⟩ q).calls)
    (counters : t.counters k = s.counters k) (undecided : q.undecided = p.undecided) (asking : q.asks = p.asks) :
    s₀.accounts r k (ms ++ [m]) t = s₀.accounts r k ms s :=
  accounts_same run begun without asked counters
    ((callers_congr calls).trans (callers_put_of_same hc undecided))
    ((callers_congr calls).trans (callers_put_of_same hc asking))

/-- A call of another resolver makes no entry. -/
theorem accounts_foreign {s₀ : State} (run : s₀.run? ms = some s) (begun : begins r s m = false)
    (without : beginsWithout r s m = false) (asked : asks r s m = false) (hne : r' ≠ r)
    (hc : ∀ call, s.calls[c]? = some call → call.resolver = r')
    (calls : t.calls = (s.put c ⟨r', name, p⟩ q).calls) (counters : t.counters k = s.counters k) :
    s₀.accounts r k (ms ++ [m]) t = s₀.accounts r k ms s := by
  have hnot : ∀ kind, c ∉ s.callers r kind := by
    intro kind hmem
    obtain ⟨name', phase, hcall, -⟩ := mem_callers.mp hmem
    exact hne (hc _ hcall).symm
  exact accounts_same run begun without asked counters
    ((callers_congr calls).trans (callers_put_of_not_mem (hnot _) fun hr => absurd hr hne))
    ((callers_congr calls).trans (callers_put_of_not_mem (hnot _) fun hr => absurd hr hne))

theorem accounts_start_of_ne {s₀ : State} (run : s₀.run? ms = some s) (hne : r' ≠ r) (fresh : s.calls[c]? = none)
    (calls : t.calls = (s.put c ⟨r', name, p⟩ q).calls) (counters : t.counters k = s.counters k) :
    s₀.accounts r k (ms ++ [.start c r' name]) t = s₀.accounts r k ms s := by
  have hbegun : begins r s (.start c r' name) = false := beq_eq_false_iff_ne.mpr hne
  have hwithout : beginsWithout r s (.start c r' name) = false := by
    rw [beginsWithout, beq_eq_false_iff_ne.mpr hne, Bool.false_and]
  refine accounts_foreign run hbegun hwithout rfl hne ?_ calls counters
  intro call hcall
  cases fresh.symm.trans hcall

theorem accounts_advance_of_ne {s₀ : State} (run : s₀.run? ms = some s) (hne : r' ≠ r)
    (hc : s.calls[c]? = some ⟨r', name, p⟩) (calls : t.calls = (s.put c ⟨r', name, p⟩ q).calls)
    (counters : t.counters k = s.counters k) : s₀.accounts r k (ms ++ [.advance c]) t = s₀.accounts r k ms s := by
  have hasked : asks r s (.advance c) = false := by
    rw [asks_advance hc, beq_eq_false_iff_ne.mpr hne, Bool.false_and]
  refine accounts_foreign run rfl rfl hasked hne ?_ calls counters
  intro call hcall
  cases hc.symm.trans hcall
  rfl

section Looks

variable {s₀ : State} {flight : Bool} (run : s₀.run? ms = some s) (hk : k < s.caches.length)
include run hk

theorem entry_hit {snapshot : Snapshot} (uses : s.cacheOf? r = some k) (fresh : s.calls[c]? = none)
    (found : s.cached? k name = some snapshot) :
    Accounts.Entry flight (s₀.accounts r k ms s) (s₀.accounts r k (ms ++ [.start c r name])
      ((s.look k name).put c ⟨r, name, .missed⟩ (.finished (.ok snapshot)))) := by
  have hbegun : begins r s (.start c r name) = true := beq_self_eq_true r
  have hwithout : beginsWithout r s (.start c r name) = false := by simp [beginsWithout, uses, found]
  have hcounters : ((s.look k name).put c ⟨r, name, .missed⟩ (.finished (.ok snapshot))).counters k =
      ((s.counters k).1 + 1, (s.counters k).2) :=
    (counters_look hk).trans (if_neg (found ▸ Option.some_ne_none snapshot))
  have hcallers : ∀ kind, kind (.finished (.ok snapshot)) = false →
      ((s.look k name).put c ⟨r, name, .missed⟩ (.finished (.ok snapshot))).callers r kind = s.callers r kind :=
    fun kind hkind => callers_put_of_not_mem (s := s.look k name) (not_mem_callers_of_fresh fresh) fun _ => hkind
  rw [accounts_concat run, hbegun, hwithout, hcounters, hcallers _ rfl, hcallers _ rfl]
  exact .hit

/-- The first look finds nothing. -/
theorem accounts_miss (uses : s.cacheOf? r = some k) (fresh : s.calls[c]? = none)
    (missing : s.cached? k name = none) (hq : q.undecided = true) :
    s₀.accounts r k (ms ++ [.start c r name]) ((s.look k name).put c ⟨r, name, .missed⟩ q) =
      { s₀.accounts r k ms s with
        begun := s₀.count (begins r) ms + 1
        missed := s₀.count (beginsWithout r) ms + 1
        misses := (s.counters k).2 + 1
        undecided := (s.callers r Phase.undecided).card + 1
        asking := (s.callers r Phase.asks).card + q.asks.toNat } := by
  have hbegun : begins r s (.start c r name) = true := beq_self_eq_true r
  have hwithout : beginsWithout r s (.start c r name) = true := by simp [beginsWithout, uses, missing]
  have hcounters : ((s.look k name).put c ⟨r, name, .missed⟩ q).counters k =
      ((s.counters k).1, (s.counters k).2 + 1) := (counters_look hk).trans (if_pos missing)
  have hnew : ∀ kind, c ∉ (s.look k name).callers r kind := fun kind => not_mem_callers_of_fresh fresh
  have hasking : (((s.look k name).put c ⟨r, name, .missed⟩ q).callers r Phase.asks).card =
      (s.callers r Phase.asks).card + q.asks.toNat := by
    cases hasks : q.asks with
    | true => exact card_callers_enter (hnew _) hasks
    | false => exact congrArg _ (callers_put_of_not_mem (hnew _) fun _ => hasks)
  rw [accounts_concat run, hbegun, hwithout, hcounters, hasking, card_callers_enter (hnew _) hq]
  rfl

theorem entry_found {l : Nat} {snapshot : Snapshot} (single : flight = true)
    (hc : s.calls[c]? = some ⟨r, name, .granted l⟩) (found : s.cached? k name = some snapshot) :
    Accounts.Entry flight (s₀.accounts r k ms s) (s₀.accounts r k (ms ++ [.advance c])
      ((s.look k name).put c ⟨r, name, .granted l⟩ (.releasing l (.ok snapshot)))) := by
  have hasked : asks r s (.advance c) = false := not_asks hc rfl
  have hcounters : ((s.look k name).put c ⟨r, name, .granted l⟩ (.releasing l (.ok snapshot))).counters k =
      ((s.counters k).1 + 1, (s.counters k).2) :=
    (counters_look hk).trans (if_neg (found ▸ Option.some_ne_none snapshot))
  have hasking : ((s.look k name).put c ⟨r, name, .granted l⟩ (.releasing l (.ok snapshot))).callers r Phase.asks =
      s.callers r Phase.asks := callers_put_of_same (s := s.look k name) hc rfl
  rw [accounts_concat run, hasked, hcounters, hasking]
  exact .found single (card_callers_exit (s := s.look k name) hc rfl rfl)

theorem entry_foundNone {l : Nat} (single : flight = true) (hc : s.calls[c]? = some ⟨r, name, .granted l⟩)
    (missing : s.cached? k name = none) :
    Accounts.Entry flight (s₀.accounts r k ms s) (s₀.accounts r k (ms ++ [.advance c])
      ((s.look k name).put c ⟨r, name, .granted l⟩ (.asking (some l)))) := by
  have hasked : asks r s (.advance c) = false := not_asks hc rfl
  have hcounters : ((s.look k name).put c ⟨r, name, .granted l⟩ (.asking (some l))).counters k =
      ((s.counters k).1, (s.counters k).2 + 1) := (counters_look hk).trans (if_pos missing)
  have hundecided : ((s.look k name).put c ⟨r, name, .granted l⟩ (.asking (some l))).callers r Phase.undecided =
      s.callers r Phase.undecided := callers_put_of_same (s := s.look k name) hc rfl
  have hnot : c ∉ (s.look k name).callers r Phase.asks := fun hmem => by
    cases ((mem_callers_of_call (s := s.look k name) hc).mp hmem).2
  rw [accounts_concat run, hasked, hcounters, hundecided, card_callers_enter hnot rfl]
  exact .foundNone single

omit hk in
theorem entry_ask {lock : Option Nat} (hc : s.calls[c]? = some ⟨r, name, .asking lock⟩) :
    Accounts.Entry flight (s₀.accounts r k ms s) (s₀.accounts r k (ms ++ [.advance c])
      (s.put c ⟨r, name, .asking lock⟩ (.fetching lock))) := by
  have hasked : asks r s (.advance c) = true := (asks_advance hc).trans (by simp [Phase.asks])
  rw [accounts_concat run, hasked]
  exact .ask (card_callers_exit hc rfl rfl) (card_callers_exit hc rfl rfl)

end Looks

/-- Only calls of resolvers in single flight queue for a lock. -/
def Queued (s : State) : Prop :=
  ∀ {r c : Nat} {x : Resolver}, s.resolvers[r]? = some x → c ∈ s.callers r Phase.queues → x.singleFlight = true

end State

open State in
theorem Step.queued {s t : State} {m : Move} (h : Step s m t) (hs : s.Queued) (sound : s.locking.Sound) :
    t.Queued := by
  intro r c y hy hmem
  obtain ⟨x, hx, hflight, -⟩ := h.resolver_before hy
  rw [← hflight]
  have hbefore : ∀ {name phase}, s.calls[c]? = some ⟨r, name, phase⟩ → phase.queues = true → x.singleFlight = true :=
    fun hc hphase => hs hx ((mem_callers_of_call hc).mpr ⟨rfl, hphase⟩)
  obtain ⟨name, phase, hc, hqueues⟩ := mem_callers.mp hmem
  rcases h.calls c with hsame | ⟨call, hcall, harrival⟩
  · exact hbefore (hsame.symm.trans hc) hqueues
  · cases hcall.symm.trans hc
    cases harrival with
    | miss fresh hx' missing flight =>
        cases hx.symm.trans hx'
        exact flight
    | approach hd | acquire hd | enqueue hd => exact hbefore hd rfl
    | handed hd first =>
        cases eq_waiting_of_first sound hd first
        exact hbefore hd rfl
    | @store c r name lock | @failed c r name lock => cases lock <;> cases hqueues
    | _ => cases hqueues

open State in
/-- What a step of the system enters in the accounts of a resolver with a cache of its own. -/
theorem Step.entry_accounts {s₀ s t : State} {m : Move} {ms : List Move} (h : Step s m t)
    (run : s₀.run? ms = some s) (coherent : Coherent s) (queued : s.Queued) {r : Nat} {x : Resolver}
    (hx : s.resolvers[r]? = some x) (alone : s.Alone r x.cache) (noGet : ∀ name, m ≠ .get x.cache name) :
    Accounts.Entry x.singleFlight (s₀.accounts r x.cache ms s) (s₀.accounts r x.cache (ms ++ [m]) t) := by
  have hk : x.cache < s.caches.length := coherent.caches hx
  have huses : s.cacheOf? r = some x.cache := cacheOf?_of_resolver hx
  have hnothing : ∀ {b}, b = s₀.accounts r x.cache ms s →
      Accounts.Entry x.singleFlight (s₀.accounts r x.cache ms s) b := by
    rintro b rfl
    exact .nothing
  -- Another resolver looks into another cache.
  have hother : ∀ {r' y name}, s.resolvers[r']? = some y → r' ≠ r →
      (s.look y.cache name).counters x.cache = s.counters x.cache := by
    intro r' y name hy hne
    refine counters_look_of_ne fun hk => hne (alone r' ?_)
    rw [← hk]
    exact cacheOf?_of_resolver hy
  have hsingle : ∀ {c : Nat} {name l}, s.calls[c]? = some ⟨r, name, .granted l⟩ → x.singleFlight = true := by
    intro c name l hc
    have hmem : c ∈ s.callers r Phase.queues := (mem_callers_of_call hc).mpr ⟨rfl, rfl⟩
    exact queued hx hmem
  cases h with
  | @hit c r' name y snapshot fresh hy found =>
      by_cases hr : r' = r
      · subst hr
        cases hx.symm.trans hy
        exact entry_hit run hk huses fresh found
      · exact hnothing (accounts_start_of_ne run hr fresh rfl (hother hy hr))
  | @miss c r' name y fresh hy missing flight =>
      by_cases hr : r' = r
      · subst hr
        cases hx.symm.trans hy
        rw [accounts_miss run hk huses fresh missing rfl]
        exact .miss flight
      · exact hnothing (accounts_start_of_ne run hr fresh rfl (hother hy hr))
  | @missPlain c r' name y fresh hy missing plain =>
      by_cases hr : r' = r
      · subst hr
        cases hx.symm.trans hy
        rw [accounts_miss run hk huses fresh missing rfl]
        exact .missPlain plain
      · exact hnothing (accounts_start_of_ne run hr fresh rfl (hother hy hr))
  | @found c r' name y l snapshot hc hy found =>
      by_cases hr : r' = r
      · subst hr
        cases hx.symm.trans hy
        exact entry_found run hk (hsingle hc) hc found
      · exact hnothing (accounts_advance_of_ne run hr hc rfl (hother hy hr))
  | @foundNone c r' name y l hc hy missing =>
      by_cases hr : r' = r
      · subst hr
        cases hx.symm.trans hy
        exact entry_foundNone run hk (hsingle hc) hc missing
      · exact hnothing (accounts_advance_of_ne run hr hc rfl (hother hy hr))
  | @ask c r' name y lock hc hy =>
      by_cases hr : r' = r
      · subst hr
        exact entry_ask run hc
      · exact hnothing (accounts_advance_of_ne run hr hc rfl rfl)
  | take hc | make hc | acquire hc | enqueue hc | free hc | leave hc | clearTable hc | keepTable hc =>
      exact hnothing (accounts_quiet run rfl rfl (not_asks hc rfl) hc rfl rfl rfl rfl)
  | @store c r' name y lock snapshot hc hy =>
      refine hnothing (accounts_quiet run rfl rfl (not_asks hc rfl) hc rfl
        (counters_onCache fun cache => ⟨rfl, rfl⟩) ?_ ?_)
      · cases lock <;> rfl
      · cases lock <;> rfl
  | @handOver c r' name y l result next rest hc hy waiters =>
      obtain ⟨r'', name', hnext⟩ := (awaits_iff coherent.orderly.sound).mpr (waiters ▸ List.mem_cons_self)
      have hne : c ≠ next := by
        rintro rfl
        cases hc.symm.trans hnext
      have hput : (s.put c ⟨r', name, .releasing l result⟩ (.leaving l result)).calls[next]? =
          some ⟨r'', name', .waiting l⟩ := by
        rw [getElem?_put, if_neg hne]
        exact hnext
      exact hnothing (accounts_same run rfl rfl (not_asks hc rfl) rfl
        ((callers_grant hput rfl).trans (callers_put_of_same hc rfl))
        ((callers_grant hput rfl).trans (callers_put_of_same hc rfl)))
  | @given c r' name lock map hc => exact hnothing (accounts_quiet run rfl rfl rfl hc rfl rfl rfl rfl)
  | @failed c r' name lock e hc =>
      refine hnothing (accounts_quiet run rfl rfl rfl hc rfl rfl ?_ ?_)
      · cases lock <;> rfl
      · cases lock <;> rfl
  | @get k' name =>
      have hne : k' ≠ x.cache := by
        rintro rfl
        exact noGet name rfl
      exact hnothing (accounts_same run rfl rfl rfl (counters_look_of_ne hne) rfl rfl)
  | invalidate | set | delete | clear =>
      exact hnothing (accounts_same run rfl rfl rfl (counters_onCache fun cache => ⟨rfl, rfl⟩) rfl rfl)
  | contains => exact hnothing (accounts_same run rfl rfl rfl rfl rfl rfl)

namespace State

variable {s t : State} {r : Nat} {x : Resolver} {ms : List Move}

theorem callers_eq_empty {kind : Phase → Bool} (h : ∀ c name, ¬ s.At kind r name c) : s.callers r kind = ∅ := by
  refine Finset.eq_empty_of_forall_notMem fun c hmem => ?_
  obtain ⟨name, hat⟩ := mem_callers.mp hmem
  exact h c name hat

theorem Initial.callers (initial : s.Initial) (kind : Phase → Bool) : s.callers r kind = ∅ := by
  refine callers_eq_empty fun c name hat => ?_
  obtain ⟨phase, hc, -⟩ := hat
  cases (initial.calls c).symm.trans hc

/-- The accounts of a new cache are empty. -/
theorem Initial.accounts_balanced (initial : s.Initial) {k : Nat} (new : s.caches[k]? = some {}) (flight : Bool) :
    (s.accounts r k [] s).Balanced flight := by
  have haccounts : s.accounts r k [] s = ⟨0, 0, 0, 0, 0, 0, 0⟩ := by
    simp only [accounts, count, counters, new, initial.callers, Finset.card_empty, Option.map_some, Option.getD_some]
  rw [haccounts]
  exact ⟨rfl, fun _ => ⟨rfl, rfl⟩, fun _ => ⟨rfl, Nat.le_refl 0⟩⟩

/-- Behind every row of steps the accounts of a resolver with a new cache of its own are balanced, if nobody asks the
cache directly. -/
theorem Initial.accounts_balanced_run (initial : s.Initial) (hx : s.resolvers[r]? = some x) (alone : s.Alone r x.cache)
    (new : s.caches[x.cache]? = some {}) (indirect : ∀ m ∈ ms, ∀ name, m ≠ .get x.cache name)
    (run : s.run? ms = some t) : (s.accounts r x.cache ms t).Balanced x.singleFlight := by
  have hqueued : s.Queued := fun {r c} y _ hmem => by
    rw [initial.callers] at hmem
    cases hmem
  have hhistory : t.Queued ∧ (s.accounts r x.cache ms t).Balanced x.singleFlight := by
    refine run?_history (P := fun ms t => t.Queued ∧ (s.accounts r x.cache ms t).Balanced x.singleFlight)
      ⟨hqueued, initial.accounts_balanced new _⟩ ?_ indirect run
    rintro ms t m u run ⟨hqueued, hbalanced⟩ hm step
    have hcoherent : Coherent t := initial.coherent_run run
    obtain ⟨y, hy, hflight, hcache⟩ := resolver_run hx run
    rw [← hflight, ← hcache] at hbalanced ⊢
    rw [← hcache] at hm alone
    refine ⟨(step?_cases step).queued hqueued hcoherent.orderly.sound, ?_⟩
    exact ((step?_cases step).entry_accounts run hcoherent hqueued hy (alone.of_setup (setup_run run)) hm).balanced
      hbalanced
  exact hhistory.2

/-- The counters of a cache account for the work behind it, however its calls, those of prefetches among them, came
between one another and whatever was invalidated, set, deleted and cleared, as long as nobody asked the cache directly.
When all calls of its only resolver have ended, its hits and the questions to the provider add up to the calls. Without
single flight every miss was a first look and led to a question. In single flight every question was led to by a miss
under the lock, and there were no more of these than first looks that found nothing. What is read of the counters are
the counters as long as they stay below `2 ^ 64`. -/
theorem counters_account (initial : s.Initial) (hx : s.resolvers[r]? = some x) (alone : s.Alone r x.cache)
    (new : s.caches[x.cache]? = some {}) (indirect : ∀ name, .get x.cache name ∉ ms) (run : s.run? ms = some t)
    (rest : ∀ (c : Nat) name phase, t.calls[c]? = some ⟨r, name, phase⟩ → ∃ result, phase = .finished result) :
    ∃ cache, t.caches[x.cache]? = some cache ∧
      (cache.hits < UInt64.size → cache.stats.hits.toNat = cache.hits) ∧
      (cache.misses < UInt64.size → cache.stats.misses.toNat = cache.misses) ∧
      cache.hits + s.count (asks r) ms = s.count (begins r) ms ∧
      (x.singleFlight = false →
        cache.misses = s.count (asks r) ms ∧ s.count (asks r) ms = s.count (beginsWithout r) ms) ∧
      (x.singleFlight = true →
        cache.misses = s.count (asks r) ms + s.count (beginsWithout r) ms ∧
          s.count (asks r) ms ≤ s.count (beginsWithout r) ms) := by
  have hbalanced : (s.accounts r x.cache ms t).Balanced x.singleFlight := by
    refine initial.accounts_balanced_run hx alone new ?_ run
    rintro m hm name rfl
    exact indirect name hm
  have hsettled : ∀ kind : Phase → Bool, (∀ result, kind (.finished result) = false) →
      (t.callers r kind).card = 0 := by
    intro kind hkind
    rw [callers_eq_empty, Finset.card_empty]
    rintro c name ⟨phase, hc, hphase⟩
    obtain ⟨result, rfl⟩ := rest c name phase hc
    rw [hkind] at hphase
    cases hphase
  have hbooks := hbalanced.settled (hsettled _ fun _ => rfl) (hsettled _ fun _ => rfl)
  have hlength : x.cache < t.caches.length := by
    obtain ⟨y, hy, -, hcache⟩ := resolver_run hx run
    exact hcache ▸ (initial.coherent_run run).caches hy
  have hcache := List.getElem?_eq_getElem hlength
  refine ⟨t.caches[x.cache], hcache, Cache.toNat_stats_hits, Cache.toNat_stats_misses, ?_⟩
  simpa only [accounts, counters, hcache, Option.map_some, Option.getD_some] using hbooks

/-- The provider fails for the first of two calls that wait for one another. A third one, which begins before the
second has stored its map, finds the map under the lock; a fourth finds at once what was set by hand. The calls of a
plain resolver with a cache of its own come between. -/
theorem counters_account_after_failure :
    let s : State := { caches := [{}, {}], resolvers := [{ cache := 0 }, { singleFlight := false, cache := 1 }] }
    let ms : List Move := [.start 0 0 "a", .start 1 0 "a", .start 4 1 "a", .advance 0, .advance 0, .advance 0,
      .advance 0, .advance 1, .advance 1, .advance 4, .answer 0 (.error (.unavailable "down")), .advance 0,
      .advance 1, .advance 1, .set 0 "b" ⟨9, ∅⟩, .start 2 0 "a", .start 3 0 "b", .advance 2, .advance 2, .advance 0,
      .advance 0, .answer 1 (.ok ∅), .answer 4 (.ok ∅), .advance 1, .advance 1, .advance 2, .get 1 "a", .advance 4,
      .advance 2, .advance 2, .advance 2, .invalidate 0 "a", .advance 1, .advance 1]
    s.count (begins 0) ms = 4 ∧ s.count (asks 0) ms = 2 ∧ s.count (beginsWithout 0) ms = 3 ∧
      ∃ t cache, s.run? ms = some t ∧ t.caches[0]? = some cache ∧ cache.stats.hits.toNat + 2 = 4 ∧
        cache.stats.misses.toNat = 2 + 3 := by
  intro s ms
  have initial : s.Initial := initial_of_new (by decide)
  have alone : s.Alone 0 0 := by
    intro r hr
    match r with
    | 0 => rfl
    | 1 | _ + 2 => cases hr
  have indirect : ∀ name, .get 0 name ∉ ms := by
    intro name hmem
    simp [ms] at hmem
  have hbegun : s.count (begins 0) ms = 4 := by decide +kernel
  have hasked : s.count (asks 0) ms = 2 := by decide +kernel
  have hwithout : s.count (beginsWithout 0) ms = 3 := by decide +kernel
  obtain ⟨t, run, hrest⟩ : ∃ t, s.run? ms = some t ∧
      ∀ c ∈ t.calls.keys, ∃ result, t.result? c = some result := by
    have h : (s.run? ms).any (fun t => t.calls.keys.all fun c => (t.result? c).isSome) = true := by decide +kernel
    simpa only [Option.any_eq_true, List.all_eq_true, Option.isSome_iff_exists] using h
  have rest : ∀ (c : Nat) name phase, t.calls[c]? = some ⟨0, name, phase⟩ → ∃ result, phase = .finished result := by
    intro c name phase hc
    have hmem : c ∈ t.calls.keys :=
      Std.ExtTreeMap.mem_keys.mpr (Std.ExtTreeMap.mem_iff_isSome_getElem?.mpr (by rw [hc]; rfl))
    obtain ⟨result, hresult⟩ := hrest c hmem
    obtain ⟨r, name', hfinished⟩ := result?_eq_some_iff.mp hresult
    cases hc.symm.trans hfinished
    exact ⟨result, rfl⟩
  obtain ⟨cache, hcache, hreadHits, hreadMisses, hfound, -, hflight⟩ :=
    counters_account initial (r := 0) rfl alone rfl indirect run rest
  have hmisses : cache.misses = 2 + 3 := hasked ▸ hwithout ▸ (hflight rfl).1
  have hhits : cache.hits = 2 := by omega
  refine ⟨hbegun, hasked, hwithout, t, cache, run, hcache, ?_, ?_⟩
  · rw [hreadHits (hhits ▸ by decide), hhits]
  · rw [hreadMisses (hmisses ▸ by decide), hmisses]

end State

end ODataQuery.Resolver
