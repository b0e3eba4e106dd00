import Mathlib.Data.List.Induction
import ODataQuery.Resolver.Cache

/-!
A cache and what was asked of it. All that can be seen of a cache follows from the row of requests so far: a name has
the value that was set last, if since then it was neither deleted nor cleared away, and the two counts are of the
requests for a value that found one and that found none.
-/

namespace ODataQuery.Cache

/-- What is asked of a cache. Those that change nothing are of one kind. -/
inductive Request (α : Type) where
  | get (name : String)
  | contains (name : String)
  | set (name : String) (a : α)
  | delete (name : String)
  | clear
  | keys
  | size
  | isEmpty
  | stats

variable {α : Type}

/-- The cache behind a request. -/
def serve (c : Cache α) : Request α → Cache α
  | .get name => (c.get name).2
  | .set name a => c.set name a
  | .delete name => (c.delete name).2
  | .clear => c.clear
  | .contains _ | .keys | .size | .isEmpty | .stats => c

/-- The cache behind a row of requests to a new one. -/
def after (h : List (Request α)) : Cache α := h.foldl serve {}

/-- There was a request of the first kind, and none of the second kind since. -/
def Since (p q : Request α → Prop) (h : List (Request α)) : Prop :=
  ∃ before r later, h = before ++ r :: later ∧ p r ∧ ∀ r' ∈ later, ¬ q r'

/-- The name was set, and since then neither deleted nor cleared away. -/
def Present (h : List (Request α)) (name : String) : Prop :=
  Since (fun r => ∃ a, r = .set name a) (fun r => r = .delete name ∨ r = .clear) h

/-- The value was the last that was set under the name, and since then the name was neither deleted nor cleared away. -/
def Holds (h : List (Request α)) (name : String) (a : α) : Prop :=
  Since (· = .set name a) (fun r => r = .delete name ∨ r = .clear ∨ ∃ b, r = .set name b) h

/-- A request for the value under a name that was there. -/
def Found (before : List (Request α)) (r : Request α) : Prop := ∃ name, r = .get name ∧ Present before name

/-- A request for the value under a name that was not there. -/
def Missed (before : List (Request α)) (r : Request α) : Prop := ∃ name, r = .get name ∧ ¬ Present before name

/-- The number of requests of a kind, which may depend on the requests before. -/
def tally (kind : List (Request α) → Request α → Prop) [∀ before r, Decidable (kind before r)]
    (h : List (Request α)) : Nat :=
  (List.range h.length).countP fun i => ∃ r ∈ h[i]?, kind (h.take i) r

variable {h : List (Request α)} {r : Request α} {name : String} {a : α}

/-! ### One request more -/

theorem after_concat (h : List (Request α)) (r : Request α) : after (h ++ [r]) = (after h).serve r := by
  rw [after, List.foldl_append]
  rfl

theorem not_since_nil {p q : Request α → Prop} : ¬ Since p q [] := by
  rintro ⟨before, r, later, heq, -⟩
  exact List.append_ne_nil_of_right_ne_nil before (List.cons_ne_nil r later) heq.symm

theorem since_concat {p q : Request α → Prop} : Since p q (h ++ [r]) ↔ p r ∨ Since p q h ∧ ¬ q r := by
  constructor
  · rintro ⟨before, x, later, heq, hx, hlater⟩
    rcases List.eq_nil_or_concat later with rfl | ⟨later, y, rfl⟩
    · obtain ⟨-, hlast⟩ := List.append_inj' heq rfl
      obtain rfl := List.singleton_inj.mp hlast
      exact .inl hx
    · rw [List.concat_eq_append, ← List.cons_append, ← List.append_assoc] at heq
      obtain ⟨rfl, hlast⟩ := List.append_inj' heq rfl
      obtain rfl := List.singleton_inj.mp hlast
      rw [List.concat_eq_append] at hlater
      obtain ⟨hlater, hlast⟩ := List.forall_mem_append.mp hlater
      exact .inr ⟨⟨before, x, later, rfl, hx, hlater⟩, hlast _ (List.mem_singleton_self _)⟩
  · rintro (hr | ⟨⟨before, x, later, rfl, hx, hlater⟩, hr⟩)
    · exact ⟨h, r, [], rfl, hr, nofun⟩
    · refine ⟨before, x, later ++ [r], by simp, hx, ?_⟩
      exact List.forall_mem_append.mpr ⟨hlater, List.forall_mem_singleton.mpr hr⟩

theorem holds_concat : Holds (h ++ [r]) name a ↔
    r = .set name a ∨ Holds h name a ∧ ¬ (r = .delete name ∨ r = .clear ∨ ∃ b, r = .set name b) :=
  since_concat

theorem tally_concat (kind : List (Request α) → Request α → Prop) [∀ before r, Decidable (kind before r)] :
    tally kind (h ++ [r]) = tally kind h + if kind h r then 1 else 0 := by
  rw [tally, List.length_append, List.length_singleton, List.range_succ, List.countP_append, tally]
  congr 1
  · refine List.countP_congr fun i hi => ?_
    have hlt : i < h.length := List.mem_range.mp hi
    rw [List.getElem?_append_left hlt, List.take_append_of_le_length (Nat.le_of_lt hlt)]
  · simp

/-! ### Entries -/

theorem get_eq (c : Cache α) (name : String) : c.get name =
    (c.entries[name]?, { c with
      hits := c.hits + if c.contains name = true then 1 else 0
      misses := c.misses + if c.contains name = true then 0 else 1 }) := by
  rw [get, contains, Std.ExtTreeMap.contains_eq_isSome_getElem?]
  cases c.entries[name]? <;> rfl

theorem entries_serve (c : Cache α) (r : Request α) (name : String) :
    (c.serve r).entries[name]? = some a ↔
      r = .set name a ∨ c.entries[name]? = some a ∧ ¬ (r = .delete name ∨ r = .clear ∨ ∃ b, r = .set name b) := by
  cases r with
  | get n => simp [serve, get_eq]
  | set n b =>
      by_cases hn : n = name
      · subst hn
        simp [serve, set]
      · simp [serve, set, Std.ExtTreeMap.getElem?_insert, hn]
  | delete n =>
      by_cases hn : n = name
      · subst hn
        simp [serve, delete]
      · simp [serve, delete, Std.ExtTreeMap.getElem?_erase, hn]
  | clear => simp [serve, clear]
  | contains | keys | size | isEmpty | stats => simp [serve]

theorem holds_iff : (after h).entries[name]? = some a ↔ Holds h name a := by
  induction h using List.reverseRecOn with
  | nil =>
      rw [after, List.foldl_nil, Std.ExtTreeMap.getElem?_empty]
      exact ⟨nofun, fun holds => absurd holds not_since_nil⟩
  | append_singleton h r ih =>
      rw [after_concat, entries_serve, ih, holds_concat]

theorem present_iff : (∃ a, Holds h name a) ↔ Present h name := by
  induction h using List.reverseRecOn with
  | nil =>
      constructor
      · rintro ⟨a, holds⟩
        exact absurd holds not_since_nil
      · exact fun present => absurd present not_since_nil
  | append_singleton h r ih =>
      rw [Present, since_concat, ← Present, ← ih]
      simp only [holds_concat]
      -- Another value under the name ends what `Holds` says of the old one, but the name stays present.
      by_cases hset : ∃ b, r = .set name b
      · obtain ⟨b, hb⟩ := hset
        exact ⟨fun _ => .inl ⟨b, hb⟩, fun _ => ⟨b, .inl hb⟩⟩
      · simp only [hset, or_false, false_or, exists_and_right, exists_or]

theorem contains_iff : (after h).contains name = true ↔ Present h name := by
  rw [contains, Std.ExtTreeMap.contains_iff_mem, Std.ExtTreeMap.mem_iff_isSome_getElem?, Option.isSome_iff_exists,
    ← present_iff]
  exact exists_congr fun a => holds_iff

/-! ### Keys -/

theorem sorted_mergeSort (names : List String) : names.mergeSort.Pairwise (· ≤ ·) := by
  refine (List.pairwise_mergeSort ?_ ?_ names).imp of_decide_eq_true
  · intro a b c hab hbc
    exact decide_eq_true (String.le_trans (of_decide_eq_true hab) (of_decide_eq_true hbc))
  · intro a b
    rw [← Bool.decide_or]
    exact decide_eq_true (String.le_total a b)

theorem mem_keys {c : Cache α} : name ∈ c.keys ↔ c.contains name = true := by
  rw [keys, List.mem_mergeSort, Std.ExtTreeMap.map_fst_toList_eq_keys, Std.ExtTreeMap.mem_keys, contains,
    Std.ExtTreeMap.contains_iff_mem]

theorem nodup_keys (c : Cache α) : c.keys.Nodup := by
  rw [keys, (List.mergeSort_perm _ _).nodup_iff, Std.ExtTreeMap.map_fst_toList_eq_keys]
  exact Std.ExtTreeMap.nodup_keys

theorem keys_increasing (c : Cache α) : c.keys.Pairwise (· < ·) := by
  refine ((sorted_mergeSort _).and (nodup_keys c)).imp ?_
  rintro a b ⟨hle, hne⟩
  exact String.not_le.mp fun hge => hne (String.le_antisymm hle hge)

/-- It does not matter in which order the names are collected. -/
theorem keys_eq_mergeSort {c : Cache α} {names : List String} (nodup : names.Nodup)
    (collected : ∀ name, name ∈ names ↔ c.contains name = true) : c.keys = names.mergeSort := by
  have hperm : c.keys.Perm names.mergeSort := by
    refine List.Perm.trans ?_ (List.mergeSort_perm names _).symm
    rw [List.perm_ext_iff_of_nodup (nodup_keys c) nodup]
    exact fun name => mem_keys.trans (collected name).symm
  exact hperm.eq_of_pairwise (fun _ _ _ _ => String.le_antisymm) (sorted_mergeSort _) (sorted_mergeSort names)

theorem length_keys (c : Cache α) : c.keys.length = c.size := by
  rw [keys, List.length_mergeSort, List.length_map, Std.ExtTreeMap.length_toList, size]

theorem isEmpty_iff {c : Cache α} : c.isEmpty = true ↔ c.keys = [] := by
  rw [isEmpty, Std.ExtTreeMap.isEmpty_eq_size_beq_zero, beq_iff_eq, ← List.length_eq_zero_iff, length_keys, size]

/-! ### Counts -/

theorem counts_after [∀ before r, Decidable (Found (α := α) before r)]
    [∀ before r, Decidable (Missed (α := α) before r)] :
    (after h).hits = tally Found h ∧ (after h).misses = tally Missed h := by
  induction h using List.reverseRecOn with
  | nil => exact ⟨rfl, rfl⟩
  | append_singleton h r ih =>
      rw [after_concat, tally_concat, tally_concat, ← ih.1, ← ih.2]
      cases r with
      | get name =>
          have hfound : Found h (.get name) ↔ (after h).contains name = true := by simp [Found, contains_iff]
          have hmissed : Missed h (.get name) ↔ ¬ (after h).contains name = true := by simp [Missed, contains_iff]
          simp only [serve, get_eq, hfound, hmissed, ite_not, and_self]
      | set | delete | clear | contains | keys | size | isEmpty | stats =>
          simp [serve, set, delete, clear, Found, Missed]

/-- What is read of the hits are the hits, if they fit into a word. -/
theorem toNat_stats_hits {c : Cache α} (fits : c.hits < UInt64.size) : c.stats.hits.toNat = c.hits :=
  UInt64.toNat_ofNat_of_lt' fits

theorem toNat_stats_misses {c : Cache α} (fits : c.misses < UInt64.size) : c.stats.misses.toNat = c.misses :=
  UInt64.toNat_ofNat_of_lt' fits

open Classical in
/-- A cache shows nothing but what was asked of it. Behind any row of requests to a new cache a name has the value that
was the last to be set, if since then neither the name was deleted nor all of the cache was cleared. The names with a
value are the keys, in increasing order and each of them once, however they are collected, and the size is their number.
The two counts are of the requests for a value that found one and that found none. What is read of them are their words,
which are the counts themselves as long as these stay below `2 ^ 64`. -/
theorem determined_by_history (h : List (Request α)) :
    (∀ name a, ((after h).get name).1 = some a ↔ Holds h name a) ∧
    (∀ name, (((after h).get name).1.isSome = true ↔ Present h name) ∧
      ((after h).contains name = true ↔ Present h name) ∧ (((after h).delete name).1 = true ↔ Present h name)) ∧
    (after h).keys.Pairwise (· < ·) ∧ (∀ name, name ∈ (after h).keys ↔ Present h name) ∧
    (∀ names : List String, names.Nodup → (∀ name, name ∈ names ↔ Present h name) →
      (after h).keys = names.mergeSort) ∧
    (after h).size = (after h).keys.length ∧ ((after h).isEmpty = true ↔ (after h).keys = []) ∧
    (after h).hits = tally Found h ∧ (after h).misses = tally Missed h ∧
    (after h).stats = ⟨(after h).keys.length, .ofNat (tally Found h), .ofNat (tally Missed h)⟩ ∧
    (tally Found h < UInt64.size → (after h).stats.hits.toNat = tally Found h) ∧
    (tally Missed h < UInt64.size → (after h).stats.misses.toNat = tally Missed h) := by
  obtain ⟨hhits, hmisses⟩ : (after h).hits = tally Found h ∧ (after h).misses = tally Missed h := counts_after
  refine ⟨fun name a => ?_, fun name => ⟨?_, contains_iff, contains_iff⟩, keys_increasing _, fun name => ?_,
    fun names nodup collected => ?_, (length_keys _).symm, isEmpty_iff, hhits, hmisses, ?_, ?_, ?_⟩
  · rw [get_eq]
    exact holds_iff
  · rw [get_eq, ← Std.ExtTreeMap.contains_eq_isSome_getElem?]
    exact contains_iff
  · rw [mem_keys, contains_iff]
  · exact keys_eq_mergeSort nodup fun name => (collected name).trans contains_iff.symm
  · rw [stats, hhits, hmisses, length_keys]
  · rw [← hhits]
    exact toNat_stats_hits
  · rw [← hmisses]
    exact toNat_stats_misses

/-- A name is not folded, a deleted one is gone, and clearing leaves the counts. -/
example :
    let h : List (Request Nat) := [.set "b" 1, .set "B" 2, .set "a" 3, .get "b", .set "b" 4, .delete "a", .get "a"]
    (after h).size = 2 ∧ ((after h).get "b").1 = some 4 ∧ ((after h).get "B").1 = some 2 ∧
      (after (h ++ [.clear])).stats = ⟨0, 1, 1⟩ := by
  decide +kernel

end ODataQuery.Cache
