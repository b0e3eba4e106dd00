import Std.Data.ExtTreeMap

/-!
A cache keeps one value per name, exactly as the name is given, until the entry is deleted. It counts how
often a name that was asked for was there and how often it was not.
-/

namespace ODataQuery

/-- How many values a cache has, and how often a name was there and was not. These two are counted in words, which
begin again at zero behind the largest. -/
structure CacheStats where
  entries : Nat
  hits : UInt64
  misses : UInt64
  deriving DecidableEq

structure Cache (α : Type) where
  entries : Std.ExtTreeMap String α := ∅
  /-- All hits and misses so far. Whoever asks for them is told their words. -/
  hits : Nat := 0
  misses : Nat := 0

namespace Cache

variable {α : Type}

/-- The value under a name, counted. -/
def get (c : Cache α) (name : String) : Option α × Cache α :=
  match c.entries[name]? with
  | some a => (some a, { c with hits := c.hits + 1 })
  | none => (none, { c with misses := c.misses + 1 })

/-- Whether there is a value under a name. This is not counted. -/
def contains (c : Cache α) (name : String) : Bool := c.entries.contains name

def set (c : Cache α) (name : String) (a : α) : Cache α :=
  { c with entries := c.entries.insert name a }

/-- Removes the value under a name. The first part of the result tells whether there was one. -/
def delete (c : Cache α) (name : String) : Bool × Cache α :=
  (c.contains name, { c with entries := c.entries.erase name })

/-- Removes all values. The counts stay. -/
def clear (c : Cache α) : Cache α := { c with entries := ∅ }

/-- The names with a value, collected and then sorted. -/
def keys (c : Cache α) : List String := (c.entries.toList.map Prod.fst).mergeSort

def size (c : Cache α) : Nat := c.entries.size

def isEmpty (c : Cache α) : Bool := c.entries.isEmpty

def stats (c : Cache α) : CacheStats := ⟨c.size, .ofNat c.hits, .ofNat c.misses⟩

end Cache

end ODataQuery
