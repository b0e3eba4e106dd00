/-!
TOML documents as values, and the rules by which their lines build one table. A table can be made in four
ways: by its own header, by the header of a table inside it, by a dotted key, or as an inline value. The
way it was made decides what later lines may add to it. Numbers of any size can be written, and the base
of one without its digits; whether a number can be used is asked only of those that somebody looks at.
-/

namespace ODataQuery

inductive Toml where
  | string (s : String)
  /-- A whole number, if there are digits behind its base. -/
  | integer (n : Option Int)
  /-- A number with a fraction or an exponent, and whether it lies within the doubles. -/
  | float (inRange : Bool)
  | boolean (b : Bool)
  | moment
  | array (items : List Toml)
  | table (entries : List (String × Toml))

namespace Toml

/-- A reader of documents: the value that a text describes, if it is a document, and what is reported about a text
that does not hold what is asked for. -/
structure Reader where
  value? : String → Option Toml
  reason : String → String

/-- Fits into 128 bits, with or without sign. -/
def fits (n : Int) : Bool :=
  if n < 0 then 2 * n.natAbs ≤ Nat.pow 2 128 else n.natAbs < Nat.pow 2 128

mutual

/-- All numbers in the value have digits, and none is too large. -/
def isUsable : Toml → Bool
  | integer n => n.any fits
  | float inRange => inRange
  | array items => areUsable items
  | table entries => entriesUsable entries
  | _ => true

def areUsable : List Toml → Bool
  | [] => true
  | v :: vs => v.isUsable && areUsable vs

def entriesUsable : List (String × Toml) → Bool
  | [] => true
  | (_, v) :: rest => v.isUsable && entriesUsable rest

end

/-- How a table that is not closed was made. -/
inductive Origin where
  /-- By the header of a table inside it. -/
  | implied
  /-- By its own header. -/
  | header
  /-- By a dotted key. -/
  | dotted
  deriving DecidableEq

/-- What stands under a key while a document is read. Of several tables under one header the last is
first. -/
inductive Node where
  | value (v : Toml)
  | table (origin : Origin) (entries : List (String × Node))
  | tables (entries : List (List (String × Node)))

abbrev Entries := List (String × Node)

namespace Entries

/-- Changes what stands under a key, or puts something there, as `f` says. -/
def change? (f : Option Node → Option Node) (key : String) : Entries → Option Entries
  | [] => (f none).map fun n => [(key, n)]
  | (k, old) :: rest =>
    if k = key then (f (some old)).map fun n => (k, n) :: rest
    else (change? f key rest).map ((k, old) :: ·)

/-- Goes one key down on the way to a table, which makes a table there if nothing stands there yet. -/
def enter? (f : Entries → Option Entries) : Option Node → Option Node
  | none => (f []).map (.table .implied)
  | some (.table origin entries) => (f entries).map (.table origin)
  | some (.tables (last :: earlier)) => (f last).map fun last => .tables (last :: earlier)
  | some _ => none

/-- The header of a table. It may name a table that was only implied so far. -/
def define? : List String → Entries → Option Entries
  | [], _ => none
  | [key], es =>
    change? (fun
      | none => some (.table .header [])
      | some (.table .implied entries) => some (.table .header entries)
      | some _ => none) key es
  | key :: path, es => change? (enter? (define? path)) key es

/-- The header of one more table under the same name. -/
def extend? : List String → Entries → Option Entries
  | [], _ => none
  | [key], es =>
    change? (fun
      | none => some (.tables [[]])
      | some (.tables ts) => some (.tables ([] :: ts))
      | some _ => none) key es
  | key :: path, es => change? (enter? (extend? path)) key es

/-- A value under a dotted key. Nothing may stand there yet. The table that gets the value must be one
that a dotted key made; on the way there may also be implied tables, and tables under one header, of
which the last is meant. -/
def assign? (v : Toml) : List String → Entries → Option Entries
  | [], _ => none
  | [key], es => change? (fun old => if old.isSome then none else some (.value v)) key es
  | key :: path, es =>
    change? (fun
      | none => (assign? v path []).map (.table .dotted)
      | some (.table .dotted entries) => (assign? v path entries).map (.table .dotted)
      | some (.table .implied entries) =>
        if path.length = 1 then none else (assign? v path entries).map (.table .implied)
      | some (.tables (last :: earlier)) =>
        if path.length = 1 then none else (assign? v path last).map fun last => .tables (last :: earlier)
      | some _ => none) key es

/-- A value under a dotted key within the table of a header. -/
def assignIn? (v : Toml) (key : List String) : List String → Entries → Option Entries
  | [], es => assign? v key es
  | k :: path, es => change? (enter? (assignIn? v key path)) k es

end Entries

mutual

/-- The value of what was built. -/
def Node.close : Node → Toml
  | .value v => v
  | .table _ entries => .table (closeEntries entries)
  | .tables ts => .array (closeTables ts).reverse

def closeEntries : List (String × Node) → List (String × Toml)
  | [] => []
  | (key, n) :: rest => (key, n.close) :: closeEntries rest

def closeTables : List (List (String × Node)) → List Toml
  | [] => []
  | t :: ts => .table (closeEntries t) :: closeTables ts

end

end Toml

end ODataQuery
