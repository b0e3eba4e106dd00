import ODataQuery.Number.Decimal

/-!
The shortest decimal that reads back. A finite magnitude is a whole number of units of `10 ^ -1074`, so
that the decimals of each length around it lie on a grid of whole numbers. The grids are tried from the
coarsest to the finest; on the first that has a neighbour of the magnitude which reads back, the nearer
of its two neighbours is taken, and of two equally near ones the greater.
-/

namespace ODataQuery.Shortest

/-- The exact value of a finite magnitude, in units of `10 ^ -1074`. -/
def exact (m : Magnitude) : Nat := m.units * Nat.pow 5 1074

/-- `n` points of the grid with spacing `10 ^ place` read back as `m`. -/
def readsBack (m : Magnitude) (n place : Nat) : Bool :=
  Decimal.nearest n ((place : Int) - 1074) == m

/-- The neighbour of `value` on the grid of `place` that reads back as `m`, if there is one: as a number
of points, the nearer if both do. -/
def neighbour? (m : Magnitude) (value place : Nat) : Option Nat :=
  let below := value / Nat.pow 10 place
  match readsBack m below place, readsBack m (below + 1) place with
  | true, true =>
    some (if 2 * (value % Nat.pow 10 place) < Nat.pow 10 place then below else below + 1)
  | true, false => some below
  | false, true => some (below + 1)
  | false, false => none

/-- The first neighbour that reads back on the grids from `place` down, and its grid. The finest grid
holds the value itself. -/
def search (m : Magnitude) (value : Nat) : Nat → Nat × Nat
  | 0 => (value, 0)
  | place + 1 =>
    match neighbour? m value place with
    | some n => (n, place)
    | none => search m value place

/-- A number without its last `zeros` zeros, at most, and how many were taken. -/
def strip : Nat → Nat → Nat × Nat
  | 0, n => (n, 0)
  | zeros + 1, n =>
    if n % 10 = 0 then ((strip zeros (n / 10)).1, (strip zeros (n / 10)).2 + 1) else (n, 0)

/-- The digits of the shortest decimal for a finite magnitude above zero, as a number, and the power of
ten that they count. -/
def decimal (m : Magnitude) : Nat × Int :=
  let value := exact m
  let found := search m value (Decimal.width value)
  let stripped := strip (Decimal.width found.1) found.1
  (stripped.1, (found.2 + stripped.2 : Int) - 1074)

end ODataQuery.Shortest
