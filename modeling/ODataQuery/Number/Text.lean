import ODataQuery.Number.Shortest
import ODataQuery.Text.Blank

/-!
Numbers as the query text writes them, and the numbers that typed values stand for.
-/

namespace ODataQuery

namespace Number

/-- `0.` or a point among the digits, or zeros behind them: the point stands `lead` digits after the
start. -/
def positional (ds : List Char) (lead : Int) : List Char :=
  if lead ≤ 0 then '0' :: '.' :: List.replicate (-lead).toNat '0' ++ ds
  else if ds.length ≤ lead then ds ++ List.replicate (lead.toNat - ds.length) '0'
  else ds.take lead.toNat ++ '.' :: ds.drop lead.toNat

/-- One digit, the others behind a point, and the power of ten with its sign. -/
def scientific (ds : List Char) (lead : Int) : List Char :=
  let power := lead - 1
  ds.take 1 ++ (if 1 < ds.length then '.' :: ds.drop 1 else []) ++
    'e' :: (if power < 0 then '-' else '+') :: Text.digits power.natAbs

/-- The magnitudes from here on are written with a power of ten. -/
def hugeFrom : Magnitude := Decimal.nearest 1 21

/-- The magnitudes below this one are written with a power of ten. -/
def tinyBelow : Magnitude := Decimal.nearest 1 (-6)

/-- The text of a magnitude. -/
def magnitudeText (m : Magnitude) : List Char :=
  if m.isInfinite then "Infinity".toList
  else if m.rank = 0 then ['0']
  else
    let (n, power) := Shortest.decimal m
    let ds := Text.digits n
    let lead := ds.length + power
    if hugeFrom.rank ≤ m.rank ∨ m.rank < tinyBelow.rank then scientific ds lead
    else positional ds lead

/-- The text of a number. Both zeros are written alike. -/
def text : Binary64 → List Char
  | .nan => "NaN".toList
  | .signed negative m => (if negative ∧ m.rank ≠ 0 then ['-'] else []) ++ magnitudeText m

/-- The number a typed value stands for: zero if it is blank, `nan` if it is no number. -/
def ofText (raw : String) : Binary64 :=
  let cs := Text.trim raw.toList
  if cs = [] then .zero
  else if cs = "Infinity".toList ∨ cs = "+Infinity".toList then .infinity false
  else if cs = "-Infinity".toList then .infinity true
  else
    match Decimal.read? cs with
    | some d => d.toBinary64
    | none => .nan

/-- The finite number that a text writes as a decimal numeral. -/
def finite? (text : List Char) : Option Binary64 :=
  (Decimal.read? text).map Decimal.toBinary64 |>.filter Binary64.isFinite

end Number

/-- The text of a number. -/
def Binary64.toText (x : Binary64) : String := String.ofList (Number.text x)

end ODataQuery
