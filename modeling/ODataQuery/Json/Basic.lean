import ODataQuery.Text.Digits

/-!
JSON texts as trees. A tree keeps the order of the text and all that is written more than once, and it
ends in `broken` where the text stops making sense, so that what was written before that point is still
there to be judged first.
-/

namespace ODataQuery

inductive Json where
  | null
  | bool (b : Bool)
  /-- A number, as it is written. -/
  | number (written : String)
  /-- A string. It has no text if an escape in it leaves half of a surrogate pair. -/
  | string (text : Option String)
  | array (items : List Json)
  /-- The members in order. A key may have no text, as a string may. -/
  | object (members : List (Option String × Json))
  | broken

namespace Json

instance : Inhabited Json := ⟨null⟩

def ofString (s : String) : Json := string (some s)

def ofStrings (ss : List String) : Json := array (ss.map ofString)

def ofNat (n : Nat) : Json := number (Text.decimal n)

/-- An object with members of the given keys. -/
def ofMembers (members : List (String × Json)) : Json :=
  object (members.map fun (key, value) => (some key, value))

/-- The number that a row of digits writes. Signs, fractions and exponents make it none. -/
def natural? (written : String) : Option Nat :=
  let cs := written.toList
  if cs ≠ [] ∧ cs.all Char.isDigit then some (Text.ofDigits cs) else none

mutual

/-- The text made sense throughout. -/
def isWhole : Json → Bool
  | array items => areWhole items
  | object members => membersWhole members
  | broken => false
  | _ => true

def areWhole : List Json → Bool
  | [] => true
  | j :: js => j.isWhole && areWhole js

def membersWhole : List (Option String × Json) → Bool
  | [] => true
  | (_, j) :: rest => j.isWhole && membersWhole rest

end

end Json

end ODataQuery
