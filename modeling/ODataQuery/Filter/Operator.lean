import ODataQuery.Text.Blank
import ODataQuery.Text.Join
import ODataQuery.Text.LowerCase

/-!
The operators of conditions. An operator is written in one way and read in many: blanks and the case of
letters do not matter.
-/

namespace ODataQuery

inductive Operator where
  | eq | ne | gt | ge | lt | le
  | contains | startsWith | endsWith | notContains
  | eqNull | neNull
  deriving DecidableEq

/-- The functions on strings that some operators stand for. -/
inductive StringFunction where
  | contains | startsWith | endsWith
  deriving DecidableEq

def StringFunction.text : StringFunction → String
  | contains => "contains"
  | startsWith => "startswith"
  | endsWith => "endswith"

namespace Operator

def all : List Operator :=
  [eq, ne, gt, ge, lt, le, contains, startsWith, endsWith, notContains, eqNull, neNull]

def text : Operator → String
  | eq => "eq"
  | ne => "ne"
  | gt => "gt"
  | ge => "ge"
  | lt => "lt"
  | le => "le"
  | contains => "contains"
  | startsWith => "startswith"
  | endsWith => "endswith"
  | notContains => "not contains"
  | eqNull => "eq null"
  | neNull => "ne null"

/-- Asks whether there is a value, and so takes none. -/
def isNullTest : Operator → Bool
  | eqNull | neNull => true
  | _ => false

/-- The function behind an operator on strings, and whether it is negated. -/
def stringFunction? : Operator → Option (StringFunction × Bool)
  | contains => some (.contains, false)
  | startsWith => some (.startsWith, false)
  | endsWith => some (.endsWith, false)
  | notContains => some (.contains, true)
  | _ => none

/-- The operator that a text names. -/
def ofText? (s : String) : Option Operator :=
  let plain := Text.lower (Text.join " " ((Text.words s.toList).map String.ofList))
  all.find? (·.text == plain)

/-- What is said of a text that names no operator. -/
def unknownMessage (s : String) : String := "unknown filter operator: '" ++ s ++ "'"

end Operator

/-- A text that names no operator. -/
structure UnknownOperator where
  text : String
  deriving DecidableEq

def UnknownOperator.message (e : UnknownOperator) : String := Operator.unknownMessage e.text

/-- The operator that a text names. A text that names none is given back. -/
def Operator.ofText (s : String) : Except UnknownOperator Operator := (ofText? s).elim (.error ⟨s⟩) .ok

end ODataQuery
