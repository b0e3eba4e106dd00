import ODataQuery.Attribute.Map
import ODataQuery.Number.Text
import ODataQuery.Time.Spelling

/-!
The type of an attribute in a condition: the known one, or else the one that the typed value suggests.
-/

namespace ODataQuery

def isHexDigit (c : Char) : Bool :=
  c.isDigit || ('a' ≤ c && c ≤ 'f') || ('A' ≤ c && c ≤ 'F')

/-- Groups of hexadecimal digits of the given lengths, with hyphens between them. -/
def isHyphenated : List Nat → List Char → Bool
  | [], cs => cs.isEmpty
  | [n], cs => cs.length == n && cs.all isHexDigit
  | n :: ns, cs =>
    (cs.take n).length == n && (cs.take n).all isHexDigit && (cs.drop n).head? == some '-' &&
      isHyphenated ns (cs.drop (n + 1))

/-- A unique identifier of 8, 4, 4, 4 and 12 hexadecimal digits. -/
def isGuid (value : String) : Bool := isHyphenated [8, 4, 4, 4, 12] value.toList

namespace AttributeType

/-- The type that a value suggests. Blanks around it do not matter, save for an identifier. -/
def infer (value : String) : AttributeType :=
  let inner := Text.trimmed value
  if Text.sameFolded inner "true" || Text.sameFolded inner "false" then boolean
  else if isGuid value then lookup
  else if (Number.finite? inner.toList).isSome then number
  else if (Instant.ofText? inner).isSome then date
  else string

end AttributeType

/-- The type of an attribute in a condition with the given value. -/
def AttributeMap.typeOf (known : Option AttributeMap) (name value : String) : AttributeType :=
  match known.bind (·[name]?) with
  | some a => a.type
  | none => .infer value

end ODataQuery
