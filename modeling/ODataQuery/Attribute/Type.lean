import ODataQuery.Text.Folded

/-!
The types of attributes as far as queries tell them apart, and the platform's many type names, each of
which stands for one of them.
-/

namespace ODataQuery

inductive AttributeType where
  | string | number | boolean | date | optionset | lookup | unknown
  deriving DecidableEq

namespace AttributeType

def all : List AttributeType := [string, number, boolean, date, optionset, lookup, unknown]

def name : AttributeType → String
  | string => "string"
  | number => "number"
  | boolean => "boolean"
  | date => "date"
  | optionset => "optionset"
  | lookup => "lookup"
  | unknown => "unknown"

/-- The type with a name. -/
def ofName? (s : String) : Option AttributeType := all.find? (·.name == s)

/-- The text without the ending `type`, if it has it. -/
def dropTypeEnding (cs : List Char) : List Char :=
  if "type".toList.isSuffixOf cs then cs.take (cs.length - 4) else cs

/-- The platform's names for a type, all other names apart. -/
def platformNames : List (String × AttributeType) :=
  [("string", string), ("memo", string), ("entityname", string),
   ("integer", number), ("bigint", number), ("decimal", number), ("double", number),
   ("money", number),
   ("boolean", boolean),
   ("datetime", date),
   ("picklist", optionset), ("state", optionset), ("status", optionset),
   ("multiselectpicklist", optionset),
   ("lookup", lookup), ("customer", lookup), ("owner", lookup)]

/-- The type that a platform name stands for. Blanks around it, the case of its letters and one ending
`Type` do not matter. -/
def ofPlatformName (raw : String) : AttributeType :=
  let name := String.ofList (dropTypeEnding (Text.fold (Text.trimmed raw)).toList)
  (platformNames.lookup name).getD unknown

end AttributeType

end ODataQuery
