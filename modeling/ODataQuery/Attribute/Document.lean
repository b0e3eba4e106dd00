import ODataQuery.Attribute.Map
import ODataQuery.Json.Decoder

/-!
The JSON form of attributes, their definitions and maps.
-/

namespace ODataQuery

open Json (Decoder DecodeError RecordField)

namespace AttributeType

def toJson (t : AttributeType) : Json := .ofString t.name

def decode : Decoder AttributeType := Json.decodeName ofName?

end AttributeType

namespace Attribute

/-- Targets that are unknown are left out. -/
def toJson (a : Attribute) : Json :=
  .ofMembers (("type", a.type.toJson) :: (a.targets.map fun ts => ("targets", .ofStrings ts)).toList)

structure Parts where
  type : Option AttributeType := none
  targets : Option (Option (List String)) := none

def fields : List (RecordField Parts) :=
  [.of ["type"] AttributeType.decode (·.type) fun a s => { s with type := some a },
   .of ["targets"] (Json.decodeOption (Json.decodeList Json.decodeString)) (·.targets)
     fun a s => { s with targets := some a }]

def decode : Decoder Attribute := fun j => do
  let s ← Json.readFields fields {} j
  .ok ⟨← Json.required s.type, s.targets.join⟩

end Attribute

namespace AttributeDefinition

/-- Targets that are unknown are written as null. -/
def toJson (d : AttributeDefinition) : Json :=
  .ofMembers [("logical_name", .ofString d.logicalName), ("attribute_type", .ofString d.platformType),
    ("targets", d.targets.elim .null .ofStrings)]

structure Parts where
  logicalName : Option String := none
  platformType : Option String := none
  targets : Option (Option (List String)) := none

/-- The fields go by the platform's own keys too. -/
def fields : List (RecordField Parts) :=
  [.of ["logical_name", "LogicalName"] Json.decodeString (·.logicalName)
     fun a s => { s with logicalName := some a },
   .of ["attribute_type", "AttributeType"] Json.decodeString (·.platformType)
     fun a s => { s with platformType := some a },
   .of ["targets", "Targets"] (Json.decodeOption (Json.decodeList Json.decodeString)) (·.targets)
     fun a s => { s with targets := some a }]

def decode : Decoder AttributeDefinition := fun j => do
  let s ← Json.readFields fields {} j
  .ok ⟨← Json.required s.logicalName, ← Json.required s.platformType, s.targets.join⟩

end AttributeDefinition

namespace AttributeMap

/-- The attributes in the order of their names. -/
def toJson (map : AttributeMap) : Json :=
  .ofMembers (map.toList.map fun (name, a) => (name, a.toJson))

/-- Of attributes with one name the last counts. -/
def decode : Decoder AttributeMap
  | .object members => do
    let attributes ← Json.decodeMembers Attribute.decode members
    .ok (attributes.foldl (fun map (name, a) => map.insert name a) ∅)
  | _ => .error .malformed

end AttributeMap

end ODataQuery
