import ODataQuery.Attribute.Document
import ODataQuery.Catalog.Basic

/-!
The JSON form of catalogs, and the two JSON forms of an entity's names.
-/

namespace ODataQuery

open Json (Decoder DecodeError RecordField)

namespace EntityNames

structure Parts where
  set : Option String := none
  logical : Option String := none

def ofParts (s : Parts) : Except DecodeError EntityNames := do
  .ok ⟨← Json.required s.set, ← Json.required s.logical⟩

def fieldsKeyed (setKeys logicalKeys : List String) : List (RecordField Parts) :=
  [.of setKeys Json.decodeString (·.set) fun a s => { s with set := some a },
   .of logicalKeys Json.decodeString (·.logical) fun a s => { s with logical := some a }]

/-- The names as the platform describes an entity. -/
def toDescriptor (n : EntityNames) : Json :=
  .ofMembers [("EntitySetName", .ofString n.set), ("LogicalName", .ofString n.logical)]

def decodeDescriptor : Decoder EntityNames := fun j =>
  Json.readFields (fieldsKeyed ["EntitySetName", "entity_set_name"] ["LogicalName", "logical_name"]) {} j
    >>= ofParts

/-- The names as a reference to an entity. -/
def toReference (n : EntityNames) : Json :=
  .ofMembers [("entity_set", .ofString n.set), ("logical_name", .ofString n.logical)]

def decodeReference : Decoder EntityNames := fun j =>
  Json.readFields (fieldsKeyed ["entity_set"] ["logical_name"]) {} j >>= ofParts

end EntityNames

namespace Entity

def toJson (e : Entity) : Json :=
  .ofMembers [("logical_name", .ofString e.logicalName), ("entity_set_name", .ofString e.setName),
    ("attributes", .array (e.definitions.map AttributeDefinition.toJson))]

structure Parts where
  logicalName : Option String := none
  setName : Option String := none
  definitions : Option (List AttributeDefinition) := none

def fields : List (RecordField Parts) :=
  [.of ["logical_name"] Json.decodeString (·.logicalName) fun a s => { s with logicalName := some a },
   .of ["entity_set_name"] Json.decodeString (·.setName) fun a s => { s with setName := some a },
   .of ["attributes"] (Json.decodeList AttributeDefinition.decode) (·.definitions)
     fun a s => { s with definitions := some a }]

def decode : Decoder Entity := fun j => do
  let s ← Json.readFields fields {} j
  .ok ⟨← Json.required s.logicalName, ← Json.required s.setName, s.definitions.getD []⟩

end Entity

namespace Catalog

structure Parts where
  entities : Option (List Entity) := none

def fields : List (RecordField Parts) :=
  [.of ["entities"] (Json.decodeList Entity.decode) (·.entities) fun a s => { s with entities := some a }]

def decode : Decoder Catalog := fun j => do
  let s ← Json.readFields fields {} j
  .ok ⟨s.entities.getD []⟩

end Catalog

end ODataQuery
