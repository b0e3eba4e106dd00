import Std.Data.ExtTreeMap
import ODataQuery.Attribute.Type

/-!
What is known of an entity's attributes: the definitions as the platform reports them, and the map from
names to types and lookup targets that queries use.
-/

namespace ODataQuery

/-- The type of an attribute, and the entities that a lookup may point to. -/
structure Attribute where
  type : AttributeType
  targets : Option (List String) := none
  deriving DecidableEq

/-- Attributes by their logical names. -/
abbrev AttributeMap := Std.ExtTreeMap String Attribute

/-- An attribute as the platform reports it. -/
structure AttributeDefinition where
  logicalName : String
  platformType : String
  targets : Option (List String) := none
  deriving DecidableEq

namespace AttributeDefinition

def type (d : AttributeDefinition) : AttributeType := .ofPlatformName d.platformType

/-- Only a lookup keeps its targets. -/
def toAttribute (d : AttributeDefinition) : Attribute :=
  ⟨d.type, if d.type = .lookup then d.targets else none⟩

end AttributeDefinition

/-- The attributes of a list of definitions, the last of each name. -/
def AttributeMap.ofDefinitions (ds : List AttributeDefinition) : AttributeMap :=
  ds.foldl (fun map d => map.insert d.logicalName d.toAttribute) ∅

end ODataQuery
