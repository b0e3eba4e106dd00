import ODataQuery.Attribute.Map

/-!
Catalogs: the entities of a system with their names and attribute definitions. An entity goes by its own
name and by that of its set, and the case of ASCII letters does not matter in either.
-/

namespace ODataQuery

/-- The two names of an entity: that of its set, used in addresses, and its own. -/
structure EntityNames where
  set : String
  logical : String
  deriving DecidableEq

structure Entity where
  logicalName : String
  setName : String
  definitions : List AttributeDefinition := []
  deriving DecidableEq

namespace Entity

def names (e : Entity) : EntityNames := ⟨e.setName, e.logicalName⟩

def goesBy (e : Entity) (name : String) : Bool :=
  Text.sameFolded e.logicalName name || Text.sameFolded e.setName name

end Entity

structure Catalog where
  entities : List Entity := []
  deriving DecidableEq

namespace Catalog

/-- Adds an entity in place of all that have its own name. -/
def insert (c : Catalog) (e : Entity) : Catalog :=
  ⟨c.entities.filter (fun old => !Text.sameFolded old.logicalName e.logicalName) ++ [e]⟩

/-- The first entity that goes by an identifier. No entity goes by blanks. -/
def find? (c : Catalog) (identifier : String) : Option Entity :=
  let name := Text.trimmed identifier
  if name = "" then none else c.entities.find? (·.goesBy name)

/-- The names of the entity that goes by an identifier. -/
def resolve? (c : Catalog) (identifier : String) : Option EntityNames :=
  (c.find? identifier).map Entity.names

/-- The attributes of the first entity whose own name is the one given. -/
def attributes? (c : Catalog) (name : String) : Option AttributeMap :=
  (c.entities.find? fun e => Text.sameFolded e.logicalName (Text.trimmed name)).map
    fun e => .ofDefinitions e.definitions

end Catalog

end ODataQuery
