import ODataQuery.Catalog.Basic

/-!
Where an entity's names and attributes come from, and what can go wrong on the way.
-/

namespace ODataQuery

inductive ProviderError where
  /-- The data could not be read. -/
  | unreadable (why : String)
  /-- The data could not be decoded, for a reason that the decoder reports. -/
  | undecodable (why : String)
  /-- The service answered with an error. -/
  | remote (code message : String)
  /-- The service cannot be reached. -/
  | unavailable (message : String)
  deriving DecidableEq

def ProviderError.message : ProviderError → String
  | unreadable why => "failed to read metadata: " ++ why
  | undecodable why => "failed to decode metadata: " ++ why
  | remote code message => "metadata service error: " ++ message ++ " (code: " ++ code ++ ")"
  | unavailable message => "metadata provider unavailable: " ++ message

/-- The attributes of an entity, or the answer that the catalog has none under the name. -/
def Catalog.attributes (c : Catalog) (name : String) : Except ProviderError AttributeMap :=
  match c.attributes? name with
  | some map => .ok map
  | none => .error (.remote "NOT_FOUND" ("no attribute metadata for entity: " ++ name))

/-- Why a table could not be resolved. -/
inductive ResolveError where
  | notFound (input : String)
  | provider (e : ProviderError)
  deriving DecidableEq

namespace ResolveError

def message : ResolveError → String
  | notFound input => "entity not found: '" ++ input ++ "' (check the table name)"
  | provider e => e.message

def isNotFound : ResolveError → Bool
  | notFound _ => true
  | provider _ => false

/-- What a provider's answer to an identifier means to the one who asked. -/
def ofAnswer (input : String) : Except ProviderError (Option EntityNames) → Except ResolveError EntityNames
  | .ok (some names) => .ok names
  | .ok none => .error (.notFound input)
  | .error e => .error (.provider e)

end ResolveError

end ODataQuery
