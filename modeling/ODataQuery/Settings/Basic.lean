import ODataQuery.Query.Compiled
import ODataQuery.Settings.Expansion
import ODataQuery.Toml.Basic

/-!
Settings, and the TOML document that holds them: three tables, each of which may be missing or incomplete,
and may be written as an array of its values. Keys that mean nothing here are passed over, as long as the
numbers under them can be used.
-/

namespace ODataQuery

structure Settings where
  singleFlight : Bool := true
  nanPolicy : NanPolicy := .emit
  catalogPath : Option String := none
  deriving DecidableEq

/-- Why there are no settings, or no use of them. -/
inductive SettingsError where
  | notFound (path : String)
  | unreadable (why : String)
  /-- The text holds no settings, for a reason that the reader of documents reports. -/
  | malformed (why : String)
  | unsetVariable (name : String)
  deriving DecidableEq

def SettingsError.message : SettingsError → String
  | notFound path => "Config file not found: " ++ path
  | unreadable why => "Failed to read config file: " ++ why
  | malformed why => "Failed to parse config file: " ++ why
  | unsetVariable name => "Missing environment variable: " ++ name

namespace Settings

/-- All numbers under other keys than those that mean something can be used. -/
def othersUsable (keys : List String) (entries : List (String × Toml)) : Bool :=
  entries.all fun (key, v) => keys.contains key || v.isUsable

/-- The value of a section's only key, in either of the forms of a section. An array may hold more values,
which are not looked at. A date counts as a table in which no key has a meaning. -/
def only? (key : String) : Toml → Option (Option Toml)
  | .table entries => if othersUsable [key] entries then some (entries.lookup key) else none
  | .array items => some items.head?
  | .moment => some none
  | _ => none

def boolean? : Toml → Option Bool
  | .boolean b => some b
  | _ => none

def string? : Toml → Option String
  | .string s => some s
  | _ => none

/-- A policy by its name, which may also be the only key of a table that holds an empty value. -/
def policy? : Toml → Option NanPolicy
  | .string s => NanPolicy.all.find? (·.name == s)
  | .table [(s, .table [])] | .table [(s, .array [])] => NanPolicy.all.find? (·.name == s)
  | _ => none

/-- What a section says under its only key: nothing if either is missing, and no answer at all if the
value there makes no sense. -/
def entry? (document : List (String × Toml)) (table key : String) (read? : Toml → Option α) :
    Option (Option α) :=
  match document.lookup table with
  | none => some none
  | some body =>
    match only? key body with
    | none => none
    | some none => some none
    | some (some v) => (read? v).map some

/-- The settings that a document holds. -/
def ofToml? : Toml → Option Settings
  | .table document => do
    if !othersUsable ["resolver", "compiler", "catalog"] document then none
    let singleFlight ← entry? document "resolver" "single_flight" boolean?
    let nanPolicy ← entry? document "compiler" "nan_literal" policy?
    let catalogPath ← entry? document "catalog" "path" string?
    some ⟨singleFlight.getD true, nanPolicy.getD .emit, catalogPath⟩
  | _ => none

def ofText (reader : Toml.Reader) (text : String) : Except SettingsError Settings :=
  match (reader.value? text).bind ofToml? with
  | some settings => .ok settings
  | none => .error (.malformed (reader.reason text))

/-- The path of the catalog with the values of variables in it, if there is one. -/
def expandedPath (s : Settings) (values : String → Option String) : Except SettingsError (Option String) :=
  match s.catalogPath with
  | none => .ok none
  | some path => (Expansion.expand values path).mapError .unsetVariable |>.map some

end Settings

end ODataQuery
