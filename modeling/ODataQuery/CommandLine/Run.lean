import ODataQuery.Catalog.Document
import ODataQuery.Catalog.Provider
import ODataQuery.CommandLine.Arguments
import ODataQuery.CommandLine.Lookup
import ODataQuery.CommandLine.Readers
import ODataQuery.Json.Writer
import ODataQuery.Query.Document

/-!
Runs of the command line: the settings first, then the command. A run that fails writes one message and
nothing else.
-/

namespace ODataQuery.CommandLine

/-- What a run leaves behind. -/
structure Report where
  code : Nat
  output : String := ""
  errors : String := ""
  deriving DecidableEq

/-- Why a run fails. -/
inductive Failure where
  | settings (e : SettingsError)
  | noCatalog
  | catalog (path : String) (e : ProviderError)
  | queryFile (path why : String)
  | query (why : String)
  | table (e : ResolveError)
  deriving DecidableEq

def Failure.message : Failure → String
  | settings e => e.message
  | noCatalog => "no catalog given (use --catalog or [catalog] path in the config file)"
  | catalog path e => "loading catalog '" ++ path ++ "': " ++ e.message
  | queryFile path why => "reading '" ++ path ++ "': " ++ why
  | query why => "parsing query: " ++ why
  | table e => e.message

/-- The path of the catalog: the one on the command line, or else the one in the settings. -/
def catalogPath (s : Settings) : Option String → Consult (Except Failure String)
  | some path => return .ok path
  | none => do
    let names := s.catalogPath.elim [] Expansion.references
    let values ← Consult.valuesOf names
    return match s.expandedPath fun name => (values.lookup name).join with
      | .ok (some path) => .ok path
      | .ok none => .error .noCatalog
      | .error e => .error (.settings e)

/-- The catalog in what a path leads to. -/
def catalogOf (readers : Readers) (path : String) (state : FileState) : Except Failure Catalog :=
  match state.contents with
  | .error why => .error (.catalog path (.unreadable why))
  | .ok text =>
    (Json.decodeText Catalog.decode text).mapError fun e => .catalog path (.undecodable (readers.catalog text e))

def openCatalog (readers : Readers) (s : Settings) (named : Option String) : Consult (Except Failure Catalog) := do
  match ← catalogPath s named with
  | .error e => return .error e
  | .ok path => return catalogOf readers path (← Consult.fileAt path)

def namesIn (c : Catalog) (table : String) : Except Failure EntityNames :=
  (ResolveError.ofAnswer table (.ok (c.resolve? table))).mapError .table

/-- The attributes of the table that goes by an identifier. -/
def attributesIn (c : Catalog) (table : String) : Except Failure AttributeMap := do
  let names ← namesIn c table
  (c.attributes names.logical).mapError fun e => .table (.provider e)

/-- The query in what a path leads to. -/
def queryOf (readers : Readers) (path : String) (state : FileState) : Except Failure Query :=
  match state.contents with
  | .error why => .error (.queryFile path why)
  | .ok text => (Json.decodeText Query.decode text).mapError fun e => .query (readers.query text e)

def line (s : String) : String := s ++ "\n"

def namesText (names : EntityNames) : String :=
  line ("logical name: " ++ names.logical) ++ line ("entity set:   " ++ names.set)

def droppedText (d : Dropped) : String :=
  line ("dropped: group " ++ Text.decimal d.group ++ " condition " ++ Text.decimal d.position ++ ": " ++
    d.name ++ " " ++ d.operator.text ++ " (" ++ d.reason.text ++ ")")

/-- What a compiled query leaves behind. -/
def compiledReport (c : Compiled) (diagnostics : Bool) : Report where
  code := 0
  output := line c.text
  errors := if diagnostics then String.join (c.dropped.map droppedText) else ""

section

variable (readers : Readers)

/-- The attributes of the table that a query is compiled for, if one is given. -/
def knownFor (s : Settings) (named : Option String) :
    Option String → Consult (Except Failure (Option AttributeMap))
  | none => return .ok none
  | some table => do
    let catalog ← openCatalog readers s named
    return catalog.bind fun c => (attributesIn c table).map some

/-- Runs a command under settings. -/
def Command.run (s : Settings) (named : Option String) : Command → Consult (Except Failure Report)
  | .resolve table => do
    let catalog ← openCatalog readers s named
    return catalog.bind fun c => (namesIn c table).map fun names => { code := 0, output := namesText names }
  | .attributes table => do
    let catalog ← openCatalog readers s named
    return catalog.bind fun c =>
      (attributesIn c table).map fun map => { code := 0, output := line map.toJson.pretty }
  | .compile file table diagnostics => do
    match queryOf readers file (← Consult.fileAt file) with
    | .error e => return .error e
    | .ok query =>
      let known ← knownFor readers s named table
      return known.map fun known =>
        compiledReport ({ query with known }.compile s.nanPolicy) diagnostics

def Invocation.run (i : Invocation) : Consult (Except Failure Report) := do
  match ← Settings.find readers.toml i.config with
  | .error e => return .error (.settings e)
  | .ok settings => i.command.run readers settings i.catalog

end

def Report.ofResult : Except Failure Report → Report
  | .ok r => r
  | .error e => { code := 1, errors := line ("Error: " ++ e.message) }

def versionText : String := "formscope 0.1.0"

def usageText : String :=
  "usage: formscope [--catalog PATH] [--config PATH] resolve TABLE | attributes TABLE |\n" ++
    "       compile FILE [--table TABLE] [--diagnostics]"

/-- Runs the command line. -/
def run (readers : Readers) (arguments : List String) : Consult Report :=
  match Request.ofArguments arguments with
  | .misuse => return { code := 2, errors := line usageText }
  | .version => return { code := 0, output := line versionText }
  | .help => return { code := 0, output := line usageText }
  | .run i => do return .ofResult (← i.run readers)

end ODataQuery.CommandLine
