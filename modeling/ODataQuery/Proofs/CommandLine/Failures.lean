import ODataQuery.Proofs.CommandLine.Candidates

/-!
Why a run fails, and what it says about it. The settings come first; a query is read before the catalog is opened, and
the catalog is opened before the table is looked for in it. What is wrong at one of these points hides all that is wrong
at later ones.
-/

namespace ODataQuery.CommandLine

section

variable (readers : Readers) (w : Surroundings)

/-- Where the catalog is: at the path that is named, or else at the one in the settings, expanded. -/
inductive CatalogAt (s : Settings) : Option String → String → Prop where
  | named {path} : CatalogAt s (some path) path
  | configured {template path} (configured : s.catalogPath = some template)
      (expanded : Expansion.expand w.values template = .ok path) : CatalogAt s none path

/-- The catalog that is found in its place. -/
inductive Opens (s : Settings) (named : Option String) (catalog : Catalog) : Prop where
  | intro {path text} (place : CatalogAt w s named path) (there : w.files path = .text text)
      (decoded : Json.decodeText Catalog.decode text = .ok catalog)

/-- The query that a file holds. -/
inductive Holds (file : String) (query : Query) : Prop where
  | intro {text} (there : w.files file = .text text) (decoded : Json.decodeText Query.decode text = .ok query)

/-- Why there is no catalog. -/
inductive CatalogFault (s : Settings) : Option String → String → Prop where
  | unset {template name} (configured : s.catalogPath = some template)
      (unset : Expansion.expand w.values template = .error name) :
      CatalogFault s none ("Missing environment variable: " ++ name)
  | nowhere (unconfigured : s.catalogPath = none) :
      CatalogFault s none "no catalog given (use --catalog or [catalog] path in the config file)"
  | unread {named path why} (place : CatalogAt w s named path) (unread : (w.files path).contents = .error why) :
      CatalogFault s named ("loading catalog '" ++ path ++ "': failed to read metadata: " ++ why)
  | undecoded {named path text e} (place : CatalogAt w s named path) (there : w.files path = .text text)
      (refused : Json.decodeText Catalog.decode text = .error e) :
      CatalogFault s named ("loading catalog '" ++ path ++ "': failed to decode metadata: " ++ readers.catalog text e)

/-- Why a file holds no query. -/
inductive QueryFault (file : String) : String → Prop where
  | unread {why} (unread : (w.files file).contents = .error why) :
      QueryFault file ("reading '" ++ file ++ "': " ++ why)
  | undecoded {text e} (there : w.files file = .text text) (refused : Json.decodeText Query.decode text = .error e) :
      QueryFault file ("parsing query: " ++ readers.query text e)

end

/-- Why a catalog does not have what is asked about a table: no entity goes by this identifier, or no attributes are
there for the logical name of the entity that does. -/
inductive TableFault (catalog : Catalog) (table : String) (attributes : Bool) : String → Prop where
  | unknown (unresolved : catalog.resolve? table = none) :
      TableFault catalog table attributes ("entity not found: '" ++ table ++ "' (check the table name)")
  | bare {names} (asked : attributes = true) (resolved : catalog.resolve? table = some names)
      (bare : catalog.attributes? names.logical = none) :
      TableFault catalog table attributes
        ("metadata service error: no attribute metadata for entity: " ++ names.logical ++ " (code: NOT_FOUND)")

/-- Whether a command wants the attributes of its table. -/
def Command.wantsAttributes : Command → Bool
  | resolve _ => false
  | attributes _ | compile .. => true

section

variable (readers : Readers) (w : Surroundings)

/-- Why a command fails under settings. -/
inductive CommandFault (s : Settings) (named : Option String) (command : Command) : String → Prop where
  | query {file message} (reads : command.file? = some file) (fault : QueryFault readers w file message) :
      CommandFault s named command message
  | catalog {table message} (readable : ∀ file ∈ command.file?, ∃ query, Holds w file query)
      (asks : command.table? = some table) (fault : CatalogFault readers w s named message) :
      CommandFault s named command message
  | table {table message catalog} (readable : ∀ file ∈ command.file?, ∃ query, Holds w file query)
      (asks : command.table? = some table) (opens : Opens w s named catalog)
      (fault : TableFault catalog table command.wantsAttributes message) : CommandFault s named command message

/-- Why a run fails: the file of the first candidate for its settings is broken, or the command fails under them. -/
inductive Fails (i : Invocation) : String → Prop where
  | settings {c path message} (first : Settings.First w i.config c) (file : c.path? = some path)
      (broken : Settings.Broken readers.toml path (w.files path) message) : Fails i message
  | command {settings message} (found : (Settings.find readers.toml i.config).answer w = .ok settings)
      (fault : CommandFault readers w settings i.catalog i.command message) : Fails i message

end

variable {readers : Readers} {w : Surroundings} {s : Settings} {named table : Option String} {path message : String}
  {i : Invocation} {arguments : List String}

/-! ### Catalogs and queries -/

theorem contents_eq_ok_iff {state : FileState} {text : String} : state.contents = .ok text ↔ state = .text text := by
  cases state <;> simp [FileState.contents]

theorem catalogPath_eq_ok_iff : (catalogPath s named).answer w = .ok path ↔ CatalogAt w s named path := by
  constructor
  · intro h
    cases named with
    | some path =>
        cases h
        exact .named
    | none =>
        cases hconfigured : s.catalogPath with
        | none =>
            rw [answer_catalogPath_unconfigured hconfigured] at h
            cases h
        | some template =>
            rw [answer_catalogPath_configured hconfigured] at h
            exact .configured hconfigured (mapError_eq_ok_iff.mp h)
  · intro h
    cases h with
    | named => rfl
    | configured configured expanded =>
        rw [answer_catalogPath_configured configured]
        exact mapError_eq_ok_iff.mpr expanded

/-- A place for the catalog is missing only in the settings. -/
theorem failsWith_catalogPath (h : FailsWith ((catalogPath s named).answer w) message) :
    CatalogFault readers w s named message := by
  cases named with
  | some path => exact absurd h not_failsWith_ok
  | none =>
      cases hconfigured : s.catalogPath with
      | none =>
          rw [answer_catalogPath_unconfigured hconfigured] at h
          obtain rfl := failsWith_error_iff.mp h
          exact .nowhere hconfigured
      | some template =>
          rw [answer_catalogPath_configured hconfigured] at h
          obtain ⟨name, unset, rfl⟩ := failsWith_mapError_iff.mp h
          exact .unset hconfigured unset

theorem message_unreadable (path why : String) : (Failure.catalog path (.unreadable why)).message =
    "loading catalog '" ++ path ++ "': failed to read metadata: " ++ why := by
  have hjoined : "': failed to read metadata: " = "': " ++ "failed to read metadata: " := rfl
  rw [hjoined, ← String.append_assoc, String.append_assoc]
  rfl

theorem message_undecodable (path why : String) : (Failure.catalog path (.undecodable why)).message =
    "loading catalog '" ++ path ++ "': failed to decode metadata: " ++ why := by
  have hjoined : "': failed to decode metadata: " = "': " ++ "failed to decode metadata: " := rfl
  rw [hjoined, ← String.append_assoc, String.append_assoc]
  rfl

theorem catalogOf_eq_ok_iff {state : FileState} {c : Catalog} : catalogOf readers path state = .ok c ↔
    ∃ text, state = .text text ∧ Json.decodeText Catalog.decode text = .ok c := by
  cases state with
  | unreadable why | absent why => simp [catalogOf, FileState.contents]
  | text text => simp [catalogOf, FileState.contents, mapError_eq_ok_iff]

theorem failsWith_catalogOf (place : CatalogAt w s named path)
    (h : FailsWith (catalogOf readers path (w.files path)) message) : CatalogFault readers w s named message := by
  rw [catalogOf] at h
  cases hcontents : (w.files path).contents with
  | error why =>
      rw [hcontents] at h
      obtain rfl := failsWith_error_iff.mp h
      exact message_unreadable path why ▸ .unread place hcontents
  | ok text =>
      rw [hcontents] at h
      obtain ⟨e, refused, rfl⟩ := failsWith_mapError_iff.mp h
      exact message_undecodable path _ ▸ .undecoded place (contents_eq_ok_iff.mp hcontents) refused

theorem openCatalog_eq_ok_iff {c : Catalog} :
    (openCatalog readers s named).answer w = .ok c ↔ Opens w s named c := by
  rw [answer_openCatalog, bind_eq_ok_iff]
  constructor
  · rintro ⟨path, hpath, hcatalog⟩
    obtain ⟨text, htext, hdecode⟩ := catalogOf_eq_ok_iff.mp hcatalog
    exact ⟨catalogPath_eq_ok_iff.mp hpath, htext, hdecode⟩
  · rintro ⟨place, there, decoded⟩
    exact ⟨_, catalogPath_eq_ok_iff.mpr place, catalogOf_eq_ok_iff.mpr ⟨_, there, decoded⟩⟩

theorem failsWith_openCatalog_iff :
    FailsWith ((openCatalog readers s named).answer w) message ↔ CatalogFault readers w s named message := by
  rw [answer_openCatalog, failsWith_bind_iff]
  constructor
  · rintro (hpath | ⟨path, hpath, hcatalog⟩)
    · exact failsWith_catalogPath hpath
    · exact failsWith_catalogOf (catalogPath_eq_ok_iff.mp hpath) hcatalog
  · intro h
    cases h with
    | unset configured unset =>
        left
        rw [answer_catalogPath_configured configured]
        exact failsWith_mapError_iff.mpr ⟨_, unset, rfl⟩
    | nowhere unconfigured =>
        left
        rw [answer_catalogPath_unconfigured unconfigured]
        exact failsWith_error_iff.mpr rfl
    | unread place unread =>
        refine Or.inr ⟨_, catalogPath_eq_ok_iff.mpr place, ?_⟩
        rw [catalogOf, unread]
        exact failsWith_error_iff.mpr (message_unreadable _ _)
    | undecoded place there refused =>
        refine Or.inr ⟨_, catalogPath_eq_ok_iff.mpr place, ?_⟩
        rw [catalogOf, there]
        exact failsWith_mapError_iff.mpr ⟨_, refused, message_undecodable _ _⟩

theorem queryOf_eq_ok_iff {query : Query} : queryOf readers path (w.files path) = .ok query ↔ Holds w path query := by
  have hiff : queryOf readers path (w.files path) = .ok query ↔
      ∃ text, w.files path = .text text ∧ Json.decodeText Query.decode text = .ok query := by
    cases w.files path with
    | unreadable why | absent why => simp [queryOf, FileState.contents]
    | text text => simp [queryOf, FileState.contents, mapError_eq_ok_iff]
  rw [hiff]
  exact ⟨fun ⟨_, there, decoded⟩ => ⟨there, decoded⟩, fun ⟨there, decoded⟩ => ⟨_, there, decoded⟩⟩

theorem failsWith_queryOf_iff :
    FailsWith (queryOf readers path (w.files path)) message ↔ QueryFault readers w path message := by
  constructor
  · intro h
    cases hstate : w.files path with
    | unreadable why | absent why =>
        rw [hstate] at h
        obtain rfl : "reading '" ++ path ++ "': " ++ why = message := failsWith_error_iff.mp h
        exact .unread (by rw [hstate]; rfl)
    | text text =>
        rw [hstate] at h
        obtain ⟨e, refused, rfl⟩ := failsWith_mapError_iff.mp h
        exact .undecoded hstate refused
  · intro h
    cases h with
    | unread unread =>
        rw [queryOf, unread]
        exact failsWith_error_iff.mpr rfl
    | undecoded there refused =>
        rw [queryOf, there]
        exact failsWith_mapError_iff.mpr ⟨_, refused, rfl⟩

/-! ### Tables -/

theorem namesIn_eq_ok_iff {c : Catalog} {table : String} {names : EntityNames} :
    namesIn c table = .ok names ↔ c.resolve? table = some names := by
  rw [namesIn, mapError_eq_ok_iff]
  cases c.resolve? table <;> simp [ResolveError.ofAnswer]

theorem failsWith_namesIn_iff {c : Catalog} {table : String} :
    FailsWith (namesIn c table) message ↔ TableFault c table false message := by
  rw [namesIn, failsWith_mapError_iff]
  constructor
  · rintro ⟨e, he, rfl⟩
    cases hresolve : c.resolve? table with
    | none =>
        rw [hresolve] at he
        cases he
        exact .unknown hresolve
    | some names =>
        rw [hresolve] at he
        cases he
  · intro h
    cases h with
    | unknown unresolved =>
        rw [unresolved]
        exact ⟨_, rfl, rfl⟩
    | bare asked => cases asked

theorem attributesIn_eq_ok_iff {c : Catalog} {table : String} {map : AttributeMap} : attributesIn c table = .ok map ↔
    ∃ names, c.resolve? table = some names ∧ c.attributes? names.logical = some map := by
  show (namesIn c table).bind _ = _ ↔ _
  simp only [bind_eq_ok_iff, namesIn_eq_ok_iff, mapError_eq_ok_iff, Catalog.attributes]
  refine exists_congr fun names => and_congr_right fun _ => ?_
  cases c.attributes? names.logical <;> simp

theorem message_bare (name : String) : (Failure.table (.provider (.remote "NOT_FOUND"
    ("no attribute metadata for entity: " ++ name)))).message =
      "metadata service error: no attribute metadata for entity: " ++ name ++ " (code: NOT_FOUND)" := by
  have hbefore : "metadata service error: no attribute metadata for entity: " =
    "metadata service error: " ++ "no attribute metadata for entity: " := rfl
  have hbehind : " (code: NOT_FOUND)" = " (code: " ++ "NOT_FOUND" ++ ")" := rfl
  show "metadata service error: " ++ ("no attribute metadata for entity: " ++ name) ++ " (code: " ++ "NOT_FOUND" ++
    ")" = _
  rw [hbefore, hbehind, ← String.append_assoc, ← String.append_assoc, ← String.append_assoc]

theorem failsWith_attributesIn_iff {c : Catalog} {table : String} :
    FailsWith (attributesIn c table) message ↔ TableFault c table true message := by
  show FailsWith ((namesIn c table).bind _) message ↔ _
  simp only [failsWith_bind_iff, failsWith_namesIn_iff, namesIn_eq_ok_iff, failsWith_mapError_iff, Catalog.attributes]
  constructor
  · rintro (unknown | ⟨names, resolved, e, he, rfl⟩)
    · cases unknown with
      | unknown unresolved => exact .unknown unresolved
      | bare asked => cases asked
    · cases hbare : c.attributes? names.logical with
      | some map =>
          rw [hbare] at he
          cases he
      | none =>
          rw [hbare] at he
          cases he
          exact message_bare names.logical ▸ .bare rfl resolved hbare
  · intro h
    cases h with
    | unknown unresolved => exact Or.inl (.unknown unresolved)
    | bare asked resolved bare =>
        refine Or.inr ⟨_, resolved, _, ?_, message_bare _⟩
        rw [bare]

/-! ### Commands -/

/-- What needs a catalog fails by it or by what is asked about the table. -/
theorem failsWith_inCatalog_iff {α : Type} {f : Catalog → Except Failure α} {table : String} {attributes : Bool}
    (inside : ∀ c, FailsWith (f c) message ↔ TableFault c table attributes message) :
    FailsWith (((openCatalog readers s named).answer w).bind f) message ↔
      CatalogFault readers w s named message ∨ ∃ c, Opens w s named c ∧ TableFault c table attributes message := by
  simp only [failsWith_bind_iff, failsWith_openCatalog_iff, openCatalog_eq_ok_iff, inside]

theorem commandFault_iff {command : Command} : CommandFault readers w s named command message ↔
    (∃ file, command.file? = some file ∧ QueryFault readers w file message) ∨
      (∀ file ∈ command.file?, ∃ query, Holds w file query) ∧ ∃ table, command.table? = some table ∧
        (CatalogFault readers w s named message ∨
          ∃ c, Opens w s named c ∧ TableFault c table command.wantsAttributes message) := by
  constructor
  · intro h
    cases h with
    | query reads fault => exact Or.inl ⟨_, reads, fault⟩
    | catalog readable asks fault => exact Or.inr ⟨readable, _, asks, Or.inl fault⟩
    | table readable asks opens fault => exact Or.inr ⟨readable, _, asks, Or.inr ⟨_, opens, fault⟩⟩
  · rintro (⟨file, reads, fault⟩ | ⟨readable, table, asks, fault | ⟨c, opens, fault⟩⟩)
    · exact .query reads fault
    · exact .catalog readable asks fault
    · exact .table readable asks opens fault

theorem failsWith_knownFor_iff : FailsWith ((knownFor readers s named table).answer w) message ↔
    ∃ t, table = some t ∧
      (CatalogFault readers w s named message ∨ ∃ c, Opens w s named c ∧ TableFault c t true message) := by
  cases table with
  | none => exact iff_of_false not_failsWith_ok nofun
  | some t =>
      rw [answer_knownFor, failsWith_inCatalog_iff fun c => failsWith_map_iff.trans failsWith_attributesIn_iff]
      simp

theorem failsWith_command_iff {command : Command} :
    FailsWith ((command.run readers s named).answer w) message ↔ CommandFault readers w s named command message := by
  rw [commandFault_iff]
  cases command with
  | resolve table =>
      rw [answer_resolve, failsWith_inCatalog_iff fun c => failsWith_map_iff.trans failsWith_namesIn_iff]
      simp [Command.file?, Command.table?, Command.wantsAttributes]
  | attributes table =>
      rw [answer_attributes, failsWith_inCatalog_iff fun c => failsWith_map_iff.trans failsWith_attributesIn_iff]
      simp [Command.file?, Command.table?, Command.wantsAttributes]
  | compile file table diagnostics =>
      rw [answer_compile, failsWith_bind_iff, failsWith_queryOf_iff]
      simp only [queryOf_eq_ok_iff, failsWith_map_iff, failsWith_knownFor_iff]
      simp [Command.file?, Command.table?, Command.wantsAttributes]

/-! ### Runs -/

theorem failsWith_invocation_iff : FailsWith ((i.run readers).answer w) message ↔ Fails readers w i message := by
  obtain ⟨c, first⟩ : ∃ c, Settings.First w i.config c := Settings.exists_first i.config
  rw [answer_invocation, failsWith_bind_iff, failsWith_mapError_iff]
  constructor
  · rintro (⟨e, hfound, rfl⟩ | ⟨settings, hfound, hcommand⟩)
    · obtain ⟨path, file, broken⟩ := first.failed_iff.mp ⟨e, hfound, rfl⟩
      exact .settings first file broken
    · exact .command (mapError_eq_ok_iff.mp hfound) (failsWith_command_iff.mp hcommand)
  · intro h
    cases h with
    | settings first' file broken => exact Or.inl (first'.failed_iff.mpr ⟨_, file, broken⟩)
    | command found fault => exact Or.inr ⟨_, mapError_eq_ok_iff.mpr found, failsWith_command_iff.mpr fault⟩

/-- An accepted run fails for the reasons there are, and then leaves nothing but the message. -/
theorem fails_iff (accepted : Request.ofArguments arguments = .run i) : Fails readers w i message ↔
    (run readers arguments).answer w = { code := 1, output := "", errors := "Error: " ++ message ++ "\n" } := by
  rw [← failsWith_invocation_iff]
  refine failsWith_iff accepted fun r hr => ?_
  rw [answer_invocation, bind_eq_ok_iff] at hr
  obtain ⟨settings, -, hcommand⟩ := hr
  exact code_of_ok hcommand

end ODataQuery.CommandLine
