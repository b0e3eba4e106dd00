import Mathlib.Data.List.Forall2
import ODataQuery.Proofs.CommandLine.Failures
import ODataQuery.Proofs.CommandLine.Reports

/-!
What a run leaves behind, and what it depends on. A run has all of its output, or it fails with one message and nothing
else. What is compiled is the query in the file, under the policy of the settings, and with attributes if and only if a
table is given. The path of the catalog in the settings matters only to a run that needs a catalog and names none.
-/

namespace ODataQuery.CommandLine

/-- The catalog has attributes under the logical name that a table resolves to. -/
inductive Serves (catalog : Catalog) (table : String) (map : AttributeMap) : Prop where
  | intro {names} (resolved : catalog.resolve? table = some names)
      (known : catalog.attributes? names.logical = some map)

section

variable (readers : Readers) (w : Surroundings)

/-- What is compiled for a query: the query as it is or, if a table is given, with the attributes of the table. -/
inductive Prepared (s : Settings) (named : Option String) (query : Query) : Option String → Query → Prop where
  | alone : Prepared s named query none query
  | known {table catalog map} (opens : Opens w s named catalog) (serves : Serves catalog table map) :
      Prepared s named query (some table) (query.withAttributes map)

/-- What is compiled in a run, and under which settings. -/
structure Compiles (i : Invocation) (file : String) (table : Option String) (settings : Settings) (query : Query) :
    Prop where
  found : (Settings.find readers.toml i.config).answer w = .ok settings
  prepared : ∃ decoded, Holds w file decoded ∧ Prepared w settings i.catalog decoded table query

/-- A run of the same command in another world, where the settings may differ in the path of the catalog. -/
structure Alike (w' : Surroundings) (i i' : Invocation) : Prop where
  command : i'.command = i.command
  settings : ((Settings.find readers.toml i'.config).answer w').map Settings.besidesCatalog =
    ((Settings.find readers.toml i.config).answer w).map Settings.besidesCatalog
  file : ∀ file ∈ i.command.file?, w'.files file = w.files file

end

variable {readers : Readers} {w w' : Surroundings} {s s' : Settings} {named named' table : Option String}
  {path : String} {i i' : Invocation} {arguments : List String}

/-! ### Successes -/

/-- A query that is read from a file comes without attributes. -/
theorem known_of_decodeText {text : String} {q : Query} (h : Json.decodeText Query.decode text = .ok q) :
    q.known = none := by
  unfold Json.decodeText at h
  rcases hread : Json.read text with ⟨j, rest⟩
  rw [hread] at h
  obtain ⟨decoded, hdecode, hrest⟩ := bind_eq_ok_iff.mp h
  obtain ⟨parts, -, hparts⟩ := bind_eq_ok_iff.mp hdecode
  have hknown : decoded.known = none := by
    cases hparts
    rfl
  split at hrest
  · cases hrest
    exact hknown
  · cases hrest

theorem Holds.eq_self {query : Query} (h : Holds w path query) : { query with known := none } = query := by
  obtain ⟨-, hdecode⟩ := h
  rw [← known_of_decodeText hdecode]

/-- The attributes for a query are those of the catalog if a table is given, and there are none otherwise. -/
theorem knownFor_eq_ok_iff {known : Option AttributeMap} : (knownFor readers s named table).answer w = .ok known ↔
    (table = none ∧ known = none) ∨ ∃ t catalog map, table = some t ∧ Opens w s named catalog ∧
      Serves catalog t map ∧ known = some map := by
  cases table with
  | none => simp [knownFor, eq_comm]
  | some t =>
      rw [answer_knownFor, bind_eq_ok_iff]
      constructor
      · rintro ⟨catalog, hopen, hknown⟩
        obtain ⟨map, hmap, rfl⟩ := map_eq_ok_iff.mp hknown
        obtain ⟨names, resolved, known⟩ := attributesIn_eq_ok_iff.mp hmap
        exact Or.inr ⟨t, catalog, map, rfl, openCatalog_eq_ok_iff.mp hopen, ⟨resolved, known⟩, rfl⟩
      · rintro (⟨⟨⟩, -⟩ | ⟨_, catalog, map, ⟨rfl⟩, opens, ⟨resolved, known⟩, rfl⟩)
        have hmap : attributesIn catalog _ = .ok map := attributesIn_eq_ok_iff.mpr ⟨_, resolved, known⟩
        exact ⟨catalog, openCatalog_eq_ok_iff.mpr opens, map_eq_ok_iff.mpr ⟨map, hmap, rfl⟩⟩

/-- A compilation succeeds with what is prepared for the query in the file. -/
theorem compile_eq_ok_iff {file : String} {diagnostics : Bool} {r : Report} :
    ((Command.compile file table diagnostics).run readers s named).answer w = .ok r ↔
      ∃ decoded query, Holds w file decoded ∧ Prepared w s named decoded table query ∧
        compiledReport (query.compile s.nanPolicy) diagnostics = r := by
  rw [answer_compile, bind_eq_ok_iff]
  constructor
  · rintro ⟨decoded, hquery, hreport⟩
    have holds : Holds w file decoded := queryOf_eq_ok_iff.mp hquery
    obtain ⟨known, hknown, hr⟩ := map_eq_ok_iff.mp hreport
    rcases knownFor_eq_ok_iff.mp hknown with ⟨rfl, rfl⟩ | ⟨t, catalog, map, rfl, opens, serves, rfl⟩
    · rw [holds.eq_self] at hr
      exact ⟨decoded, decoded, holds, .alone, hr⟩
    · exact ⟨decoded, _, holds, .known opens serves, hr⟩
  · rintro ⟨decoded, query, holds, hprepared, hr⟩
    refine ⟨decoded, queryOf_eq_ok_iff.mpr holds, map_eq_ok_iff.mpr ?_⟩
    cases hprepared with
    | alone =>
        refine ⟨none, knownFor_eq_ok_iff.mpr (Or.inl ⟨rfl, rfl⟩), ?_⟩
        rwa [holds.eq_self]
    | known opens serves => exact ⟨_, knownFor_eq_ok_iff.mpr (Or.inr ⟨_, _, _, rfl, opens, serves, rfl⟩), hr⟩

/-- A run either fails or ends with what its command leaves behind. -/
theorem report_cases (readers : Readers) (w : Surroundings) (accepted : Request.ofArguments arguments = .run i) :
    (∃ settings, (Settings.find readers.toml i.config).answer w = .ok settings ∧
      (i.command.run readers settings i.catalog).answer w = .ok ((run readers arguments).answer w)) ∨
    ∃ message, Fails readers w i message := by
  rw [answer_run accepted]
  cases hrun : (i.run readers).answer w with
  | error failure => exact Or.inr ⟨failure.message, failsWith_invocation_iff.mp ⟨failure, hrun, rfl⟩⟩
  | ok report =>
      rw [answer_invocation, bind_eq_ok_iff] at hrun
      obtain ⟨settings, hfound, hcommand⟩ := hrun
      exact Or.inl ⟨settings, mapError_eq_ok_iff.mp hfound, hcommand⟩

theorem answer_of_found (accepted : Request.ofArguments arguments = .run i)
    (found : (Settings.find readers.toml i.config).answer w = .ok s) {r : Report}
    (h : (i.command.run readers s i.catalog).answer w = .ok r) : (run readers arguments).answer w = r := by
  rw [answer_run accepted, answer_invocation, found]
  show Report.ofResult ((i.command.run readers s i.catalog).answer w) = r
  rw [h]
  rfl

/-- Only what is asked to run can end with code 1. -/
theorem accepted_of_code (h : ((run readers arguments).answer w).code = 1) :
    ∃ i, Request.ofArguments arguments = .run i := by
  cases hrequest : Request.ofArguments arguments with
  | misuse | version | help =>
      unfold run at h
      rw [hrequest] at h
      cases h
  | run i => exact ⟨i, rfl⟩

theorem compiles_of_code (accepted : Request.ofArguments arguments = .run i) {file : String} {diagnostics : Bool}
    (command : i.command = .compile file table diagnostics) (h : ((run readers arguments).answer w).code = 0) :
    ∃ settings query, Compiles readers w i file table settings query := by
  obtain ⟨settings, hfound, hcommand⟩ | ⟨message, hfails⟩ := report_cases readers w accepted
  · rw [command, compile_eq_ok_iff] at hcommand
    obtain ⟨decoded, query, holds, hprepared, -⟩ := hcommand
    exact ⟨settings, query, hfound, decoded, holds, hprepared⟩
  · rw [(fails_iff accepted).mp hfails] at h
    cases h

theorem Compiles.answer (accepted : Request.ofArguments arguments = .run i) {file : String} {diagnostics : Bool}
    {query : Query} (command : i.command = .compile file table diagnostics)
    (h : Compiles readers w i file table s query) :
    (run readers arguments).answer w = compiledReport (query.compile s.nanPolicy) diagnostics := by
  obtain ⟨decoded, holds, hprepared⟩ := h.prepared
  refine answer_of_found accepted h.found ?_
  rw [command, compile_eq_ok_iff]
  exact ⟨decoded, query, holds, hprepared, rfl⟩

/-- What a compiled query leaves: its text, and what is said about its dropped conditions. -/
theorem compiledReport_reports (c : Compiled) (diagnostics : Bool) : ∃ reports : List String,
    compiledReport c diagnostics =
      { code := 0, output := c.text ++ "\n", errors := if diagnostics then String.join reports else "" } ∧
    List.Forall₂ Reports c.dropped reports := by
  refine ⟨c.dropped.map droppedText, rfl, ?_⟩
  rw [List.forall₂_map_right_iff]
  exact List.forall₂_same.mpr fun d _ => droppedText_reports d

/-! ### What a run depends on -/

theorem Command.answer_congr {command : Command} (policy : s'.nanPolicy = s.nanPolicy)
    (file : ∀ file ∈ command.file?, w'.files file = w.files file)
    (catalog : command.table?.isSome = true →
      (openCatalog readers s' named').answer w' = (openCatalog readers s named).answer w) :
    (command.run readers s' named').answer w' = (command.run readers s named).answer w := by
  cases command with
  | resolve table => rw [answer_resolve, answer_resolve, catalog rfl]
  | attributes table => rw [answer_attributes, answer_attributes, catalog rfl]
  | compile query table diagnostics =>
      rw [answer_compile, answer_compile, file query rfl, policy]
      cases table with
      | none => rfl
      | some table => rw [answer_knownFor, answer_knownFor, catalog rfl]

/-- Settings that agree besides the catalog have one policy, and what is wrong with them is the same. -/
theorem found_cases {x y : Except SettingsError Settings}
    (h : y.map Settings.besidesCatalog = x.map Settings.besidesCatalog) :
    (∃ e, y = .error e ∧ x = .error e) ∨ ∃ s s', y = .ok s' ∧ x = .ok s ∧ s'.nanPolicy = s.nanPolicy := by
  cases x with
  | error e =>
      cases y with
      | error e' =>
          cases h
          exact Or.inl ⟨e, rfl, rfl⟩
      | ok s' => cases h
  | ok s =>
      cases y with
      | error e' => cases h
      | ok s' =>
          have hsame : s'.besidesCatalog = s.besidesCatalog := Except.ok.inj h
          have hpolicy : s'.besidesCatalog.nanPolicy = s.besidesCatalog.nanPolicy := by rw [hsame]
          exact Or.inr ⟨s, s', rfl, rfl, hpolicy⟩

/-- A run that needs no catalog, or names the one it needs, does not depend on the path in the settings. -/
theorem Alike.answer {arguments' : List String} (alike : Alike readers w w' i i')
    (accepted : Request.ofArguments arguments = .run i) (accepted' : Request.ofArguments arguments' = .run i')
    (catalog : i.command.table?.isSome = true →
      ∃ path, i.catalog = some path ∧ i'.catalog = some path ∧ w'.files path = w.files path) :
    (run readers arguments').answer w' = (run readers arguments).answer w := by
  have hcommand : ∀ s s', s'.nanPolicy = s.nanPolicy → (i.command.run readers s' i'.catalog).answer w' =
      (i.command.run readers s i.catalog).answer w := by
    intro s s' hpolicy
    refine Command.answer_congr hpolicy alike.file fun needs => ?_
    obtain ⟨path, hnamed, hnamed', hpath⟩ := catalog needs
    rw [answer_openCatalog, answer_openCatalog, hnamed, hnamed']
    exact congrArg (catalogOf readers path) hpath
  rw [answer_run accepted, answer_run accepted', answer_invocation, answer_invocation, alike.command]
  obtain ⟨e, hfound', hfound⟩ | ⟨s, s', hfound', hfound, hpolicy⟩ := found_cases alike.settings
  · rw [hfound', hfound]
    rfl
  · rw [hfound', hfound]
    exact congrArg Report.ofResult (hcommand s s' hpolicy)

theorem Command.mem_looks {command : Command} {look : Look} (h : look ∈ (command.run readers s named).looks w) :
    (∃ file ∈ command.file?, look = .file file) ∨
      command.table?.isSome = true ∧ look ∈ (openCatalog readers s named).looks w := by
  cases command with
  | resolve table | attributes table =>
      unfold Command.run at h
      rw [Consult.looks_bind, Consult.looks_pure, List.append_nil] at h
      exact Or.inr ⟨rfl, h⟩
  | compile file table diagnostics =>
      unfold Command.run at h
      rw [Consult.looks_bind, Consult.answer_fileAt, Consult.looks_fileAt] at h
      rcases List.mem_append.mp h with hfile | hknown
      · exact Or.inl ⟨file, rfl, List.mem_singleton.mp hfile⟩
      · right
        cases hquery : queryOf readers file (w.files file) with
        | error e => simp [hquery] at hknown
        | ok query =>
            cases table with
            | none => simp [hquery, knownFor] at hknown
            | some table => exact ⟨rfl, by simpa [hquery, knownFor] using hknown⟩

theorem mem_looks_run {look : Look} (accepted : Request.ofArguments arguments = .run i)
    (h : look ∈ (run readers arguments).looks w) :
    look ∈ (Settings.find readers.toml i.config).looks w ∨
      ∃ settings, look ∈ (i.command.run readers settings i.catalog).looks w := by
  rw [looks_run accepted, Invocation.run, Consult.looks_bind] at h
  rcases List.mem_append.mp h with hfind | hcommand
  · exact Or.inl hfind
  · right
    cases hfound : (Settings.find readers.toml i.config).answer w with
    | error e => simp [hfound] at hcommand
    | ok settings => exact ⟨settings, by simpa [hfound] using hcommand⟩

/-- A catalog that is named is looked at only in its place. -/
theorem looks_openCatalog_named : (openCatalog readers s (some path)).looks w = [.file path] := rfl

/-- A run fails for the reasons there are, taken in order, and then it leaves one message and nothing else. A query is
compiled if and only if it and all that goes with it can be read, and then all of its text is left, with a report on
each dropped condition if these are asked for; a report is one line if the name of the attribute has no line feed. If
no table is given, the query depends on no catalog. If a catalog is named, no command depends on the one in the
settings. -/
theorem runs_all_or_nothing (readers : Readers) (arguments : List String) (w : Surroundings) :
    (((run readers arguments).answer w).code = 1 → ∃ i, Request.ofArguments arguments = .run i) ∧
    ∀ i, Request.ofArguments arguments = .run i →
      (∀ message, Fails readers w i message ↔ (run readers arguments).answer w =
        { code := 1, output := "", errors := "Error: " ++ message ++ "\n" }) ∧
      (((run readers arguments).answer w).code = 0 ∨ ∃ message, Fails readers w i message) ∧
      (∀ file table diagnostics, i.command = .compile file table diagnostics →
        (((run readers arguments).answer w).code = 0 ↔
          ∃ settings query, Compiles readers w i file table settings query) ∧
        ∀ settings query, Compiles readers w i file table settings query → ∃ reports : List String,
          (run readers arguments).answer w =
            { code := 0
              output := (query.compile settings.nanPolicy).text ++ "\n"
              errors := if diagnostics then String.join reports else "" } ∧
          List.Forall₂ Reports (query.compile settings.nanPolicy).dropped reports) ∧
      (∀ file diagnostics, i.command = .compile file none diagnostics →
        (∀ look ∈ (run readers arguments).looks w,
          look ∈ (Settings.find readers.toml i.config).looks w ∨ look = .file file) ∧
        ∀ arguments' i' w', Request.ofArguments arguments' = .run i' → Alike readers w w' i i' →
          (run readers arguments').answer w' = (run readers arguments).answer w) ∧
      ∀ path, i.catalog = some path →
        (∀ look ∈ (run readers arguments).looks w, look ∈ (Settings.find readers.toml i.config).looks w ∨
          look = .file path ∨ ∃ file ∈ i.command.file?, look = .file file) ∧
        ∀ arguments' i' w', Request.ofArguments arguments' = .run i' → i'.catalog = some path →
          w'.files path = w.files path → Alike readers w w' i i' →
          (run readers arguments').answer w' = (run readers arguments).answer w := by
  refine ⟨accepted_of_code, fun i accepted => ⟨fun message => fails_iff accepted, ?_, ?_, ?_, ?_⟩⟩
  · obtain ⟨settings, -, hcommand⟩ | hfails := report_cases readers w accepted
    · exact Or.inl (code_of_ok hcommand)
    · exact Or.inr hfails
  · intro file table diagnostics command
    refine ⟨⟨compiles_of_code accepted command, ?_⟩, ?_⟩
    · rintro ⟨settings, query, compiles⟩
      rw [compiles.answer accepted command]
      rfl
    · intro settings query compiles
      rw [compiles.answer accepted command]
      exact compiledReport_reports _ _
  · intro file diagnostics command
    constructor
    · intro look hlook
      obtain hfind | ⟨settings, hcommand⟩ := mem_looks_run accepted hlook
      · exact Or.inl hfind
      · rw [command] at hcommand
        obtain ⟨_, ⟨rfl⟩, hfile⟩ | ⟨needs, -⟩ := Command.mem_looks hcommand
        · exact Or.inr hfile
        · cases needs
    · intro arguments' i' w' accepted' alike
      refine alike.answer accepted accepted' fun needs => ?_
      rw [command] at needs
      cases needs
  · intro path hnamed
    constructor
    · intro look hlook
      obtain hfind | ⟨settings, hcommand⟩ := mem_looks_run accepted hlook
      · exact Or.inl hfind
      · rw [hnamed] at hcommand
        obtain hfile | ⟨-, hcatalog⟩ := Command.mem_looks hcommand
        · exact Or.inr (Or.inr hfile)
        · rw [looks_openCatalog_named] at hcatalog
          exact Or.inr (Or.inl (List.mem_singleton.mp hcatalog))
    · intro arguments' i' w' accepted' hnamed' hpath alike
      exact alike.answer accepted accepted' fun _ => ⟨path, hnamed, hnamed', hpath⟩

/-- What a value that can be computed has, it has. -/
theorem exists_of_any {ε α : Type} {x : Except ε α} {p : α → Bool} (h : x.toOption.any p = true) :
    ∃ a, x = .ok a ∧ p a = true := by
  cases x with
  | error e => cases h
  | ok a => exact ⟨a, rfl, h⟩

/-- The name of an attribute has a line feed. The only condition is dropped, and what is said about it is no line. -/
theorem runs_all_or_nothing_line_feed :
    let text := "\x7b\"filterGroups\": [\x7b\"filters\":
      [\x7b\"attr\": \"a\\nb\", \"op\": \"contains\", \"value\": \"5\"\x7d]\x7d]\x7d"
    let w : Surroundings :=
      ⟨fun path => if path = "query.json" then .text text else .absent "No such file or directory (os error 2)",
        fun _ => none, none, usualSearch⟩
    let report := (run briefReaders ["compile", "query.json", "--diagnostics"]).answer w
    report.code = 0 ∧
    ∃ settings query,
      Compiles briefReaders w ⟨none, none, .compile "query.json" none true⟩ "query.json" none settings query ∧
      (query.compile settings.nanPolicy).dropped.length = 1 ∧
      ¬ ∃ lines : List String, lines.length = 1 ∧ (∀ l ∈ lines, IsLine l) ∧ report.errors = String.join lines := by
  intro text w report
  have hreport : report = { code := 0, output := "\n", errors :=
      "dropped: group 0 condition 0: a\nb contains (string function applied to number attribute)\n" } := by
    decide +kernel
  obtain ⟨query, decoded, hdropped⟩ : ∃ query, Json.decodeText Query.decode text = .ok query ∧
      ((query.compile .emit).dropped.length == 1) = true :=
    exists_of_any (by decide +kernel)
  refine ⟨by rw [hreport], {}, query, ⟨by decide +kernel, query, ⟨rfl, decoded⟩, .alone⟩, beq_iff_eq.mp hdropped, ?_⟩
  rintro ⟨lines, hlength, hlines, herrors⟩
  obtain ⟨l, rfl⟩ := List.length_eq_one_iff.mp hlength
  obtain ⟨body, hbody, hmem⟩ := hlines l (List.mem_singleton_self l)
  have hl : l.toList = report.errors.toList := by
    rw [herrors]
    simp [String.join]
  have hinit : body = report.errors.toList.dropLast := by rw [← hl, hbody, List.dropLast_concat]
  rw [hinit, hreport] at hmem
  exact hmem (by decide +kernel)

/-- The catalog makes the attribute a date, so that the only condition is dropped, which is reported in one line. The
catalog is named, and the one in the settings may have a variable without a value in its path. Where there is no file to
compile, that is the message. -/
theorem runs_all_or_nothing_dropped :
    let catalog := "\x7b\"entities\": [\x7b\"logical_name\": \"account\", \"entity_set_name\": \"accounts\",
      \"attributes\": [\x7b\"logical_name\": \"createdon\", \"attribute_type\": \"DateTime\"\x7d]\x7d]\x7d"
    let text := "\x7b\"filterGroups\": [\x7b\"filters\":
      [\x7b\"attr\": \"createdon\", \"op\": \"gt\", \"value\": \"soon\"\x7d]\x7d], \"top\": 5\x7d"
    let world := fun settings => (⟨fun path =>
        if path = "formscope.toml" then FileState.text settings
        else if path = "query.json" then .text text
        else if path = "catalog.json" then .text catalog
        else .absent "No such file or directory (os error 2)", fun _ => none, none, usualSearch⟩ : Surroundings)
    let arguments := ["compile", "query.json", "--table", "accounts", "--diagnostics", "--catalog", "catalog.json"]
    let settings := "[catalog]\npath = '$\x7bCATALOG\x7d/catalog.json'"
    let report := "dropped: group 0 condition 0: createdon gt (value is not a date)\n"
    (run briefReaders arguments).answer (world settings) =
        { code := 0, output := "?$top=5\n", errors := report } ∧ IsLine report ∧
      (run briefReaders ["compile", "missing.json"]).answer (world "") =
        { code := 1, errors := "Error: reading 'missing.json': No such file or directory (os error 2)\n" } := by
  intro catalog text world arguments settings report
  let i : Invocation := ⟨some "catalog.json", none, .compile "query.json" (some "accounts") true⟩
  let account : Entity := ⟨"account", "accounts", [⟨"createdon", "DateTime", none⟩]⟩
  let served : Catalog := ⟨[account]⟩
  let map : AttributeMap := .ofDefinitions [⟨"createdon", "DateTime", none⟩]
  have accepted : Request.ofArguments arguments = .run i := by decide +kernel
  have found : (Settings.find briefReaders.toml none).answer (world "") = .ok {} := by decide +kernel
  have opens : Opens (world "") {} (some "catalog.json") served := ⟨.named, rfl, by decide +kernel⟩
  have serves : Serves served "accounts" map := by
    have resolved : served.resolve? "accounts" = some account.names := by decide +kernel
    have hfind : (served.entities.find? fun e => Text.sameFolded e.logicalName (Text.trimmed account.names.logical)) =
      some account := by decide +kernel
    refine ⟨resolved, ?_⟩
    rw [Catalog.attributes?, hfind]
    rfl
  obtain ⟨query, decoded, hcompiled⟩ : ∃ query, Json.decodeText Query.decode text = .ok query ∧
      ((query.withAttributes map).compile .emit ==
        ⟨"?$top=5", [⟨0, 0, "createdon", .gt, .unparseableDate⟩]⟩) = true :=
    exists_of_any (by decide +kernel)
  obtain ⟨-, hruns⟩ := runs_all_or_nothing briefReaders arguments (world "")
  obtain ⟨-, -, hcompile, -, hnamed⟩ := hruns i accepted
  obtain ⟨-, hreports⟩ := hcompile "query.json" (some "accounts") true rfl
  obtain ⟨reports, hanswer, hdropped⟩ := hreports {} _ ⟨found, query, ⟨rfl, decoded⟩, .known opens serves⟩
  rw [beq_iff_eq.mp hcompiled] at hanswer hdropped
  obtain ⟨r, _, hr, ⟨⟩, rfl⟩ := List.forall₂_cons_left_iff.mp hdropped
  have htext : r = report := hr.text.trans (by decide +kernel)
  refine ⟨?_, htext ▸ hr.line.mpr (by decide), ?_⟩
  · obtain ⟨-, hsame⟩ := hnamed "catalog.json" rfl
    have alike : Alike briefReaders (world "") (world settings) i i :=
      ⟨rfl, by decide +kernel, by rintro _ ⟨rfl⟩; rfl⟩
    rw [hsame arguments i (world settings) accepted rfl rfl alike, hanswer, htext]
    rfl
  · obtain ⟨-, hruns⟩ := runs_all_or_nothing briefReaders ["compile", "missing.json"] (world "")
    obtain ⟨hfails, -⟩ := hruns ⟨none, none, .compile "missing.json" none false⟩ (by decide +kernel)
    exact (hfails _).mp (.command found (.query rfl (.unread rfl)))

end ODataQuery.CommandLine
