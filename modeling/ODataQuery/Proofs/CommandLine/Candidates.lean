import ODataQuery.Proofs.CommandLine.Commands
import ODataQuery.Proofs.CommandLine.Directories

/-!
Where the settings of a run come from. Of the places that may hold settings the first that says anything decides alone.
What is broken there is not made up for by a later place: nothing later is looked at.
-/

namespace ODataQuery

/-- What is known of a reader of documents: a blank text is a document without entries. -/
def Toml.Reader.Documented (reader : Toml.Reader) : Prop := reader.value? "" = some (.table [])

namespace Settings

/-- Where settings may come from. -/
inductive Candidate where
  /-- A file that the command line names. -/
  | argument (path : String)
  /-- A file that the variable names. -/
  | named (path : String)
  /-- The file in the working directory. -/
  | here
  /-- The file in the user's directory of settings. -/
  | user (path : String)
  /-- The default ones. The user's file is not there, if there is a directory for it. -/
  | standard (missing : Option String)
  deriving DecidableEq

namespace Candidate

/-- The file of a candidate. -/
def path? : Candidate → Option String
  | argument path | named path | user path => some path
  | here => some localFile
  | standard _ => none

/-- The settings of a candidate, or what is wrong with its file. -/
def settings (reader : Toml.Reader) (files : String → FileState) (c : Candidate) : Except SettingsError Settings :=
  match c.path? with
  | some path => ofFile reader path (files path)
  | none => .ok {}

/-- What has to be looked at to find out that a candidate is the first, and to read it. -/
def looks : Candidate → List Look
  | argument path => [.file path]
  | named path => [.environment fileVariable, .file path]
  | here => [.environment fileVariable, .file localFile]
  | user path => [.environment fileVariable, .file localFile, .settingsDirectory, .file path]
  | standard missing =>
    [.environment fileVariable, .file localFile, .settingsDirectory] ++ missing.toList.map .file

end Candidate

/-- The user's file, if there is a directory for it. -/
def userFile? (w : Surroundings) : Option String := w.settingsDirectory.map userFile

/-- The candidates in their order: each is the first if there is none before it. A file that is named is a candidate
even if it is not there. -/
inductive First (w : Surroundings) : Option String → Candidate → Prop where
  | argument {path} : First w (some path) (.argument path)
  | named {path} (named : w.values fileVariable = some path) : First w none (.named path)
  | here (unnamed : w.values fileVariable = none) (there : (w.files localFile).exists? = true) : First w none .here
  | user {path} (unnamed : w.values fileVariable = none) (nothing : (w.files localFile).exists? = false)
      (directory : userFile? w = some path) (there : (w.files path).exists? = true) : First w none (.user path)
  | standard {missing} (unnamed : w.values fileVariable = none) (nothing : (w.files localFile).exists? = false)
      (directory : userFile? w = missing) (noFile : ∀ path ∈ missing, (w.files path).exists? = false) :
      First w none (.standard missing)

/-- What is wrong with a file of settings, and the message about it. A directory is a file that cannot be read. -/
inductive Broken (reader : Toml.Reader) (path : String) : FileState → String → Prop where
  | missing {why} : Broken reader path (.absent why) ("Config file not found: " ++ path)
  | unreadable {why} : Broken reader path (.unreadable why) ("Failed to read config file: " ++ why)
  | malformed {text} (unread : (reader.value? text).bind ofToml? = none) :
      Broken reader path (.text text) ("Failed to parse config file: " ++ reader.reason text)

variable {reader : Toml.Reader} {w w' : Surroundings} {config : Option String} {c c' : Candidate}
  {path message : String} {state : FileState}

theorem broken_iff :
    Broken reader path state message ↔ ∃ e, ofFile reader path state = .error e ∧ e.message = message := by
  constructor
  · intro h
    cases h with
    | missing | unreadable => exact ⟨_, rfl, rfl⟩
    | malformed unread =>
        rw [ofFile, ofText, unread]
        exact ⟨_, rfl, rfl⟩
  · rintro ⟨e, h, rfl⟩
    cases state with
    | absent why =>
        cases h
        exact .missing
    | unreadable why =>
        cases h
        exact .unreadable
    | text s =>
        rw [ofFile, ofText] at h
        split at h
        · cases h
        · rename_i hnone
          cases h
          exact .malformed hnone

theorem ofFile_blank (documented : reader.Documented) : ofFile reader path (.text "") = .ok {} := by
  rw [ofFile, ofText, documented]
  rfl

/-! ### The first candidate -/

theorem exists_first (config : Option String) : ∃ c, First w config c := by
  cases config with
  | some path => exact ⟨_, .argument⟩
  | none =>
      cases hnamed : w.values fileVariable with
      | some path => exact ⟨_, .named hnamed⟩
      | none =>
          cases hhere : (w.files localFile).exists? with
          | true => exact ⟨_, .here hnamed hhere⟩
          | false =>
              cases huser : userFile? w with
              | none => exact ⟨_, .standard hnamed hhere huser nofun⟩
              | some path =>
                  cases hthere : (w.files path).exists? with
                  | true => exact ⟨_, .user hnamed hhere huser hthere⟩
                  | false =>
                      refine ⟨_, .standard hnamed hhere huser ?_⟩
                      intro path' hpath'
                      cases hpath'
                      exact hthere

/-- What the search comes to and what it looks at, once it is known that no file is named. -/
theorem answer_fromUserDirectory : (fromUserDirectory reader).answer w =
    (userFile? w).elim (.ok {}) fun path => ofUserFile reader path (w.files path) := by
  unfold fromUserDirectory userFile?
  rw [Consult.answer_bind, Consult.answer_userDirectory]
  cases w.settingsDirectory <;> rfl

theorem looks_fromUserDirectory :
    (fromUserDirectory reader).looks w = .settingsDirectory :: (userFile? w).toList.map .file := by
  unfold fromUserDirectory userFile?
  rw [Consult.looks_bind, Consult.answer_userDirectory, Consult.looks_userDirectory]
  cases w.settingsDirectory <;> rfl

theorem First.answer (h : First w config c) : (find reader config).answer w = c.settings reader w.files := by
  cases h with
  | argument => rfl
  | named named => simp [find, fromUsualPlaces, fromFile, named, Candidate.settings, Candidate.path?]
  | here unnamed there => simp [find, fromUsualPlaces, unnamed, there, Candidate.settings, Candidate.path?]
  | user unnamed nothing directory there =>
      simp [find, fromUsualPlaces, unnamed, nothing, answer_fromUserDirectory, directory, ofUserFile, there,
        Candidate.settings, Candidate.path?]
  | @standard missing unnamed nothing directory noFile =>
      simp only [find, fromUsualPlaces, unnamed, nothing, Consult.answer_bind, Consult.answer_valueOf,
        Consult.answer_fileAt, answer_fromUserDirectory, directory, Bool.false_eq_true, if_false]
      cases missing with
      | none => rfl
      | some path => simp [ofUserFile, noFile path rfl, Candidate.settings, Candidate.path?]

theorem First.looks (h : First w config c) : (find reader config).looks w = c.looks := by
  cases h with
  | argument => rfl
  | named named => simp [find, fromUsualPlaces, fromFile, named, Candidate.looks]
  | here unnamed there => simp [find, fromUsualPlaces, unnamed, there, Candidate.looks]
  | user unnamed nothing directory there =>
      simp [find, fromUsualPlaces, unnamed, nothing, looks_fromUserDirectory, directory, Candidate.looks]
  | standard unnamed nothing directory noFile =>
      simp [find, fromUsualPlaces, unnamed, nothing, looks_fromUserDirectory, directory, Candidate.looks]

theorem First.unique (h : First w config c) (h' : First w config c') : c' = c := by
  cases h with
  | argument =>
      cases h'
      rfl
  | named named =>
      cases h' with
      | named named' =>
          cases named.symm.trans named'
          rfl
      | here unnamed | user unnamed | standard unnamed => cases named.symm.trans unnamed
  | here unnamed there =>
      cases h' with
      | named named => cases named.symm.trans unnamed
      | here => rfl
      | user _ nothing | standard _ nothing => cases there.symm.trans nothing
  | user unnamed nothing directory there =>
      cases h' with
      | named named => cases named.symm.trans unnamed
      | here _ there' => cases there'.symm.trans nothing
      | user _ _ directory' =>
          cases directory.symm.trans directory'
          rfl
      | standard _ _ directory' noFile =>
          cases there.symm.trans (noFile _ (directory'.symm.trans directory))
  | standard unnamed nothing directory noFile =>
      cases h' with
      | named named => cases named.symm.trans unnamed
      | here _ there => cases there.symm.trans nothing
      | user _ _ directory' there => cases there.symm.trans (noFile _ (directory.symm.trans directory'))
      | standard _ _ directory' =>
          cases directory.symm.trans directory'
          rfl

/-- A candidate is still the first where all that shows it is the same. -/
theorem First.congr (h : First w config c) (hsame : ∀ look ∈ c.looks, look.Same w w') : First w' config c := by
  have huser : w'.settingsDirectory = w.settingsDirectory → userFile? w' = userFile? w := congrArg (Option.map userFile)
  cases h with
  | argument => exact .argument
  | named named =>
      have hvariable : w'.values fileVariable = w.values fileVariable :=
        hsame (.environment fileVariable) (by simp [Candidate.looks])
      exact .named (hvariable.trans named)
  | here unnamed there =>
      obtain ⟨hvariable, hhere⟩ : w'.values fileVariable = w.values fileVariable ∧
          w'.files localFile = w.files localFile := by
        simpa [Candidate.looks, Look.Same] using hsame
      exact .here (hvariable.trans unnamed) (hhere ▸ there)
  | @user path unnamed nothing directory there =>
      obtain ⟨hvariable, hhere, hdirectory, hpath⟩ : w'.values fileVariable = w.values fileVariable ∧
          w'.files localFile = w.files localFile ∧ w'.settingsDirectory = w.settingsDirectory ∧
          w'.files path = w.files path := by
        simpa [Candidate.looks, Look.Same] using hsame
      exact .user (hvariable.trans unnamed) (hhere ▸ nothing) ((huser hdirectory).trans directory) (hpath ▸ there)
  | @standard missing unnamed nothing directory noFile =>
      obtain ⟨hbefore, hmissing⟩ := List.forall_mem_append.mp hsame
      obtain ⟨hvariable, hhere, hdirectory⟩ : w'.values fileVariable = w.values fileVariable ∧
          w'.files localFile = w.files localFile ∧ w'.settingsDirectory = w.settingsDirectory := by
        simpa [Look.Same] using hbefore
      refine .standard (hvariable.trans unnamed) (hhere ▸ nothing) ((huser hdirectory).trans directory) ?_
      intro path hpath
      have hfile : w'.files path = w.files path :=
        hmissing (.file path) (List.mem_map.mpr ⟨path, Option.mem_toList.mpr hpath, rfl⟩)
      rw [hfile]
      exact noFile path hpath

/-- Only the file of a candidate matters to its settings. -/
theorem Candidate.settings_congr {files files' : String → FileState}
    (h : ∀ path, c.path? = some path → files' path = files path) :
    c.settings reader files' = c.settings reader files := by
  unfold Candidate.settings
  split
  · rename_i path hpath
    rw [h path hpath]
  · rfl

/-- Only a file that is named need not be there. -/
theorem First.named_of_missing (h : First w config c) (hpath : c.path? = some path)
    (missing : (w.files path).exists? = false) : c = .argument path ∨ c = .named path := by
  cases h with
  | argument =>
      cases hpath
      exact Or.inl rfl
  | named =>
      cases hpath
      exact Or.inr rfl
  | here _ there | user _ _ _ there =>
      cases hpath
      cases there.symm.trans missing
  | standard => cases hpath

/-- There are no settings if and only if the file of the first candidate is broken. -/
theorem First.failed_iff (h : First w config c) :
    (∃ e, (find reader config).answer w = .error e ∧ e.message = message) ↔
      ∃ path, c.path? = some path ∧ Broken reader path (w.files path) message := by
  rw [h.answer, Candidate.settings]
  cases hpath : c.path? with
  | none => simp
  | some path => simp [broken_iff]

open CommandLine in
/-- Without settings every command fails in the same way. -/
theorem run_of_error {readers : Readers} {e : SettingsError} {arguments : List String} {i : Invocation}
    (accepted : Request.ofArguments arguments = .run i) (h : (find readers.toml i.config).answer w = .error e) :
    (CommandLine.run readers arguments).answer w = { code := 1, errors := "Error: " ++ e.message ++ "\n" } := by
  rw [answer_run accepted, answer_invocation, h]
  rfl

/-- In surroundings where the directory of settings is searched by the conventions, the two variables on which these
depend show where it is. -/
theorem same_of_documented {look : Look} (documented : w.search.Documented) (documented' : w'.search.Documented)
    (account : w'.account = w.account)
    (same : ∀ name ∈ [fileVariable, directoryVariable, homeVariable], w'.values name = w.values name)
    (hlook : look ∈ c.looks) (files : ∀ path, .file path ∈ c.looks → w'.files path = w.files path) :
    look.Same w w' := by
  obtain ⟨hnamed, hsearched⟩ := List.forall_mem_cons.mp same
  cases look with
  | file path => exact files path hlook
  | environment name =>
      have hname : name = fileVariable := by
        cases c <;> simp [Candidate.looks] at hlook <;> exact hlook
      rw [hname]
      exact hnamed
  | settingsDirectory =>
      show w'.search w'.values w'.account = w.search w.values w.account
      rw [account]
      exact documented.congr documented' hsearched

/-- The first candidate decides on the settings, whatever stands at later places: nothing later is looked at. If its
file is broken, every command fails by this; a file that is not there is broken only if it was named, and one that is
blank holds the default settings. Where the same candidate is the first and its file is the same, so are the settings,
or what is wrong with them; it is the first where all that shows it is the same, which by the conventions on the user's
directory depends on three variables, the account and the files. -/
theorem first_candidate_decides (readers : CommandLine.Readers) (config : Option String) (w : Surroundings) :
    ∃ c, First w config c ∧ (∀ c', First w config c' → c' = c) ∧
      (find readers.toml config).answer w = c.settings readers.toml w.files ∧
      (find readers.toml config).looks w = c.looks ∧
      (∀ path message, c.path? = some path → Broken readers.toml path (w.files path) message →
        ((w.files path).exists? = false → c = .argument path ∨ c = .named path) ∧
        ∀ arguments i, CommandLine.Request.ofArguments arguments = .run i → i.config = config →
          (CommandLine.run readers arguments).answer w = { code := 1, errors := "Error: " ++ message ++ "\n" }) ∧
      (∀ path, c.path? = some path → w.files path = .text "" → readers.toml.Documented →
        (find readers.toml config).answer w = .ok {}) ∧
      (∀ w', (∀ look ∈ c.looks, look.Same w w') →
        First w' config c ∧ (find readers.toml config).answer w' = (find readers.toml config).answer w) ∧
      (∀ w', First w' config c → (∀ path, c.path? = some path → w'.files path = w.files path) →
        (find readers.toml config).answer w' = (find readers.toml config).answer w) ∧
      ∀ w', w.search.Documented → w'.search.Documented → w'.account = w.account →
        (∀ name ∈ [fileVariable, directoryVariable, homeVariable], w'.values name = w.values name) →
        (∀ path, .file path ∈ c.looks → w'.files path = w.files path) →
        First w' config c ∧ (find readers.toml config).answer w' = (find readers.toml config).answer w := by
  obtain ⟨c, first⟩ : ∃ c, First w config c := exists_first config
  have hsame : ∀ w', (∀ look ∈ c.looks, look.Same w w') →
      First w' config c ∧ (find readers.toml config).answer w' = (find readers.toml config).answer w := by
    intro w' hsame
    refine ⟨first.congr hsame, Consult.answer_congr ?_⟩
    rw [first.looks]
    exact hsame
  refine ⟨c, first, fun c' first' => first.unique first', first.answer, first.looks, ?_, ?_, hsame, ?_, ?_⟩
  · intro path message hpath broken
    refine ⟨first.named_of_missing hpath, ?_⟩
    rintro arguments i accepted rfl
    obtain ⟨e, hfound, rfl⟩ := first.failed_iff.mpr ⟨path, hpath, broken⟩
    exact run_of_error accepted hfound
  · intro path hpath blank documented
    rw [first.answer, Candidate.settings, hpath]
    show ofFile readers.toml path (w.files path) = .ok {}
    rw [blank, ofFile_blank documented]
  · intro w' first' hfile
    rw [first'.answer, first.answer, Candidate.settings_congr hfile]
  · intro w' documented documented' account same files
    exact hsame w' fun look hlook => same_of_documented documented documented' account same hlook files

/-- The file in the working directory is no document, though the user's file, in the home directory on record, is there
and well formed. Every command fails with what the reader has to say, also where another variable is set. If the file
were blank, the settings would be the default ones, and the user's file would count only if there were no file here. -/
theorem first_candidate_decides_malformed :
    let reason := "TOML parse error at line 1, column 4\n  |\n1 | bad\n  |    ^\nkey with no value, expected `=`\n"
    let readers : CommandLine.Readers := { CommandLine.briefReaders with toml := ⟨Toml.read?, fun _ => reason⟩ }
    let absent := FileState.absent "No such file or directory (os error 2)"
    let files := fun file path =>
      if path = localFile then file
      else if path = "/home/user/.config/formscope/config.toml" then .text "[compiler]\nnan_literal = 'drop'"
      else absent
    let world := fun file language => (⟨files file, fun name => if name = "LANG" then language else none,
      some "/home/user", usualSearch⟩ : Surroundings)
    (CommandLine.run readers ["compile", "query.json"]).answer (world (.text "bad") none) =
        { code := 1, errors := "Error: Failed to parse config file: " ++ reason ++ "\n" } ∧
      (find readers.toml none).answer (world (.text "bad") (some "C")) = .error (.malformed reason) ∧
      (find readers.toml none).answer (world (.text "") none) = .ok {} ∧
      (find readers.toml none).answer (world absent none) = .ok { nanPolicy := .drop } := by
  intro reason readers absent files world
  obtain ⟨c, first, unique, answer, -, broken, -, -, -, agree⟩ :=
    first_candidate_decides readers none (world (.text "bad") none)
  obtain rfl : Candidate.here = c := unique _ (.here rfl rfl)
  obtain ⟨b, -, uniqueBlank, -, -, -, blank, -⟩ := first_candidate_decides readers none (world (.text "") none)
  obtain rfl : Candidate.here = b := uniqueBlank _ (.here rfl rfl)
  obtain ⟨d, -, unique', answer', -⟩ := first_candidate_decides readers none (world absent none)
  obtain rfl : Candidate.user "/home/user/.config/formscope/config.toml" = d :=
    unique' _ (.user rfl rfl (by decide +kernel) rfl)
  refine ⟨?_, ?_, ?_, ?_⟩
  · obtain ⟨-, fails⟩ := broken localFile _ rfl (.malformed (by decide +kernel))
    exact fails ["compile", "query.json"] ⟨none, none, .compile "query.json" none false⟩ (by decide +kernel) rfl
  · obtain ⟨-, hsame⟩ := agree (world (.text "bad") (some "C")) usualSearch_documented usualSearch_documented rfl
      (by decide) (fun _ _ => rfl)
    rw [hsame, answer]
    decide +kernel
  · have documented : readers.toml.Documented := by rfl
    exact blank localFile rfl rfl documented
  · rw [answer']
    decide +kernel

end Settings

end ODataQuery
