import ODataQuery.CommandLine.Directories

/-!
What a search for the user's directory of settings is known to do. Of the places that the conventions name the first
one counts, and a search that keeps to them depends on nothing but two variables and the records of the system.
-/

namespace ODataQuery

/-- The places where the conventions put the directory. A variable may name it by an absolute path, which comes first;
then comes the home directory in the other variable, unless it is blank, and last the one on record. -/
inductive DirectoryAt (values : String → Option String) (account : Option String) : String → Prop where
  | named {directory} (set : values directoryVariable = some directory) (absolute : Path.isAbsolute directory = true) :
      DirectoryAt values account directory
  | atHome {home}
      (unnamed : ∀ directory, values directoryVariable = some directory → Path.isAbsolute directory = false)
      (set : values homeVariable = some home) (notBlank : home ≠ "") : DirectoryAt values account (directoryIn home)
  | onRecord {home}
      (unnamed : ∀ directory, values directoryVariable = some directory → Path.isAbsolute directory = false)
      (homeless : ∀ home, values homeVariable = some home → home = "") (record : account = some home) :
      DirectoryAt values account (directoryIn home)

/-- A search keeps to the conventions. -/
def DirectorySearch.Documented (search : DirectorySearch) : Prop :=
  ∀ values account directory, search values account = some directory ↔ DirectoryAt values account directory

variable {values values' : String → Option String} {account : Option String} {directory : String}

theorem DirectoryAt.congr (h : DirectoryAt values account directory)
    (same : ∀ name ∈ [directoryVariable, homeVariable], values' name = values name) :
    DirectoryAt values' account directory := by
  obtain ⟨hdirectory, hhome⟩ : values' directoryVariable = values directoryVariable ∧
      values' homeVariable = values homeVariable := by
    simpa using same
  cases h with
  | named set absolute => exact .named (hdirectory.trans set) absolute
  | atHome unnamed set notBlank => exact .atHome (hdirectory ▸ unnamed) (hhome.trans set) notBlank
  | onRecord unnamed homeless record => exact .onRecord (hdirectory ▸ unnamed) (hhome ▸ homeless) record

/-- Searches that keep to the conventions find the same, given the same two variables and the same record. -/
theorem DirectorySearch.Documented.congr {search search' : DirectorySearch} (documented : search.Documented)
    (documented' : search'.Documented)
    (same : ∀ name ∈ [directoryVariable, homeVariable], values' name = values name) :
    search' values' account = search values account := by
  apply Option.ext
  intro directory
  rw [documented', documented]
  exact ⟨fun h => h.congr fun name hname => (same name hname).symm, fun h => h.congr same⟩

/-- A variable counts only if its value will do. -/
theorem filter_eq_none_of {value : Option String} {p : String → Bool} (h : ∀ a, value = some a → p a = false) :
    value.filter p = none := by
  rw [Option.filter_eq_none_iff]
  intro a ha
  rw [h a ha]
  decide

theorem usualSearch_documented : usualSearch.Documented := by
  intro values account directory
  unfold usualSearch
  constructor
  · intro h
    rcases Option.or_eq_some_iff.mp h with hnamed | ⟨hunnamed, hplace⟩
    · obtain ⟨hset, habsolute⟩ := Option.filter_eq_some_iff.mp hnamed
      exact .named hset habsolute
    · have unnamed : ∀ directory, values directoryVariable = some directory → Path.isAbsolute directory = false := by
        intro directory hset
        simpa using Option.filter_eq_none_iff.mp hunnamed directory hset
      obtain ⟨home, hhome, rfl⟩ := Option.map_eq_some_iff.mp hplace
      rcases Option.or_eq_some_iff.mp hhome with hset | ⟨hhomeless, hrecord⟩
      · obtain ⟨hset, hnotBlank⟩ := Option.filter_eq_some_iff.mp hset
        exact .atHome unnamed hset (of_decide_eq_true hnotBlank)
      · refine .onRecord unnamed ?_ hrecord
        intro home hset
        simpa using Option.filter_eq_none_iff.mp hhomeless home hset
  · intro h
    refine Option.or_eq_some_iff.mpr ?_
    cases h with
    | named set absolute => exact .inl (Option.filter_eq_some_iff.mpr ⟨set, absolute⟩)
    | atHome unnamed set notBlank =>
        refine .inr ⟨filter_eq_none_of unnamed, Option.map_eq_some_iff.mpr ⟨_, Option.or_eq_some_iff.mpr ?_, rfl⟩⟩
        exact .inl (Option.filter_eq_some_iff.mpr ⟨set, decide_eq_true notBlank⟩)
    | onRecord unnamed homeless record =>
        refine .inr ⟨filter_eq_none_of unnamed, Option.map_eq_some_iff.mpr ⟨_, Option.or_eq_some_iff.mpr ?_, rfl⟩⟩
        refine .inr ⟨filter_eq_none_of ?_, record⟩
        intro home hset
        rw [homeless home hset]
        rfl

end ODataQuery
