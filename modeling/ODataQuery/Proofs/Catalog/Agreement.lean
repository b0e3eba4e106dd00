import ODataQuery.Catalog.Provider
import ODataQuery.Proofs.Text.Folded

/-!
The two searches in a catalog. An identifier finds an entity by either of its names, and its attributes are
then asked for under its own name. The second search takes the first entity of that name, and it frees the
name it is given of blanks, but not the names in the catalog. So it may miss the entity that was found: where
a catalog as it is read has the name twice, and where the name has blanks around it. An entity that is added
later takes the place of all others of its name.
-/

namespace ODataQuery

open Text

/-- The entity's own name has no blanks around it. -/
def Entity.Unpadded (e : Entity) : Prop := trimmed e.logicalName = e.logicalName

instance (e : Entity) : Decidable e.Unpadded := inferInstanceAs (Decidable (_ = _))

/-- The entities whose own name is the one given. -/
def Catalog.called (c : Catalog) (name : String) : List Entity :=
  c.entities.filter fun e => sameFolded e.logicalName name

namespace Catalog

variable {c : Catalog} {e : Entity} {name identifier : String}

theorem mem_called : e ∈ c.called name ↔ e ∈ c.entities ∧ sameFolded e.logicalName name = true := List.mem_filter

theorem mem_of_find? (h : c.find? identifier = some e) : e ∈ c.entities := by
  rw [find?] at h
  split at h
  · cases h
  · exact List.mem_of_find?_eq_some h

/-- The attributes are those of the first entity that has the name, freed of blanks. -/
theorem attributes_eq_ok_iff {map : AttributeMap} :
    c.attributes name = .ok map ↔
      ∃ first, (c.called (trimmed name)).head? = some first ∧ .ofDefinitions first.definitions = map := by
  have hfirst : c.attributes? name =
      (c.called (trimmed name)).head?.map fun first => .ofDefinitions first.definitions := by
    rw [called, List.head?_filter]
    rfl
  rw [attributes, hfirst]
  cases (c.called (trimmed name)).head? with
  | none => simp
  | some first => simp

/-- An entity can be the first of its own name, freed of blanks, only if the name has none. -/
theorem head?_called_trimmed_iff :
    (c.called (trimmed e.logicalName)).head? = some e ↔ e.Unpadded ∧ (c.called e.logicalName).head? = some e := by
  constructor
  · intro h
    have hmem : e ∈ c.called (trimmed e.logicalName) := List.mem_of_head? h
    have hunpadded : e.Unpadded := sameFolded_trimmed_iff.mp (mem_called.mp hmem).2
    refine ⟨hunpadded, ?_⟩
    rwa [hunpadded] at h
  · rintro ⟨hunpadded, h⟩
    rwa [hunpadded]

/-- An entity that is added is the only one of its name. Of all other names the entities stay. -/
theorem called_insert : (c.insert e).called name = if sameFolded e.logicalName name then [e] else c.called name := by
  rw [called, insert, List.filter_append, List.filter_filter]
  cases hname : sameFolded e.logicalName name with
  | true =>
      have hnone : c.entities.filter (fun old =>
          sameFolded old.logicalName name && !sameFolded old.logicalName e.logicalName) = [] := by
        simp [sameFolded_congr hname]
      rw [hnone, List.filter_singleton, hname]
      rfl
  | false =>
      have hkept : ∀ old ∈ c.entities,
          (sameFolded old.logicalName name && !sameFolded old.logicalName e.logicalName) =
            sameFolded old.logicalName name := by
        intro old _
        cases hold : sameFolded old.logicalName name with
        | false => rfl
        | true =>
            have hother : sameFolded old.logicalName e.logicalName = false := by
              rw [sameFolded, sameFolded_iff.mp hold]
              exact BEq.comm.trans hname
            rw [hother]
            rfl
      rw [List.filter_congr hkept, List.filter_singleton, hname, cond_false, List.append_nil]
      rfl

/-- There is at most one entity of a name, if one of that name was added or there was at most one before. -/
theorem length_called_added {added : List Entity}
    (h : (∃ a ∈ added, sameFolded a.logicalName name = true) ∨ (c.called name).length ≤ 1) :
    ((added.foldl insert c).called name).length ≤ 1 := by
  induction added generalizing c with
  | nil =>
      rcases h with ⟨a, ha, -⟩ | h
      · cases ha
      · exact h
  | cons a rest ih =>
      refine ih ?_
      rw [called_insert]
      cases hname : sameFolded a.logicalName name with
      | true => exact Or.inr (Nat.le_refl 1)
      | false =>
          rcases h with ⟨a', ha', hname'⟩ | h
          · rcases List.mem_cons.mp ha' with rfl | hmem
            · cases hname.symm.trans hname'
            · exact Or.inl ⟨a', hmem, hname'⟩
          · exact Or.inr h

theorem head?_called_of_length_le_one (he : e ∈ c.entities) (h : (c.called e.logicalName).length ≤ 1) :
    (c.called e.logicalName).head? = some e := by
  have hmem : e ∈ c.called e.logicalName := mem_called.mpr ⟨he, sameFolded_refl _⟩
  obtain ⟨e', hcalled⟩ : ∃ e', c.called e.logicalName = [e'] :=
    List.length_eq_one_iff.mp (Nat.le_antisymm h (List.length_pos_of_mem hmem))
  rw [hcalled] at hmem ⊢
  rw [List.mem_singleton.mp hmem]
  rfl

/-- When the attributes are those of the entity that an identifier found. This is so if the first entity of its
name without blanks has the same attributes; that entity is the one found if its name has no blanks around it
and is that of no entity before it. A name that is added, or was not there twice, is of one entity only. -/
theorem attributes_of_found (c : Catalog) (added : List Entity) {identifier : String} {e : Entity}
    (h : (added.foldl insert c).find? identifier = some e) :
    let d := added.foldl insert c
    d.resolve? identifier = some e.names ∧
      (d.attributes e.names.logical = .ok (.ofDefinitions e.definitions) ↔
        ∃ first, (d.called (trimmed e.logicalName)).head? = some first ∧
          AttributeMap.ofDefinitions first.definitions = .ofDefinitions e.definitions) ∧
      ((d.called (trimmed e.logicalName)).head? = some e ↔
        e.Unpadded ∧ (d.called e.logicalName).head? = some e) ∧
      (e.Unpadded →
        (∃ a ∈ added, sameFolded a.logicalName e.logicalName = true) ∨ (c.called e.logicalName).length ≤ 1 →
          d.attributes e.names.logical = .ok (.ofDefinitions e.definitions)) := by
  intro d
  refine ⟨?_, attributes_eq_ok_iff, head?_called_trimmed_iff, ?_⟩
  · rw [resolve?, h]
    rfl
  · intro hunpadded hone
    have hfirst : (d.called e.logicalName).head? = some e :=
      head?_called_of_length_le_one (mem_of_find? h) (length_called_added hone)
    exact attributes_eq_ok_iff.mpr ⟨e, head?_called_trimmed_iff.mpr ⟨hunpadded, hfirst⟩, rfl⟩

/-- An entity found by the name of its set, after another one of that name was replaced. -/
theorem attributes_of_found_by_set :
    let c : Catalog := ⟨[⟨"account", "accounts", [⟨"name", "String", none⟩]⟩,
      ⟨"contact", "account", [⟨"fullname", "String", none⟩]⟩]⟩
    let added : List Entity := [⟨"Account", "clients", []⟩]
    let d := added.foldl insert c
    d.resolve? " ACCOUNT " = some ⟨"account", "contact"⟩ ∧
      d.attributes "contact" = .ok (.ofDefinitions [⟨"fullname", "String", none⟩]) := by
  intro c added d
  have hfound : d.find? " ACCOUNT " = some ⟨"contact", "account", [⟨"fullname", "String", none⟩]⟩ := by
    decide +kernel
  obtain ⟨hnames, -, -, hattributes⟩ := attributes_of_found c added hfound
  exact ⟨hnames, hattributes (by decide +kernel) (Or.inr (by decide +kernel))⟩

/-- A name that is there twice leads to the attributes of another entity, and one with a blank to none. -/
example :
    let c : Catalog := ⟨[⟨"account", "accounts", [⟨"name", "String", none⟩]⟩,
      ⟨"Account", "archive", [⟨"closedon", "DateTime", none⟩]⟩, ⟨" contact", "contacts", []⟩]⟩
    c.resolve? "archive" = some ⟨"archive", "Account"⟩ ∧
      (c.attributes? "Account").map (·.keys) = some ["name"] ∧
      c.resolve? "contacts" = some ⟨"contacts", " contact"⟩ ∧ (c.attributes? " contact").isNone := by
  decide +kernel

end Catalog

end ODataQuery
