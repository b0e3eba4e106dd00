import ODataQuery.Proofs.Catalog.Agreement
import ODataQuery.Proofs.Text.Trimmed

/-!
A catalog to which entities are added, one after the other. Each takes the place of all that have its name, so that of
a name the last one added stays and is the only one. Both searches see of an identifier only what is left of it without
blanks and in small letters.
-/

namespace ODataQuery

open Text

/-- The entities of a row that no later one replaces, in order. -/
def Entity.lasting : List Entity → List Entity
  | [] => []
  | e :: later => if later.any (sameFolded e.logicalName ·.logicalName) then lasting later else e :: lasting later

namespace Catalog

variable {c : Catalog} {e : Entity} {added : List Entity} {name a b : String}

/-! ### Additions -/

/-- What was there before stays if its name is not added, and of what is added the last of each name stays. -/
theorem entities_added (c : Catalog) (added : List Entity) : (added.foldl insert c).entities =
    c.entities.filter (fun old => !added.any (sameFolded old.logicalName ·.logicalName)) ++ Entity.lasting added := by
  induction added generalizing c with
  | nil => simp [Entity.lasting]
  | cons e later ih =>
      rw [List.foldl_cons, ih, insert, List.filter_append, List.filter_filter, List.append_assoc]
      congr 1
      · refine List.filter_congr fun old _ => ?_
        rw [List.any_cons, Bool.not_or, Bool.and_comm]
      · rw [Entity.lasting, List.filter_singleton]
        cases later.any (sameFolded e.logicalName ·.logicalName) <;> rfl

/-- Of the entities of a row that have a name one is the last. -/
theorem exists_last (h : ∃ e ∈ added, sameFolded e.logicalName name = true) :
    ∃ before last after, added = before ++ last :: after ∧ sameFolded last.logicalName name = true ∧
      ∀ later ∈ after, sameFolded later.logicalName name = false := by
  induction added with
  | nil =>
      obtain ⟨e, he, -⟩ := h
      cases he
  | cons e rest ih =>
      by_cases hrest : ∃ later ∈ rest, sameFolded later.logicalName name = true
      · obtain ⟨before, last, after, rfl, hlast, hafter⟩ := ih hrest
        exact ⟨e :: before, last, after, rfl, hlast, hafter⟩
      · obtain ⟨e', he', hname⟩ := h
        have hnone : ∀ later ∈ rest, sameFolded later.logicalName name = false :=
          fun later hlater => Bool.eq_false_iff.mpr fun hsame => hrest ⟨later, hlater, hsame⟩
        rcases List.mem_cons.mp he' with rfl | hmem
        · exact ⟨[], e', rest, rfl, hname, hnone⟩
        · exact absurd ⟨e', hmem, hname⟩ hrest

/-- Entities of other names leave those of a name as they are. -/
theorem called_foldl_insert (h : ∀ e ∈ added, sameFolded e.logicalName name = false) :
    (added.foldl insert c).called name = c.called name := by
  induction added generalizing c with
  | nil => rfl
  | cons e rest ih =>
      obtain ⟨he, hrest⟩ := List.forall_mem_cons.mp h
      rw [List.foldl_cons, ih hrest, called_insert, he, if_neg Bool.false_ne_true]

/-- The last entity that is added under a name is the only one of the name. -/
theorem called_of_last {before after : List Entity} (hlast : sameFolded e.logicalName name = true)
    (hafter : ∀ later ∈ after, sameFolded later.logicalName name = false) :
    ((before ++ e :: after).foldl insert c).called name = [e] := by
  rw [List.foldl_append, List.foldl_cons, called_foldl_insert hafter, called_insert, if_pos hlast]

/-! ### Identifiers -/

theorem find?_congr (h : sameFolded (trimmed a) (trimmed b) = true) : c.find? a = c.find? b := by
  simp only [find?, eq_empty_iff h, Entity.goesBy, sameFolded_congr h]

theorem attributes?_congr (h : sameFolded (trimmed a) (trimmed b) = true) : c.attributes? a = c.attributes? b := by
  simp only [attributes?, sameFolded_congr h]

theorem trimmed_blanks {s : String} (h : Blanks s.toList) : trimmed s = "" := by
  rw [trimmed, trim, trimStart, List.dropWhile_eq_nil_iff.mpr h]
  rfl

theorem find?_blanks {identifier : String} (h : Blanks identifier.toList) : c.find? identifier = none := by
  rw [find?, trimmed_blanks h]
  rfl

/-- The answer that there is no entity of a name. -/
theorem attributes_eq_error (h : c.attributes? name = none) :
    c.attributes name = .error (.remote "NOT_FOUND" ("no attribute metadata for entity: " ++ name)) := by
  rw [attributes, h]

/-- The last entity that is added under a name stays. Whatever a catalog holds and whatever is added to it, one entity
after the other: what was there stays in its order, but for the names that are added, and behind it stands, in the order
of adding, what no later one replaces, each name once. An identifier with an added name gets the attributes of the last
entity that was added under it. In any catalog two identifiers that differ in blanks around them and in small and
capital letters alone find the same, and where nothing is found the answer names the identifier as it was given. A
blank one stands for no entity. -/
theorem last_added_wins (c : Catalog) (added : List Entity) :
    ((added.foldl insert c).entities =
      c.entities.filter (fun old => !added.any (sameFolded old.logicalName ·.logicalName)) ++ Entity.lasting added) ∧
    (∀ e ∈ added, ((added.foldl insert c).called e.logicalName).length = 1) ∧
    (∀ identifier, (∃ e ∈ added, sameFolded e.logicalName (trimmed identifier) = true) →
      ∃ before last after, added = before ++ last :: after ∧ sameFolded last.logicalName (trimmed identifier) = true ∧
        (∀ later ∈ after, sameFolded later.logicalName (trimmed identifier) = false) ∧
        (added.foldl insert c).attributes identifier = .ok (.ofDefinitions last.definitions)) ∧
    (∀ a b, sameFolded (trimmed a) (trimmed b) = true →
      c.resolve? a = c.resolve? b ∧
      ((∃ map, c.attributes a = .ok map ∧ c.attributes b = .ok map) ∨
        c.attributes a = .error (.remote "NOT_FOUND" ("no attribute metadata for entity: " ++ a)) ∧
        c.attributes b = .error (.remote "NOT_FOUND" ("no attribute metadata for entity: " ++ b)))) ∧
    ∀ identifier : String, Blanks identifier.toList → c.resolve? identifier = none := by
  refine ⟨entities_added c added, fun e he => ?_, fun identifier h => ?_, fun a b h => ⟨?_, ?_⟩, fun identifier h => ?_⟩
  · obtain ⟨before, last, after, rfl, hlast, hafter⟩ := exists_last ⟨e, he, sameFolded_refl e.logicalName⟩
    rw [called_of_last hlast hafter, List.length_singleton]
  · obtain ⟨before, last, after, rfl, hlast, hafter⟩ := exists_last h
    refine ⟨before, last, after, rfl, hlast, hafter, attributes_eq_ok_iff.mpr ⟨last, ?_, rfl⟩⟩
    rw [called_of_last hlast hafter, List.head?_cons]
  · rw [resolve?, resolve?, find?_congr h]
  · have hsame : c.attributes? a = c.attributes? b := attributes?_congr h
    cases hmap : c.attributes? a with
    | none => exact .inr ⟨attributes_eq_error hmap, attributes_eq_error (hsame.symm.trans hmap)⟩
    | some map =>
        refine .inl ⟨map, ?_, ?_⟩
        · rw [attributes, hmap]
        · rw [attributes, ← hsame, hmap]
  · rw [resolve?, find?_blanks h]
    rfl

/-- Both accounts of the catalog stay, of the contacts that are added the last one alone. -/
theorem last_added_wins_contacts :
    let c : Catalog := ⟨[⟨"account", "accounts", []⟩, ⟨"contact", "contacts", []⟩, ⟨"Account", "archive", []⟩]⟩
    let added : List Entity := [⟨"Contact", "people", [⟨"name", "String", none⟩]⟩, ⟨"lead", "leads", []⟩,
      ⟨"CONTACT", "persons", [⟨"age", "Integer", none⟩]⟩]
    (added.foldl insert c).entities.map (·.logicalName) = ["account", "Account", "lead", "CONTACT"] ∧
      ((added.foldl insert c).called "Contact").length = 1 ∧
      ((added.foldl insert c).attributes? " contact\n").map (·.keys) = some ["age"] ∧
      sameFolded (trimmed " ACCOUNT\n") (trimmed "account") = true ∧ c.resolve? " ACCOUNT\n" = c.resolve? "account" ∧
      Blanks "\t".toList ∧ c.resolve? "\t" = none := by
  intro c added
  obtain ⟨hentries, honce, -, hsame, hblank⟩ := last_added_wins c added
  have haccount : sameFolded (trimmed " ACCOUNT\n") (trimmed "account") = true := by decide +kernel
  have htab : Blanks "\t".toList := List.all_eq_true.mp (by decide)
  have hcontact := honce ⟨"Contact", "people", [⟨"name", "String", none⟩]⟩ List.mem_cons_self
  refine ⟨?_, hcontact, ?_, haccount, (hsame _ _ haccount).1, htab, hblank _ htab⟩
  · rw [hentries]
    decide +kernel
  · decide +kernel

end Catalog

end ODataQuery
