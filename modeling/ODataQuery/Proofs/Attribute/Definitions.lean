import Mathlib.Data.List.Forall2
import Mathlib.Data.List.Pairwise
import ODataQuery.Attribute.Map
import ODataQuery.Proofs.Text.Folded

/-!
The map that a list of definitions gives. A name has what its last definition says, so that the ones before it can be
left out. The platform's name for a type is looked up by its stem, which is what is left of it without blanks around it,
in small letters and without one ending `type`. Variants of a name have one stem, and so they stand for one type.
-/

namespace ODataQuery

open Text

/-! ### Names for types -/

namespace AttributeType

/-- What a type is looked up by. -/
def stem (raw : String) : List Char := dropTypeEnding (fold (trimmed raw)).toList

/-- The name ends in `type`, in small letters or in capitals. -/
def EndsInType (name : String) : Prop := "type".toList <:+ (fold name).toList

instance (name : String) : Decidable (EndsInType name) := inferInstanceAs (Decidable (_ <:+ _))

/-- Texts that stand for one name: they differ in the blanks around them and in small and capital letters alone, or one
is the other with an ending `type`, which that one does not have. -/
inductive Variant : String → String → Prop where
  | alike {a b} : sameFolded (trimmed a) (trimmed b) = true → Variant a b
  | ending {name ending} : trimmed name = name → ¬ EndsInType name → fold ending = "type" →
      Variant name (name ++ ending)
  | symm {a b} : Variant a b → Variant b a
  | trans {a b c} : Variant a b → Variant b c → Variant a c

variable {raw name ending word a b : String} {cs : List Char} {t : AttributeType}

theorem dropTypeEnding_append (cs : List Char) : dropTypeEnding (cs ++ "type".toList) = cs := by
  have hlength : (cs ++ "type".toList).length - 4 = cs.length := by
    rw [List.length_append]
    exact Nat.add_sub_cancel ..
  rw [dropTypeEnding, if_pos (List.isSuffixOf_iff_suffix.mpr (List.suffix_append ..)), hlength, List.take_left]

theorem dropTypeEnding_eq_self (h : ¬ "type".toList <:+ cs) : dropTypeEnding cs = cs :=
  if_neg fun hends => h (List.isSuffixOf_iff_suffix.mp hends)

/-- The ending is taken off once. -/
theorem dropTypeEnding_eq_iff {word : List Char} (hword : ¬ "type".toList <:+ word) :
    dropTypeEnding cs = word ↔ cs = word ∨ cs = word ++ "type".toList := by
  constructor
  · rintro rfl
    by_cases hends : "type".toList <:+ cs
    · obtain ⟨cs, rfl⟩ := hends
      rw [dropTypeEnding_append]
      exact .inr rfl
    · exact .inl (dropTypeEnding_eq_self hends).symm
  · rintro (rfl | rfl)
    · exact dropTypeEnding_eq_self hword
    · exact dropTypeEnding_append word

/-- An ending `type` has no blanks, so that it stays when the text is trimmed. -/
theorem trimmed_append_ending (hname : trimmed name = name) (hending : fold ending = "type") :
    trimmed (name ++ ending) = name ++ ending := by
  have hsolid : ∀ c ∈ ending.toList, isBlank c = false := by
    apply not_isBlank_of_fold
    rw [hending]
    have htype : "type".toList.all (!isBlank ·) = true := by decide
    simpa using htype
  have hne : ending.toList ≠ [] := by
    intro hnil
    have hempty := toList_fold ending
    rw [hnil, hending] at hempty
    cases hempty
  have htight : Tight (name.toList ++ ending.toList) := by
    rw [← hname, toList_trimmed]
    cases htrim : trim name.toList with
    | nil => exact tight_of_not_blank hsolid
    | cons c cs =>
        have henclose := (tight_trim name.toList).enclose (tight_of_not_blank hsolid) (by simp [htrim]) hne []
        rwa [List.append_nil, htrim] at henclose
  rw [← String.toList_inj, toList_trimmed, String.toList_append, htight.trim_eq]

theorem stem_append_ending (hname : trimmed name = name) (hnot : ¬ EndsInType name) (hending : fold ending = "type") :
    stem (name ++ ending) = stem name := by
  rw [stem, stem, trimmed_append_ending hname hending, hname, fold_append, hending, String.toList_append,
    dropTypeEnding_append, dropTypeEnding_eq_self hnot]

theorem Variant.stem_eq (h : Variant a b) : stem a = stem b := by
  induction h with
  | alike h => rw [stem, stem, sameFolded_iff.mp h]
  | ending hname hnot hending => exact (stem_append_ending hname hnot hending).symm
  | symm _ ih => exact ih.symm
  | trans _ _ ih ih' => exact ih.trans ih'

theorem ofPlatformName_eq (raw : String) :
    ofPlatformName raw = (platformNames.lookup (String.ofList (stem raw))).getD unknown := rfl

theorem Variant.type_eq (h : Variant a b) : ofPlatformName a = ofPlatformName b := by
  rw [ofPlatformName_eq, ofPlatformName_eq, h.stem_eq]

/-- No name has two types. -/
theorem lookup_platformNames_iff : platformNames.lookup word = some t ↔ (word, t) ∈ platformNames := by
  constructor
  · intro h
    obtain ⟨before, after, heq, -⟩ := List.lookup_eq_some_iff.mp h
    rw [heq]
    exact List.mem_append_right _ List.mem_cons_self
  · intro h
    have hall : ∀ entry ∈ platformNames, platformNames.lookup entry.1 = some entry.2 := by decide +kernel
    exact hall _ h

theorem not_endsInType_of_mem (h : (word, t) ∈ platformNames) : ¬ "type".toList <:+ word.toList := by
  have hall : ∀ entry ∈ platformNames, ¬ "type".toList <:+ entry.1.toList := by decide +kernel
  exact hall _ h

/-- A text stands for a type if it is one of the platform's names for it, with or without the ending. -/
theorem ofPlatformName_eq_iff (ht : t ≠ unknown) : ofPlatformName raw = t ↔
    ∃ word, (word, t) ∈ platformNames ∧ (fold (trimmed raw) = word ∨ fold (trimmed raw) = word ++ "type") := by
  have hlookup : ofPlatformName raw = t ↔ (String.ofList (stem raw), t) ∈ platformNames := by
    rw [ofPlatformName_eq, ← lookup_platformNames_iff]
    cases platformNames.lookup (String.ofList (stem raw)) with
    | none => simp [ht.symm]
    | some t' => simp
  have hstem {word} (hword : (word, t) ∈ platformNames) : String.ofList (stem raw) = word ↔
      fold (trimmed raw) = word ∨ fold (trimmed raw) = word ++ "type" := by
    rw [← String.toList_inj, String.toList_ofList, stem, dropTypeEnding_eq_iff (not_endsInType_of_mem hword),
      ← String.toList_append, String.toList_inj, String.toList_inj]
  rw [hlookup]
  constructor
  · intro h
    exact ⟨_, h, (hstem h).mp rfl⟩
  · rintro ⟨word, hword, hraw⟩
    rwa [(hstem hword).mpr hraw]

end AttributeType

/-! ### Definitions of one name -/

namespace AttributeDefinition

/-- The last definition of a name. -/
def last? (ds : List AttributeDefinition) (name : String) : Option AttributeDefinition :=
  ds.reverse.find? (·.logicalName == name)

/-- The definitions of a list that no later one of the same name overrides. -/
def lasting (ds : List AttributeDefinition) : List AttributeDefinition := ds.pwFilter (·.logicalName ≠ ·.logicalName)

/-- The second definition is the first with a variant of the name for its type. -/
structure Retyped (d d' : AttributeDefinition) : Prop where
  logicalName : d'.logicalName = d.logicalName
  targets : d'.targets = d.targets
  platformType : AttributeType.Variant d.platformType d'.platformType

variable {d d' : AttributeDefinition} {ds before after : List AttributeDefinition} {name : String}

theorem Retyped.toAttribute_eq (h : Retyped d d') : d'.toAttribute = d.toAttribute := by
  rw [toAttribute, toAttribute, type, type, h.platformType.type_eq, h.targets]

theorem type_toAttribute (d : AttributeDefinition) : d.toAttribute.type = .ofPlatformName d.platformType := by
  rw [toAttribute, type]

theorem targets_toAttribute_iff {targets : List String} :
    d.toAttribute.targets = some targets ↔ d.toAttribute.type = .lookup ∧ d.targets = some targets := by
  rw [toAttribute]
  by_cases hlookup : d.type = .lookup
  · simp [hlookup]
  · simp [hlookup]

theorem last?_concat (ds : List AttributeDefinition) (d : AttributeDefinition) (name : String) :
    last? (ds ++ [d]) name = if d.logicalName = name then some d else last? ds name := by
  rw [last?, List.reverse_concat, List.find?_cons]
  by_cases hname : d.logicalName = name
  · rw [if_pos hname, beq_iff_eq.mpr hname]
  · rw [if_neg hname, beq_false_of_ne hname]
    rfl

theorem last?_cons (d : AttributeDefinition) (ds : List AttributeDefinition) (name : String) :
    last? (d :: ds) name = (last? ds name).or (if d.logicalName = name then some d else none) := by
  rw [last?, List.reverse_cons, List.find?_append, List.find?_singleton]
  simp only [beq_iff_eq]
  rfl

theorem isSome_last?_iff : (last? ds name).isSome = true ↔ ∃ d ∈ ds, d.logicalName = name := by
  simp only [last?, List.find?_isSome, List.mem_reverse, beq_iff_eq]

theorem last?_of_last (h : ∀ later ∈ after, later.logicalName ≠ d.logicalName) :
    last? (before ++ d :: after) d.logicalName = some d := by
  rw [last?, List.find?_eq_some_iff_append]
  refine ⟨beq_self_eq_true _, after.reverse, before.reverse, by simp, fun later hlater => ?_⟩
  simpa using h later (List.mem_reverse.mp hlater)

theorem lasting_cons_of_overridden (h : ∃ later ∈ ds, later.logicalName = d.logicalName) :
    lasting (d :: ds) = lasting ds := by
  obtain ⟨later, hlater, hname⟩ := h
  refine List.pwFilter_cons_of_neg fun hkept => ?_
  rw [List.forall_mem_pwFilter] at hkept
  · exact hkept later hlater hname.symm
  · grind

theorem lasting_cons_of_last (h : ∀ later ∈ ds, later.logicalName ≠ d.logicalName) :
    lasting (d :: ds) = d :: lasting ds :=
  List.pwFilter_cons_of_pos fun later hlater => (h later (List.pwFilter_subset ds hlater)).symm

/-- What is overridden is the last definition of no name. -/
theorem last?_lasting (ds : List AttributeDefinition) (name : String) : last? (lasting ds) name = last? ds name := by
  induction ds with
  | nil => rfl
  | cons d ds ih =>
      rw [last?_cons]
      by_cases hoverridden : ∃ later ∈ ds, later.logicalName = d.logicalName
      · rw [lasting_cons_of_overridden hoverridden, ih]
        by_cases hname : d.logicalName = name
        · obtain ⟨later, hlater⟩ := Option.isSome_iff_exists.mp (isSome_last?_iff.mpr (hname ▸ hoverridden))
          rw [hlater, Option.some_or]
        · rw [if_neg hname, Option.or_none]
      · have hlast : ∀ later ∈ ds, later.logicalName ≠ d.logicalName :=
          fun later hlater hname => hoverridden ⟨later, hlater, hname⟩
        rw [lasting_cons_of_last hlast, last?_cons, ih]

end AttributeDefinition

namespace AttributeMap

open AttributeDefinition

variable {ds ds' : List AttributeDefinition}

theorem getElem?_ofDefinitions (ds : List AttributeDefinition) (name : String) :
    (ofDefinitions ds)[name]? = (last? ds name).map toAttribute := by
  induction ds using List.reverseRecOn with
  | nil => exact Std.ExtTreeMap.getElem?_empty
  | append_singleton ds d ih =>
      rw [ofDefinitions, List.foldl_concat, ← ofDefinitions, Std.ExtTreeMap.getElem?_insert, ih, last?_concat]
      simp only [Std.LawfulEqCmp.compare_eq_iff_eq]
      split <;> rfl

theorem ofDefinitions_lasting (ds : List AttributeDefinition) : ofDefinitions (lasting ds) = ofDefinitions ds := by
  apply Std.ExtTreeMap.ext_getElem?
  intro name
  rw [getElem?_ofDefinitions, getElem?_ofDefinitions, last?_lasting]

theorem ofDefinitions_retyped (h : List.Forall₂ Retyped ds ds') : ofDefinitions ds' = ofDefinitions ds := by
  rw [ofDefinitions, ofDefinitions]
  generalize (∅ : AttributeMap) = map
  induction h generalizing map with
  | nil => rfl
  | cons hd _ ih => rw [List.foldl_cons, List.foldl_cons, hd.logicalName, hd.toAttribute_eq, ih]

/-- The last definition of a name counts. The map of a list of definitions has the names of the list and no others, and
under each of them what the last definition of just this name says: the type that the platform's name stands for, and
the targets if that is a lookup and they are defined. A platform's name for a type may have blanks around it, capitals
and one ending `type`. So the map stays if each definition gets a variant of that name, and if those that a later one
overrides are left out. -/
theorem last_definition_counts (ds : List AttributeDefinition) :
    let map := ofDefinitions ds
    (∀ name, name ∈ map ↔ ∃ d ∈ ds, d.logicalName = name) ∧
    (∀ (before after : List AttributeDefinition) (d : AttributeDefinition), ds = before ++ d :: after →
      (∀ later ∈ after, later.logicalName ≠ d.logicalName) → ∃ a : Attribute,
        map[d.logicalName]? = some a ∧ a.type = .ofPlatformName d.platformType ∧
        ∀ targets, a.targets = some targets ↔ a.type = .lookup ∧ d.targets = some targets) ∧
    (∀ a b, AttributeType.Variant a b → AttributeType.ofPlatformName a = .ofPlatformName b) ∧
    (∀ raw type, type ≠ .unknown → (AttributeType.ofPlatformName raw = type ↔
      ∃ word, (word, type) ∈ AttributeType.platformNames ∧
        (fold (trimmed raw) = word ∨ fold (trimmed raw) = word ++ "type"))) ∧
    ∀ ds', List.Forall₂ Retyped ds ds' → ofDefinitions ds' = map ∧ ofDefinitions (lasting ds') = map := by
  intro map
  refine ⟨fun name => ?_, ?_, fun a b h => h.type_eq, fun raw type htype => ?_, fun ds' h => ?_⟩
  · rw [Std.ExtTreeMap.mem_iff_isSome_getElem?, getElem?_ofDefinitions, Option.isSome_map, isSome_last?_iff]
  · rintro before after d rfl hlast
    refine ⟨d.toAttribute, ?_, type_toAttribute d, fun _ => targets_toAttribute_iff⟩
    rw [getElem?_ofDefinitions, last?_of_last hlast]
    rfl
  · exact AttributeType.ofPlatformName_eq_iff htype
  · have hretyped := ofDefinitions_retyped h
    exact ⟨hretyped, (ofDefinitions_lasting ds').trans hretyped⟩

/-- An owner that was a text before, next to one in capitals. -/
theorem last_definition_counts_owner :
    let owner : AttributeDefinition := ⟨"ownerid", "\u3000Owner\n", some ["systemuser", "team"]⟩
    let before : List AttributeDefinition := [⟨"ownerid", "String", some ["contact"]⟩, ⟨"name", "Memo", some ["lead"]⟩]
    let after : List AttributeDefinition := [⟨"OWNERID", "StateType", none⟩]
    let ds := before ++ owner :: after
    let ds' : List AttributeDefinition := [⟨"ownerid", " STRING", some ["contact"]⟩,
      ⟨"name", "memo" ++ "Type", some ["lead"]⟩, ⟨"ownerid", "Owner" ++ "TYPE", some ["systemuser", "team"]⟩,
      ⟨"OWNERID", "state", none⟩]
    "OWNERID" ∈ ofDefinitions ds ∧ "Name" ∉ ofDefinitions ds ∧
      (∃ a, (ofDefinitions ds)["ownerid"]? = some a ∧ a.type = .lookup ∧ a.targets = some ["systemuser", "team"]) ∧
      AttributeType.ofPlatformName "memo" = .ofPlatformName ("memo" ++ "Type") ∧
      List.Forall₂ Retyped ds ds' ∧ (lasting ds').map (·.logicalName) = ["name", "ownerid", "OWNERID"] ∧
      ofDefinitions (lasting ds') = ofDefinitions ds := by
  intro owner before after ds ds'
  obtain ⟨hnames, hlast, hvariant, htype, hsame⟩ := last_definition_counts ds
  have hmemo : AttributeType.Variant "memo" ("memo" ++ "Type") :=
    .ending (by decide +kernel) (by decide +kernel) (by decide +kernel)
  have howner : AttributeType.Variant owner.platformType ("Owner" ++ "TYPE") :=
    .trans (.alike (by decide +kernel)) (.ending (by decide +kernel) (by decide +kernel) (by decide +kernel))
  have hstate : AttributeType.Variant "StateType" "state" :=
    .trans (b := "state" ++ "Type") (.alike (by decide +kernel))
      (.symm (.ending (by decide +kernel) (by decide +kernel) (by decide +kernel)))
  have hretyped : List.Forall₂ Retyped ds ds' :=
    .cons ⟨rfl, rfl, .alike (by decide +kernel)⟩ <| .cons ⟨rfl, rfl, .trans (.alike (by decide +kernel)) hmemo⟩ <|
      .cons ⟨rfl, rfl, howner⟩ <| .cons ⟨rfl, rfl, hstate⟩ .nil
  refine ⟨(hnames _).mpr (by decide +kernel), fun h => ?_, ?_, hvariant _ _ hmemo, hretyped, by decide +kernel,
    (hsame ds' hretyped).2⟩
  · exact absurd ((hnames _).mp h) (by decide +kernel)
  · obtain ⟨a, ha, hatype, htargets⟩ := hlast before after owner rfl (by decide +kernel)
    have hlookup : a.type = .lookup := by
      rw [hatype]
      exact (htype _ .lookup nofun).mpr ⟨"owner", by decide +kernel, by decide +kernel⟩
    exact ⟨a, ha, hlookup, (htargets _).mpr ⟨hlookup, rfl⟩⟩

end AttributeMap

end ODataQuery
