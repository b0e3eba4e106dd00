import ODataQuery.Catalog.Document
import ODataQuery.Proofs.Filter.OperatorText
import ODataQuery.Proofs.Json.Fields
import ODataQuery.Proofs.Json.Spelling
import ODataQuery.Query.Document

/-!
Saved documents. Every query, attribute, attribute map, definition and entity, and both forms of an entity's names, are
given back by decoding what encoding made of them, whether the tree itself is decoded or one of its two texts. Of
a query all is given back but the known attributes, which are no part of it; once they are put back the query
compiles as before. For each kind of document it is shown what the fields hold after all members are read, that
the value follows from these, and that the tree is one whose texts can be read.
-/

namespace ODataQuery

open Json

namespace Json

theorem plain_list {encode : α → Json} (h : ∀ a, (encode a).Plain) (as : List α) : (array (as.map encode)).Plain := by
  refine .array fun j hj => ?_
  obtain ⟨a, -, rfl⟩ := List.mem_map.mp hj
  exact h a

theorem plain_ofStrings (ss : List String) : (ofStrings ss).Plain := plain_list .string ss

theorem plain_optional {key : String} {encode : α → Json} {o : Option α} (h : ∀ a, (encode a).Plain) :
    ∀ m ∈ (o.map fun a => (key, encode a)).toList, m.2.Plain := by
  intro m hm
  obtain ⟨a, -, rfl⟩ := Option.map_eq_some_iff.mp (Option.mem_toList.mp hm)
  exact h a

/-- A tree is decoded to a value, and so are both its texts. -/
structure Restores (decode : Decoder α) (j : Json) (a : α) : Prop where
  tree : decode j = .ok a
  line : decodeText decode j.render = .ok a
  lines : decodeText decode j.pretty = .ok a

theorem Plain.restores {decode : Decoder α} {j : Json} {a : α} (plain : j.Plain) (h : decode j = .ok a) :
    Restores decode j a where
  tree := h
  line := by
    rw [decodeText, plain.read_written.1]
    simp [h, skipBlanks, bind, Except.bind]
  lines := by
    rw [decodeText, plain.read_written.2]
    simp [h, skipBlanks, bind, Except.bind]

end Json

/-! ### Conditions and groups -/

namespace Operator

theorem undoes : Undoes decode toJson := undoes_meaning unknownMessage ofText?_text

end Operator

namespace Condition

theorem toJson_eq (c : Condition) : c.toJson = .object ((some "attr", ofString c.name) ::
    (some "op", c.operator.toJson) :: ((c.value.map fun v => (some "value", ofString v)).toList ++ [])) := by
  simp [toJson, ofMembers, Option.toList_map]

theorem readFields_toJson (c : Condition) :
    readFields fields {} c.toJson = .ok ⟨some c.name, some c.operator, c.value.map some⟩ := by
  let after (value : Option String) : Parts := ⟨some c.name, some c.operator, value.map some⟩
  rw [toJson_eq, readFields]
  refine Eq.trans (readMember_cons rfl rfl (undoes_string c.name) _) ?_
  refine Eq.trans (readMember_cons rfl rfl (Operator.undoes c.operator) _) ?_
  exact readMember_optional after rfl rfl (fun _ => rfl) undoes_string nofun c.value []

theorem undoes : Undoes decode toJson := by
  intro c
  simp [decode, readFields_toJson, required, bind, Except.bind]

theorem plain_toJson (c : Condition) : c.toJson.Plain := by
  refine .object ?_
  simp only [List.forall_mem_append, List.forall_mem_cons]
  exact ⟨⟨.string _, .string _, nofun⟩, plain_optional .string⟩

end Condition

theorem GroupKind.undoes : Undoes GroupKind.decode GroupKind.toJson :=
  undoes_name fun k => by cases k <;> decide

theorem Join.undoes : Undoes Join.decode Join.toJson :=
  undoes_name fun j => by cases j <;> decide

theorem SortDirection.undoes : Undoes SortDirection.decode SortDirection.toJson :=
  undoes_name fun d => by cases d <;> decide

namespace Group

theorem toJson_eq (g : Group) : g.toJson = .object ((some "filterType", g.kind.toJson) ::
    (some "filters", array (g.conditions.map Condition.toJson)) ::
    ((g.join.map fun j => (some "interGroupOperator", j.toJson)).toList ++ [])) := by
  simp [toJson, ofMembers, Option.toList_map]

theorem readFields_toJson (g : Group) :
    readFields fields {} g.toJson = .ok ⟨some g.kind, some g.conditions, g.join.map some⟩ := by
  let after (join : Option Join) : Parts := ⟨some g.kind, some g.conditions, join.map some⟩
  rw [toJson_eq, readFields]
  refine Eq.trans (readMember_cons rfl rfl (GroupKind.undoes g.kind) _) ?_
  refine Eq.trans (readMember_cons rfl rfl (Condition.undoes.list g.conditions) _) ?_
  exact readMember_optional after rfl rfl (fun _ => rfl) Join.undoes nofun g.join []

theorem undoes : Undoes decode toJson := by
  intro g
  simp [decode, readFields_toJson, bind, Except.bind]

theorem plain_toJson (g : Group) : g.toJson.Plain := by
  refine .object ?_
  simp only [List.forall_mem_append, List.forall_mem_cons]
  exact ⟨⟨.string _, plain_list Condition.plain_toJson _, nofun⟩, plain_optional fun _ => .string _⟩

end Group

/-! ### Queries -/

namespace Query

theorem toJson_eq (q : Query) : q.toJson = .object ((some "select", ofStrings q.columns) ::
    (some "filterGroups", array (q.groups.map Group.toJson)) ::
    ((q.orderAttribute.map fun name => (some "orderAttr", ofString name)).toList ++
      ((q.orderDirection.map fun d => (some "orderDir", d.toJson)).toList ++
        ((q.top.map fun n => (some "top", ofNat n.toNat)).toList ++ [])))) := by
  simp [toJson, ofMembers, Option.toList_map, Function.comp_def]

theorem readFields_toJson (q : Query) : readFields fieldsRead {} q.toJson =
    .ok ⟨some q.columns, some q.groups, q.orderAttribute.map some, q.orderDirection.map some, q.top.map some⟩ := by
  let after (name : Option String) (direction : Option SortDirection) (top : Option UInt32) : Parts :=
    ⟨some q.columns, some q.groups, name.map some, direction.map some, top.map some⟩
  rw [toJson_eq, readFields]
  refine Eq.trans (readMember_cons rfl rfl (undoes_strings q.columns) _) ?_
  refine Eq.trans (readMember_cons rfl rfl (Group.undoes.list q.groups) _) ?_
  refine Eq.trans (readMember_optional (after · none none) rfl rfl (fun _ => rfl) undoes_string nofun _ _) ?_
  refine Eq.trans (readMember_optional (after _ · none) rfl rfl (fun _ => rfl) SortDirection.undoes nofun _ _) ?_
  exact readMember_optional (after _ _ ·) rfl rfl (fun _ => rfl) undoes_count nofun _ []

theorem decode_toJson (q : Query) : decode q.toJson = .ok { q with known := none } := by
  simp [decode, readFields_toJson, bind, Except.bind]

theorem plain_toJson (q : Query) : q.toJson.Plain := by
  refine .object ?_
  simp only [List.forall_mem_append, List.forall_mem_cons]
  exact ⟨⟨⟨⟨plain_ofStrings _, plain_list Group.plain_toJson _, nofun⟩, plain_optional .string⟩,
    plain_optional fun _ => .string _⟩, plain_optional fun _ => .number _⟩

end Query

/-! ### Attributes -/

theorem AttributeType.undoes : Undoes AttributeType.decode AttributeType.toJson :=
  undoes_name fun t => by cases t <;> decide

namespace Attribute

theorem toJson_eq (a : Attribute) : a.toJson = .object ((some "type", a.type.toJson) ::
    ((a.targets.map fun ts => (some "targets", ofStrings ts)).toList ++ [])) := by
  simp [toJson, ofMembers, Option.toList_map]

theorem readFields_toJson (a : Attribute) :
    readFields fields {} a.toJson = .ok ⟨some a.type, a.targets.map some⟩ := by
  let after (targets : Option (List String)) : Parts := ⟨some a.type, targets.map some⟩
  rw [toJson_eq, readFields]
  refine Eq.trans (readMember_cons rfl rfl (AttributeType.undoes a.type) _) ?_
  exact readMember_optional after rfl rfl (fun _ => rfl) undoes_strings nofun a.targets []

theorem undoes : Undoes decode toJson := by
  intro a
  simp [decode, readFields_toJson, required, bind, Except.bind]

theorem plain_toJson (a : Attribute) : a.toJson.Plain :=
  .object (List.forall_mem_cons.mpr ⟨.string _, plain_optional plain_ofStrings⟩)

end Attribute

namespace AttributeDefinition

theorem toJson_eq (d : AttributeDefinition) : d.toJson = .object [(some "logical_name", ofString d.logicalName),
    (some "attribute_type", ofString d.platformType), (some "targets", d.targets.elim .null ofStrings)] :=
  rfl

theorem readFields_toJson (d : AttributeDefinition) :
    readFields fields {} d.toJson = .ok ⟨some d.logicalName, some d.platformType, some d.targets⟩ := by
  have htargets : decodeOption (decodeList decodeString) (d.targets.elim .null ofStrings) = .ok d.targets := by
    cases d.targets with
    | none => rfl
    | some ts => exact undoes_strings.option nofun
  rw [toJson_eq, readFields]
  refine Eq.trans (readMember_cons rfl rfl (undoes_string d.logicalName) _) ?_
  refine Eq.trans (readMember_cons rfl rfl (undoes_string d.platformType) _) ?_
  exact Eq.trans (readMember_cons rfl rfl htargets []) rfl

theorem undoes : Undoes decode toJson := by
  intro d
  simp [decode, readFields_toJson, required, bind, Except.bind]

theorem plain_toJson (d : AttributeDefinition) : d.toJson.Plain := by
  refine .object ?_
  simp only [List.forall_mem_cons]
  refine ⟨.string _, .string _, ?_, nofun⟩
  cases d.targets with
  | none => exact .null
  | some ts => exact plain_ofStrings ts

end AttributeDefinition

namespace AttributeMap

/-- The members of a map, in some order. -/
def listed (members : List (String × Attribute)) : Json := .ofMembers (members.map fun (name, a) => (name, a.toJson))

theorem decodeMembers_listed (members : List (String × Attribute)) :
    decodeMembers Attribute.decode (members.map fun (name, a) => (some name, a.toJson)) = .ok members := by
  induction members with
  | nil => rfl
  | cons m ms ih =>
      obtain ⟨name, a⟩ := m
      simp only [List.map_cons, decodeMembers, Attribute.undoes a, ih, bind, Except.bind]

theorem foldl_insert (map : AttributeMap) (members : List (String × Attribute)) :
    members.foldl (fun map (name, a) => map.insert name a) map = map.insertMany members := by
  induction members generalizing map with
  | nil => rfl
  | cons m ms ih => rw [List.foldl_cons, ih, Std.ExtTreeMap.insertMany_cons]

/-- The order in which the members of a map are put into another one does not matter. -/
theorem insertMany_of_perm {map : AttributeMap} {members : List (String × Attribute)} (h : members.Perm map.toList) :
    (∅ : AttributeMap).insertMany members = map := by
  have hdistinct : members.Pairwise fun a b => ¬ compare a.1 b.1 = .eq :=
    h.symm.pairwise Std.ExtTreeMap.distinct_keys_toList fun hne heq => hne (Std.OrientedCmp.eq_symm heq)
  have hmem {name : String} {a : Attribute} : (name, a) ∈ members ↔ map[name]? = some a :=
    h.mem_iff.trans Std.ExtTreeMap.mem_toList_iff_getElem?_eq_some
  refine Std.ExtTreeMap.ext_getElem? fun name => ?_
  cases hfound : map[name]? with
  | none =>
      have hmissing : (members.map Prod.fst).contains name = false := by
        simp [hmem, hfound]
      rw [Std.ExtTreeMap.getElem?_insertMany_list_of_contains_eq_false hmissing, Std.ExtTreeMap.getElem?_empty]
  | some a =>
      exact Std.ExtTreeMap.getElem?_insertMany_list_of_mem Std.ReflCmp.compare_self hdistinct (hmem.mpr hfound)

theorem decode_listed {map : AttributeMap} {members : List (String × Attribute)} (h : members.Perm map.toList) :
    decode (listed members) = .ok map := by
  have hmembers : listed members = .object (members.map fun (name, a) => (some name, a.toJson)) := by
    simp [listed, ofMembers]
  rw [hmembers, decode, decodeMembers_listed]
  change Except.ok (members.foldl (fun map (name, a) => map.insert name a) ∅) = .ok map
  rw [foldl_insert, insertMany_of_perm h]

theorem plain_listed (members : List (String × Attribute)) : (listed members).Plain := by
  refine .object fun m hm => ?_
  obtain ⟨⟨name, a⟩, -, rfl⟩ := List.mem_map.mp hm
  exact a.plain_toJson

end AttributeMap

/-! ### Entities -/

namespace Entity

theorem toJson_eq (e : Entity) : e.toJson = .object [(some "logical_name", ofString e.logicalName),
    (some "entity_set_name", ofString e.setName),
    (some "attributes", array (e.definitions.map AttributeDefinition.toJson))] :=
  rfl

theorem readFields_toJson (e : Entity) :
    readFields fields {} e.toJson = .ok ⟨some e.logicalName, some e.setName, some e.definitions⟩ := by
  rw [toJson_eq, readFields]
  refine Eq.trans (readMember_cons rfl rfl (undoes_string e.logicalName) _) ?_
  refine Eq.trans (readMember_cons rfl rfl (undoes_string e.setName) _) ?_
  exact Eq.trans (readMember_cons rfl rfl (AttributeDefinition.undoes.list e.definitions) []) rfl

theorem undoes : Undoes decode toJson := by
  intro e
  simp [decode, readFields_toJson, required, bind, Except.bind]

theorem plain_toJson (e : Entity) : e.toJson.Plain := by
  refine .object ?_
  simp only [List.forall_mem_cons]
  exact ⟨.string _, .string _, plain_list AttributeDefinition.plain_toJson _, nofun⟩

end Entity

namespace EntityNames

/-- The names are given back whatever keys they go by, if each is written with a key of its own. -/
theorem ofParts_keyed (n : EntityNames) {setKeys logicalKeys : List String} {setKey logicalKey : String}
    (hset : setKey ∈ setKeys) (hlogical : logicalKey ∈ logicalKeys) (hapart : logicalKey ∉ setKeys) :
    readFields (fieldsKeyed setKeys logicalKeys) {}
        (.ofMembers [(setKey, .ofString n.set), (logicalKey, .ofString n.logical)]) >>= ofParts = .ok n := by
  have hfirst : (fieldsKeyed setKeys logicalKeys).find? (·.keys.contains setKey) =
      some (.of setKeys decodeString (·.set) fun a s => { s with set := some a }) := by
    simp [fieldsKeyed, RecordField.of, hset]
  have hsecond : (fieldsKeyed setKeys logicalKeys).find? (·.keys.contains logicalKey) =
      some (.of logicalKeys decodeString (·.logical) fun a s => { s with logical := some a }) := by
    simp [fieldsKeyed, RecordField.of, hlogical, hapart]
  have hread : readFields (fieldsKeyed setKeys logicalKeys) {}
      (.ofMembers [(setKey, .ofString n.set), (logicalKey, .ofString n.logical)]) =
        .ok ⟨some n.set, some n.logical⟩ := by
    refine Eq.trans (readMember_cons hfirst rfl (undoes_string n.set) _) ?_
    exact readMember_cons hsecond rfl (undoes_string n.logical) []
  rw [hread]
  rfl

theorem undoes_descriptor : Undoes decodeDescriptor toDescriptor :=
  fun n => n.ofParts_keyed (by decide) (by decide) (by decide)

theorem undoes_reference : Undoes decodeReference toReference :=
  fun n => n.ofParts_keyed (by decide) (by decide) (by decide)

theorem plain_keyed (n : EntityNames) (setKey logicalKey : String) :
    (Json.ofMembers [(setKey, .ofString n.set), (logicalKey, .ofString n.logical)]).Plain := by
  refine .object ?_
  simp only [List.forall_mem_cons]
  exact ⟨.string _, .string _, nofun⟩

end EntityNames

/-- Whatever is saved is restored, from the tree and from both texts. A query comes back without the known attributes
and with all else as it was, so that it compiles to the same text and the same dropped conditions under every
policy once the attributes are put back. Attributes, definitions, entities and both forms of an entity's names come
back as they were, and so does a map of attributes, in whatever order its members are written. -/
theorem saved_documents_restored :
    (∀ q : Query, ∃ saved, Restores Query.decode q.toJson saved ∧ saved.known = none ∧
      { saved with known := q.known } = q ∧
      ∀ policy, ({ saved with known := q.known } : Query).compile policy = q.compile policy) ∧
    (∀ a : Attribute, Restores Attribute.decode a.toJson a) ∧
    (∀ map : AttributeMap, Restores AttributeMap.decode map.toJson map ∧
      ∀ members : List (String × Attribute), members.Perm map.toList →
        Restores AttributeMap.decode (AttributeMap.listed members) map) ∧
    (∀ d : AttributeDefinition, Restores AttributeDefinition.decode d.toJson d) ∧
    (∀ e : Entity, Restores Entity.decode e.toJson e) ∧
    (∀ n : EntityNames, Restores EntityNames.decodeDescriptor n.toDescriptor n) ∧
    ∀ n : EntityNames, Restores EntityNames.decodeReference n.toReference n := by
  refine ⟨fun q => ?_, fun a => ?_, fun map => ?_, fun d => ?_, fun e => ?_, fun n => ?_, fun n => ?_⟩
  · exact ⟨{ q with known := none }, q.plain_toJson.restores q.decode_toJson, rfl, rfl, fun _ => rfl⟩
  · exact a.plain_toJson.restores (Attribute.undoes a)
  · have hlisted (members : List (String × Attribute)) (h : members.Perm map.toList) :
        Restores AttributeMap.decode (AttributeMap.listed members) map :=
      (AttributeMap.plain_listed members).restores (AttributeMap.decode_listed h)
    exact ⟨hlisted map.toList (.refl _), hlisted⟩
  · exact d.plain_toJson.restores (AttributeDefinition.undoes d)
  · exact e.plain_toJson.restores (Entity.undoes e)
  · exact (n.plain_keyed _ _).restores (EntityNames.undoes_descriptor n)
  · exact (n.plain_keyed _ _).restores (EntityNames.undoes_reference n)

theorem saved_documents_restored_with_members_swapped :
    [("ownerid", ⟨.lookup, some ["team"]⟩), ("name", ⟨.string, none⟩)].Perm
        (AttributeMap.ofDefinitions [⟨"name", "String", none⟩, ⟨"ownerid", "Owner", some ["team"]⟩]).toList ∧
      Restores AttributeMap.decode
        (AttributeMap.listed [("ownerid", ⟨.lookup, some ["team"]⟩), ("name", ⟨.string, none⟩)])
        (.ofDefinitions [⟨"name", "String", none⟩, ⟨"ownerid", "Owner", some ["team"]⟩]) := by
  have hswapped : [("ownerid", ⟨.lookup, some ["team"]⟩), ("name", ⟨.string, none⟩)].Perm
      (AttributeMap.ofDefinitions [⟨"name", "String", none⟩, ⟨"ownerid", "Owner", some ["team"]⟩]).toList := by
    decide +kernel
  exact ⟨hswapped, (saved_documents_restored.2.2.1 _).2 _ hswapped⟩

end ODataQuery
