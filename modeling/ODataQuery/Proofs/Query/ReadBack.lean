import ODataQuery.Proofs.Query.Whole

/-!
A query text read back. Whoever cuts it at every `&` outside literals finds the parameters that were put
together, and in them what the query asks for: the fields between the commas, the filter as it was written, the
number of the limit, and the attribute and the direction of the order before and behind the blank.
-/

namespace ODataQuery

open Text

namespace Text

/-- The parameters of a query text: those behind the question mark, or none if the text is empty. -/
def parametersIn? : List Char → Option (List (List Char))
  | [] => some []
  | c :: cs => if c = '?' then some (pieces false cs) else none

/-- What follows a head in the first parameter that begins with it. -/
def body? (head : String) (parameters : List (List Char)) : Option (List Char) :=
  parameters.findSome? head.toList.isPrefixOf?

end Text

namespace Query

/-- What a query text says: the fields it selects, none if it leaves them open, the text of its filter, the
most rows, and the attribute and the direction of its order. -/
structure Content where
  fields : List String
  filter : Option String
  limit : Option Nat
  order : Option (String × SortDirection)
  deriving DecidableEq

/-- What the text of the query is to say. -/
def content (q : Query) (policy : NanPolicy) : Content where
  fields := q.fields
  filter := (q.filter? policy).map (·.render)
  limit := (q.top.filter (· ≠ 0)).map (·.toNat)
  order := q.orderAttribute.map (·, q.orderDirection.getD .asc)

/-- The attribute before the first blank, and the direction behind it. -/
def readOrder? (cs : List Char) : Option (String × SortDirection) :=
  (SortDirection.all.find? fun d => d.text.toList == (cs.dropWhile (· != ' ')).tail).map
    (String.ofList (cs.takeWhile (· != ' ')), ·)

/-- What parameters say. -/
def Content.ofParameters (parameters : List (List Char)) : Content where
  fields := ((body? "$select=" parameters).map fun cs => (cs.splitOn ',').map String.ofList).getD []
  filter := (body? "$filter=" parameters).map String.ofList
  limit := (body? "$top=" parameters).map ofDigits
  order := (body? "$orderby=" parameters).bind readOrder?

end Query

variable {policy : NanPolicy}

/-! ### Heads -/

namespace Text

theorem body?_cons_of_headed {head body : String} {ps : List (List Char)} :
    body? head ((head ++ body).toList :: ps) = some body.toList := by
  have hread : head.toList.isPrefixOf? (head ++ body).toList = some body.toList :=
    List.isPrefixOf?_eq_some_iff_append_eq.mpr (String.toList_append ..).symm
  rw [body?, List.findSome?_cons, hread]

theorem body?_cons_of_other {head : String} {p : List Char} {ps : List (List Char)}
    (h : ¬ head.toList <+: p) : body? head (p :: ps) = body? head ps := by
  have hread : head.toList.isPrefixOf? p = none := by
    refine Option.eq_none_iff_forall_not_mem.mpr fun body hbody => h ⟨body, ?_⟩
    exact List.isPrefixOf?_eq_some_iff_append_eq.mp hbody
  rw [body?, List.findSome?_cons, hread, body?]

/-- Neither of two heads begins the other. -/
structure Apart (a b : String) : Prop where
  left : ¬ a.toList <+: b.toList
  right : ¬ b.toList <+: a.toList

instance (a b : String) : Decidable (Apart a b) :=
  decidable_of_iff (¬ a.toList <+: b.toList ∧ ¬ b.toList <+: a.toList)
    ⟨fun ⟨h, h'⟩ => ⟨h, h'⟩, fun ⟨h, h'⟩ => ⟨h, h'⟩⟩

theorem Apart.symm {a b : String} (h : Apart a b) : Apart b a := ⟨h.right, h.left⟩

theorem Apart.not_headed {a b : String} (h : Apart a b) (body : String) : ¬ a.toList <+: (b ++ body).toList := by
  intro hprefix
  rw [String.toList_append] at hprefix
  rcases List.prefix_or_prefix_of_prefix hprefix (List.prefix_append b.toList body.toList) with hab | hba
  · exact h.left hab
  · exact h.right hba

/-- A head that no parameter has leads to nothing. -/
theorem body?_eq_none {clauses : List (String × Option String)} {head : String}
    (apart : ∀ other ∈ clauses.map Prod.fst, Apart head other) :
    body? head ((clauses.filterMap fun (head, body?) => body?.map (head ++ ·)).map String.toList) = none := by
  induction clauses with
  | nil => rfl
  | cons clause rest ih =>
      obtain ⟨hfirst, hrest⟩ := List.forall_mem_cons.mp apart
      obtain ⟨other, _ | body⟩ := clause
      · exact ih hrest
      · exact (body?_cons_of_other (hfirst.not_headed body)).trans (ih hrest)

/-- Every head leads to what was put behind it, and to nothing if that is missing. -/
theorem body?_clauses {clauses : List (String × Option String)} (apart : (clauses.map Prod.fst).Pairwise Apart)
    {head : String} {body : Option String} (h : (head, body) ∈ clauses) :
    body? head ((clauses.filterMap fun (head, body?) => body?.map (head ++ ·)).map String.toList) =
      body.map String.toList := by
  induction clauses with
  | nil => cases h
  | cons clause rest ih =>
      obtain ⟨hfirst, hrest⟩ := List.pairwise_cons.mp apart
      rcases List.mem_cons.mp h with heq | hmem
      · subst heq
        cases body with
        | none =>
            show body? head ((rest.filterMap _).map String.toList) = none
            exact body?_eq_none hfirst
        | some body => exact body?_cons_of_headed
      · have hhead : head ∈ rest.map Prod.fst := List.mem_map_of_mem (f := Prod.fst) hmem
        obtain ⟨other, _ | body'⟩ := clause
        · exact ih hrest hmem
        · exact (body?_cons_of_other ((hfirst head hhead).symm.not_headed body')).trans (ih hrest hmem)

end Text

namespace Query

variable {q : Query}

theorem body?_parameters {head : String} {body : Option String} (h : (head, body) ∈ q.clauses policy) :
    body? head ((q.parameters policy).map String.toList) = body.map String.toList := by
  have apart : parameterHeads.Pairwise Apart := by decide
  have hheads : (q.clauses policy).map Prod.fst = parameterHeads := rfl
  rw [← hheads] at apart
  rw [parameters_eq]
  exact body?_clauses apart h

theorem body?_select : body? "$select=" ((q.parameters policy).map String.toList) =
    if q.columns = [] then none else some (join "," q.fields).toList := by
  have hclause : ("$select=", if q.columns = [] then none else some (join "," q.fields)) ∈ q.clauses policy := by
    simp [clauses]
  rw [body?_parameters hclause, apply_ite (Option.map String.toList)]
  rfl

theorem body?_filter : body? "$filter=" ((q.parameters policy).map String.toList) =
    (q.filter? policy).map (·.render.toList) := by
  have hclause : ("$filter=", (q.filter? policy).map (·.render)) ∈ q.clauses policy := by simp [clauses]
  rw [body?_parameters hclause, Option.map_map]
  rfl

theorem body?_limit : body? "$top=" ((q.parameters policy).map String.toList) =
    (q.top.filter (· ≠ 0)).map fun n => digits n.toNat := by
  have hclause : ("$top=", (q.top.filter (· ≠ 0)).map fun n => decimal n.toNat) ∈ q.clauses policy := by
    simp [clauses]
  rw [body?_parameters hclause, Option.map_map]
  congr 1
  funext n
  exact String.toList_ofList

theorem Legible.body?_order (legible : q.Legible) : body? "$orderby=" ((q.parameters policy).map String.toList) =
    q.orderAttribute.map fun name => (name ++ " " ++ (q.orderDirection.getD .asc).text).toList := by
  have hclause : ("$orderby=", (q.orderAttribute.filter (· ≠ "")).map fun name =>
      name ++ " " ++ (q.orderDirection.getD .asc).text) ∈ q.clauses policy := by
    simp [clauses]
  have hnonempty : q.orderAttribute.filter (· ≠ "") = q.orderAttribute := by
    cases hname : q.orderAttribute with
    | none => rfl
    | some name => exact Option.filter_some_pos (decide_eq_true (legible.order name hname).nonempty)
  rw [body?_parameters hclause, hnonempty, Option.map_map]
  rfl

theorem readOrder?_text {name : String} (hname : ' ' ∉ name.toList) (direction : SortDirection) :
    readOrder? (name ++ " " ++ direction.text).toList = some (name, direction) := by
  have hword : ∀ c ∈ name.toList, (c != ' ') = true := by
    intro c hc
    rw [bne_iff_ne]
    rintro rfl
    exact hname hc
  have htext : (name ++ " " ++ direction.text).toList = name.toList ++ ' ' :: direction.text.toList := by
    rw [String.toList_append, String.toList_append, List.append_assoc]
    rfl
  have hdirection :
      SortDirection.all.find? (fun d => d.text.toList == direction.text.toList) = some direction := by
    cases direction <;> decide
  rw [readOrder?, htext, List.takeWhile_append_of_pos hword, List.dropWhile_append_of_pos hword]
  change (SortDirection.all.find? (fun d => d.text.toList == direction.text.toList)).map
    (String.ofList (name.toList ++ []), ·) = _
  rw [hdirection, List.append_nil, String.ofList_toList, Option.map_some]

theorem Legible.fields_read (legible : q.Legible) (hne : q.fields ≠ []) :
    ((join "," q.fields).toList.splitOn ',').map String.ofList = q.fields := by
  have hcomma : ∀ piece ∈ q.fields.map String.toList, ',' ∉ piece := by
    intro piece hpiece
    obtain ⟨field, hfield, rfl⟩ := List.mem_map.mp hpiece
    exact (legible.isName_field hfield).not_mem (by decide)
  rw [toList_join]
  change ((([','] : List Char).intercalate (q.fields.map String.toList)).splitOn ',').map String.ofList = _
  rw [List.splitOn_intercalate ',' hcomma (by simpa using hne), List.map_map]
  simp

/-- The parameters say what the query asks for. -/
theorem Legible.ofParameters_parameters (legible : q.Legible) :
    Content.ofParameters ((q.parameters policy).map String.toList) = q.content policy := by
  rw [Content.ofParameters, body?_select, body?_filter, body?_limit, legible.body?_order, content,
    Content.mk.injEq]
  refine ⟨?_, ?_, ?_, ?_⟩
  · by_cases hnone : q.columns = []
    · rw [if_pos hnone, fields, hnone]
      rfl
    · rw [if_neg hnone]
      exact legible.fields_read (by simpa [fields] using hnone)
  · rw [Option.map_map]
    congr 1
    funext e
    exact String.ofList_toList
  · rw [Option.map_map]
    congr 1
    funext n
    exact Nat.ofDigitChars_ten_toDigits
  · cases hname : q.orderAttribute with
    | none => rfl
    | some name => exact readOrder?_text ((legible.order name hname).not_mem (by decide)) _

/-- The parameters are found in the text. -/
theorem Legible.parametersIn?_text (legible : q.Legible) :
    parametersIn? (q.compile policy).text.toList = some ((q.parameters policy).map String.toList) := by
  by_cases hnone : q.parameters policy = []
  · have htext : (q.compile policy).text = "" := if_pos hnone
    rw [htext, hnone]
    rfl
  · have htext : (q.compile policy).text = "?" ++ join "&" (q.parameters policy) := if_neg hnone
    rw [htext, ← pieces_join hnone legible.whole_parameters, String.toList_append]
    change parametersIn? ('?' :: (join "&" (q.parameters policy)).toList) = _
    rw [parametersIn?, if_pos rfl]

/-- The text of a legible query is read back. Cut at every `&` outside literals, what stands behind the question
mark is the parameters, each behind its head, the heads in order and none twice. They say which fields are
selected, with repetitions, the text of the filter, the limit and the order. Each of them is missing exactly if
there is nothing to say: no column, no kept condition, no limit above zero, no order. So two such queries with
equal texts ask for the same. -/
theorem read_back (legible : q.Legible) (policy : NanPolicy) :
    let found := (q.parameters policy).map String.toList
    parametersIn? (q.compile policy).text.toList = some found ∧ Headed found ∧
      Content.ofParameters found = q.content policy ∧
      (body? "$select=" found = none ↔ q.columns = []) ∧
      (body? "$filter=" found = none ↔ q.kept policy = []) ∧
      (body? "$top=" found = none ↔ ∀ n ∈ q.top, n = 0) ∧
      (body? "$orderby=" found = none ↔ q.orderAttribute = none) ∧
      ∀ {q' : Query} {policy' : NanPolicy}, q'.Legible → (q'.compile policy').text = (q.compile policy).text →
        q'.content policy' = q.content policy := by
  refine ⟨legible.parametersIn?_text, headed_parameters, legible.ofParameters_parameters, ?_, ?_, ?_, ?_, ?_⟩
  · rw [body?_select]
    simp
  · rw [body?_filter, Option.map_eq_none_iff, filter?_eq_none_iff]
  · rw [body?_limit, Option.map_eq_none_iff, Option.filter_eq_none_iff]
    simp
  · rw [legible.body?_order, Option.map_eq_none_iff]
  · intro q' policy' legible' htext
    have hsame : (q'.parameters policy').map String.toList = (q.parameters policy).map String.toList := by
      apply Option.some.inj
      rw [← legible'.parametersIn?_text, ← legible.parametersIn?_text, htext]
    calc q'.content policy'
      _ = Content.ofParameters ((q'.parameters policy').map String.toList) :=
        legible'.ofParameters_parameters.symm
      _ = Content.ofParameters ((q.parameters policy).map String.toList) := by rw [hsame]
      _ = q.content policy := legible.ofParameters_parameters

/-- Separators in a literal, a doubled quote, and values that look like a truth value and an identifier. The
direction of the order is left open, and a lookup is selected twice. -/
theorem read_back_separators :
    let q : Query :=
      { columns := ["name", "ownerid", "ownerid"]
        groups := [
          { kind := .or, conditions := [⟨"name", .eq, some "R&D's, '&$top=9"⟩, ⟨"open", .ne, some " TRUE "⟩] },
          { conditions := [⟨"parent", .eq, some "0A1b2C3d-0000-1111-2222-333344445555"⟩,
              ⟨"name", .contains, some "5"⟩] }]
        orderAttribute := some "created_on", top := some 7
        known := some (Std.ExtTreeMap.ofList
          [("ownerid", (⟨.lookup, none⟩ : Attribute)), ("name", ⟨.string, none⟩)]) }
    let content : Content := ⟨["name", "_ownerid_value", "_ownerid_value"],
      some ("(name eq 'R&D''s, ''&$top=9' or open ne  true ) and " ++
        "(_parent_value eq 0A1b2C3d-0000-1111-2222-333344445555 and contains(name,'5'))"),
      some 7, some ("created_on", .asc)⟩
    q.Legible ∧ (parametersIn? (q.compile .emit).text.toList).map Content.ofParameters = some content := by
  intro q content
  have legible : q.Legible := by decide +kernel
  obtain ⟨hfound, -, hcontent, -⟩ := read_back legible .emit
  refine ⟨legible, ?_⟩
  rw [hfound, Option.map_some, hcontent]
  decide +kernel

end Query

end ODataQuery