import ODataQuery.Proofs.Filter.Literals
import ODataQuery.Proofs.Filter.Quotes
import ODataQuery.Proofs.Query.Parameters

/-!
The places at which a query text is cut by somebody who knows that literals stand between quotes: every `&`
outside them. In a literal a separator does no harm, so that values may hold any characters; and a value that is
written without quotes, because it looks like a number, a truth value or an identifier, has no separator. If
names are names, and no attribute of a comparison is known to be a truth value or a lookup, for whose values
anything would be written as it stands, then no parameter of the query is cut.
-/

namespace ODataQuery

open Text

namespace Text

/-- A text cut at every `&` outside literals, from a place on that is in a literal or not. A quote ends a
literal or begins one. Two quotes in a literal do both, and what follows them is in a literal again. -/
def pieces (inside : Bool) : List Char → List (List Char)
  | [] => [[]]
  | c :: cs =>
    if c = '&' ∧ inside = false then [] :: pieces false cs
    else (pieces (if c = '\'' then !inside else inside) cs).modifyHead (c :: ·)

/-- A text of letters, digits and underscores, at least one. -/
structure IsName (s : String) : Prop where
  nonempty : s ≠ ""
  word : ∀ c ∈ s.toList, (c.isAlphanum || c == '_') = true

instance (s : String) : Decidable (IsName s) :=
  decidable_of_iff (s ≠ "" ∧ s.toList.all (fun c => c.isAlphanum || c == '_') = true) (by
    rw [List.all_eq_true]
    exact ⟨fun ⟨h, h'⟩ => ⟨h, h'⟩, fun ⟨h, h'⟩ => ⟨h, h'⟩⟩)

end Text

namespace Query

/-- The names in the query are names, and no attribute of a comparison is known to be a truth value or a
lookup. -/
structure Legible (q : Query) : Prop where
  columns : ∀ column ∈ q.columns, IsName column
  conditions : ∀ g ∈ q.groups, ∀ c ∈ g.conditions, IsName c.name
  order : ∀ name ∈ q.orderAttribute, IsName name
  quoted : ∀ g ∈ q.groups, ∀ c ∈ g.conditions, c.operator.Compares →
    ∀ a ∈ q.known.bind (·[c.name]?), a.type ≠ .boolean ∧ a.type ≠ .lookup

instance (q : Query) : Decidable q.Legible :=
  decidable_of_iff ((∀ column ∈ q.columns, IsName column) ∧
    (∀ g ∈ q.groups, ∀ c ∈ g.conditions, IsName c.name) ∧ (∀ name ∈ q.orderAttribute, IsName name) ∧
    ∀ g ∈ q.groups, ∀ c ∈ g.conditions, c.operator.Compares →
      ∀ a ∈ q.known.bind (·[c.name]?), a.type ≠ .boolean ∧ a.type ≠ .lookup)
    ⟨fun ⟨h, h', h'', h₃⟩ => ⟨h, h', h'', h₃⟩, fun ⟨h, h', h'', h₃⟩ => ⟨h, h', h'', h₃⟩⟩

end Query

/-! ### Texts that are not cut -/

namespace Text

/-- A text that is not cut, wherever it stands, and does not end in a literal. -/
def Whole (text : String) : Prop :=
  ∀ rest : List Char, pieces false (text.toList ++ rest) = (pieces false rest).modifyHead (text.toList ++ ·)

theorem modifyHead_append {α : Type} {as bs : List α} {l : List (List α)} :
    (l.modifyHead (bs ++ ·)).modifyHead (as ++ ·) = l.modifyHead (as ++ bs ++ ·) := by
  rw [List.modifyHead_modifyHead]
  congr 1
  funext cs
  exact (List.append_assoc ..).symm

theorem Whole.append {a b : String} (ha : Whole a) (hb : Whole b) : Whole (a ++ b) := by
  intro rest
  rw [String.toList_append, List.append_assoc, ha, hb, modifyHead_append]

theorem pieces_cons {c : Char} {cs : List Char} {inside : Bool} (hc : c = '&' → inside = true) :
    pieces inside (c :: cs) = (pieces (if c = '\'' then !inside else inside) cs).modifyHead ([c] ++ ·) := by
  refine if_neg ?_
  rintro ⟨hamp, houtside⟩
  cases (hc hamp).symm.trans houtside

theorem pieces_plain {cs rest : List Char} (hcut : '&' ∉ cs) (hplain : Plain cs) :
    pieces false (cs ++ rest) = (pieces false rest).modifyHead (cs ++ ·) := by
  induction cs with
  | nil => exact (congrFun List.modifyHead_id (pieces false rest)).symm
  | cons c cs ih =>
      obtain ⟨hc, hcs⟩ := plain_cons.mp hplain
      obtain ⟨hamp, hcut⟩ := List.ne_and_not_mem_of_not_mem_cons hcut
      rw [List.cons_append, pieces_cons fun h => absurd h.symm hamp, if_neg hc, ih hcut hcs, modifyHead_append]
      rfl

/-- A text without `&` and without quotes. -/
theorem whole_plain {text : String} (hcut : '&' ∉ text.toList) (hplain : Plain text.toList) : Whole text :=
  fun _ => pieces_plain hcut hplain

theorem pieces_doubled {value rest : List Char} :
    pieces true (doubleQuotes value ++ '\'' :: rest) =
      (pieces false rest).modifyHead (doubleQuotes value ++ ['\''] ++ ·) := by
  induction value with
  | nil => exact pieces_cons fun _ => rfl
  | cons c value ih =>
      by_cases hc : c = '\''
      · subst hc
        rw [doubleQuotes, if_pos rfl, List.cons_append, List.cons_append, pieces_cons fun _ => rfl, if_pos rfl,
          pieces_cons (by decide), if_pos rfl, Bool.not_not, ih, modifyHead_append, modifyHead_append]
        rfl
      · rw [doubleQuotes, if_neg hc, List.cons_append, pieces_cons fun _ => rfl, if_neg hc, ih, modifyHead_append]
        rfl

/-- A literal is not cut, whatever its value. -/
theorem whole_quote (value : String) : Whole (quote value) := by
  intro rest
  rw [quote, String.toList_ofList, List.cons_append, List.cons_append, List.append_assoc,
    pieces_cons (by decide), if_pos rfl]
  change (pieces true (doubleQuotes value.toList ++ '\'' :: rest)).modifyHead _ = _
  rw [pieces_doubled, modifyHead_append]
  rfl

theorem whole_join {separator : String} (hs : Whole separator) {texts : List String}
    (h : ∀ s ∈ texts, Whole s) : Whole (join separator texts) := by
  induction texts with
  | nil =>
      have hempty : Whole "" := whole_plain (by decide) (by decide)
      exact hempty
  | cons s rest ih =>
      have hfirst : Whole s := h s List.mem_cons_self
      cases rest with
      | nil => exact hfirst
      | cons s' rest => exact (hfirst.append hs).append (ih fun t ht => h t (List.mem_cons_of_mem s ht))

/-- Texts that are not cut are found again between the separators. -/
theorem pieces_join {texts : List String} (hne : texts ≠ []) (h : ∀ s ∈ texts, Whole s) :
    pieces false (join "&" texts).toList = texts.map String.toList := by
  induction texts with
  | nil => exact absurd rfl hne
  | cons s rest ih =>
      have hfirst : Whole s := h s List.mem_cons_self
      cases rest with
      | nil =>
          have hend := hfirst []
          rwa [List.append_nil, pieces, List.modifyHead_cons, List.append_nil] at hend
      | cons s' rest =>
          have hjoin : (join "&" (s :: s' :: rest)).toList =
              s.toList ++ '&' :: (join "&" (s' :: rest)).toList := by
            show (s ++ "&" ++ join "&" (s' :: rest)).toList = _
            rw [String.toList_append, String.toList_append, List.append_assoc]
            rfl
          have hrest := ih (List.cons_ne_nil s' rest) fun t ht => h t (List.mem_cons_of_mem s ht)
          rw [hjoin, hfirst, pieces, if_pos ⟨rfl, rfl⟩, hrest, List.modifyHead_cons, List.append_nil]
          rfl

end Text

open Text

/-! ### Values that are written as they stand -/

/-- A value that looks like a truth value or an identifier has neither `&` nor a quote. -/
theorem AttributeType.not_mem_of_infer {a : Char} {raw : String} (h : infer raw = .boolean ∨ infer raw = .lookup)
    (ha : a = '&' ∨ a = '\'') : a ∉ raw.toList := by
  have hfigure : isFigure a = false := by
    rcases ha with rfl | rfl <;> decide
  have hblank : isBlank a = false := by
    rcases ha with rfl | rfl <;> decide
  have hlower : a ∈ (lower raw).toList ↔ a ∈ raw.toList := by
    rcases ha with rfl | rfl <;> exact mem_lower (by decide) (by decide)
  obtain ⟨value, hvalue⟩ := exists_suggestion raw
  generalize infer raw = type at h hvalue
  cases hvalue with
  | truth hword =>
      obtain ⟨before, word, after, hbefore, hafter, -, htext, hspells⟩ := (Suggestion.truth hword).exists_word rfl
      rw [← hlower]
      exact htext ▸ LiteralForm.Spells.not_mem_between_blanks hbefore hafter hspells hblank hfigure
  | identifier hguid => exact (isIdentifier_of_isGuid hguid).figures.not_mem hfigure
  | number | date | text => rcases h with h | h <;> cases h

/-! ### The filter -/

namespace Text.IsName

variable {s : String} (h : IsName s)
include h

theorem not_mem {a : Char} (ha : (a.isAlphanum || a == '_') = false) : a ∉ s.toList := by
  intro hmem
  cases ha.symm.trans (h.word a hmem)

theorem whole : Whole s := whole_plain (h.not_mem (by decide)) (h.not_mem (by decide))

theorem lookupField : IsName (lookupField s) := by
  refine ⟨?_, ?_⟩
  · intro hempty
    have hlength := congrArg String.length hempty
    simp [ODataQuery.lookupField] at hlength
  · intro a ha
    simp only [ODataQuery.lookupField, String.toList_append, List.mem_append] at ha
    have hmark : "_".toList.all (fun c => c.isAlphanum || c == '_') = true := by decide
    have hvalue : "_value".toList.all (fun c => c.isAlphanum || c == '_') = true := by decide
    rcases ha with (ha | ha) | ha
    · exact List.all_eq_true.mp hmark a ha
    · exact h.word a ha
    · exact List.all_eq_true.mp hvalue a ha

end Text.IsName

theorem Operator.whole_text (op : Operator) : Whole op.text := whole_plain op.not_cut op.plain_text

theorem StringFunction.whole_text (f : StringFunction) : Whole f.text := whole_plain f.not_cut f.plain_text

theorem Literal.whole_number (x : Binary64) : Whole (Literal.number x).render := by
  apply whole_plain x.not_cut
  rw [Binary64.toText, String.toList_ofList]
  exact Number.plain_text x

theorem Literal.whole_instant (t : Instant) : Whole (Literal.instant t).render := by
  have hplain : Plain (String.ofList t.text).toList := by
    rw [String.toList_ofList]
    exact t.plain_text
  rw [Literal.render, ← quote_plain hplain]
  exact whole_quote _

variable {known : Option AttributeMap} {policy : NanPolicy}

namespace Condition

variable {c : Condition} {e : Expression}

theorem whole_operand {name raw field : String} {value : Literal} {type : AttributeType} (hname : IsName name)
    (bare : type = .boolean ∨ type = .lookup → '&' ∉ raw.toList ∧ Plain raw.toList)
    (h : operands policy name raw type = .ok (field, value)) : Whole field ∧ Whole value.render := by
  cases operand_of_ok h with
  | boolean =>
      obtain ⟨hcut, hplain⟩ := bare (Or.inl rfl)
      refine ⟨hname.whole, whole_plain ?_ (plain_lower hplain)⟩
      rwa [Literal.render, mem_lower (by decide) (by decide)]
  | lookup =>
      obtain ⟨hcut, hplain⟩ := bare (Or.inr rfl)
      exact ⟨hname.lookupField.whole, whole_plain hcut hplain⟩
  | string | unknown | label hnan => exact ⟨hname.whole, whole_quote raw⟩
  | number | code hnan => exact ⟨hname.whole, Literal.whole_number _⟩
  | date ht => exact ⟨hname.whole, Literal.whole_instant _⟩

/-- A comparison of an attribute that is not known to be a truth value or a lookup is of such a type only if
its value looks like it. -/
theorem infer_of_typeOf {type : AttributeType} (quoted : ∀ a ∈ known.bind (·[c.name]?), a.type ≠ type)
    (h : AttributeMap.typeOf known c.name (c.value.getD "") = type) : .infer (c.value.getD "") = type := by
  rw [AttributeMap.typeOf] at h
  split at h
  · rename_i a ha
    exact absurd h (quoted a ha)
  · exact h

theorem whole_expression (hname : IsName c.name)
    (quoted : c.operator.Compares → ∀ a ∈ known.bind (·[c.name]?), a.type ≠ .boolean ∧ a.type ≠ .lookup)
    (he : c.expression? known policy = some e) : Whole e.render := by
  have hblank : Whole " " := whole_plain (by decide) (by decide)
  cases form_of_expression? he with
  | nullTest hnull => exact (hname.whole.append hblank).append c.operator.whole_text
  | @function f negated hf htype =>
      have hnot : Whole (if negated then "not " else "") := by
        cases negated <;> exact whole_plain (by decide) (by decide)
      have hopen : Whole "(" := whole_plain (by decide) (by decide)
      have hcomma : Whole "," := whole_plain (by decide) (by decide)
      have hclose : Whole ")" := whole_plain (by decide) (by decide)
      exact ((((((hnot.append f.whole_text).append hopen).append hname.whole).append hcomma).append
        (whole_quote _)).append hclose)
  | @comparison field value hnull hf hvalue =>
      have hquoted := quoted ⟨hnull, hf⟩
      have bare : AttributeMap.typeOf known c.name (c.value.getD "") = .boolean ∨
          AttributeMap.typeOf known c.name (c.value.getD "") = .lookup →
          '&' ∉ (c.value.getD "").toList ∧ Plain (c.value.getD "").toList := by
        intro hbare
        have hinfer : AttributeType.infer (c.value.getD "") = .boolean ∨
            AttributeType.infer (c.value.getD "") = .lookup :=
          hbare.imp (infer_of_typeOf fun a ha => (hquoted a ha).1) (infer_of_typeOf fun a ha => (hquoted a ha).2)
        exact ⟨AttributeType.not_mem_of_infer hinfer (Or.inl rfl),
          AttributeType.not_mem_of_infer hinfer (Or.inr rfl)⟩
      obtain ⟨hfield, hliteral⟩ := whole_operand hname bare hvalue
      exact (((hfield.append hblank).append c.operator.whole_text).append hblank).append hliteral

end Condition

namespace Expression

theorem whole_groupText {kind : GroupKind} {texts : List String} (h : ∀ s ∈ texts, Whole s) :
    Whole (groupText kind texts) := by
  have hand : Whole (join " and " texts) := whole_join (whole_plain (by decide) (by decide)) h
  have hor : Whole (join " or " texts) := whole_join (whole_plain (by decide) (by decide)) h
  have hopen : Whole "(" := whole_plain (by decide) (by decide)
  have hclose : Whole ")" := whole_plain (by decide) (by decide)
  have hnot : Whole "not (" := whole_plain (by decide) (by decide)
  cases kind with
  | not => exact (hnot.append hand).append hclose
  | and =>
      rcases texts with _ | ⟨s, _ | ⟨s', texts⟩⟩
      · exact (hopen.append hand).append hclose
      · exact h s List.mem_cons_self
      · exact (hopen.append hand).append hclose
  | or =>
      rcases texts with _ | ⟨s, _ | ⟨s', texts⟩⟩
      · exact (hopen.append hor).append hclose
      · exact h s List.mem_cons_self
      · exact (hopen.append hor).append hclose

theorem whole_renderRest {rest : List (Join × Expression)} (h : ∀ p ∈ rest, Whole p.2.render) :
    Whole (renderRest rest) := by
  induction rest with
  | nil =>
      have hempty : Whole "" := whole_plain (by decide) (by decide)
      exact hempty
  | cons p rest ih =>
      obtain ⟨j, e⟩ := p
      have hblank : Whole " " := whole_plain (by decide) (by decide)
      have hjoin : Whole j.text := by cases j <;> exact whole_plain (by decide) (by decide)
      have hrest := ih fun p' hp' => h p' (List.mem_cons_of_mem _ hp')
      exact (((hblank.append hjoin).append hblank).append (h _ List.mem_cons_self)).append hrest

end Expression

namespace Query

variable {q : Query} {e : Expression}

/-- The filter of a legible query is not cut. -/
theorem Legible.whole_filter (legible : q.Legible) (h : q.filter? policy = some e) : Whole e.render := by
  obtain ⟨g, rest, hgroups, hrender⟩ := render_filter h
  have hgroup : ∀ g' ∈ g :: rest, Whole g'.expression.render := by
    intro g' hg'
    rw [g'.render_expression]
    apply Expression.whole_groupText
    intro s hs
    obtain ⟨k, hk, rfl⟩ := List.mem_map.mp hs
    have hkept : k ∈ q.kept policy := by
      rw [kept_eq, hgroups]
      exact List.mem_flatMap.mpr ⟨g', hg', hk⟩
    obtain ⟨g'', hg'', hc, he⟩ := mem_kept.mp hkept
    have hgmem := List.mem_of_getElem? hg''
    have hcmem := List.mem_of_getElem? hc
    exact Condition.whole_expression (legible.conditions _ hgmem _ hcmem) (legible.quoted _ hgmem _ hcmem) he
  rw [hrender]
  refine (hgroup g List.mem_cons_self).append (Expression.whole_renderRest fun p hp => ?_)
  obtain ⟨g', hg', rfl⟩ := List.mem_map.mp hp
  exact hgroup g' (List.mem_cons_of_mem g hg')

theorem Legible.isName_field (legible : q.Legible) {field : String} (h : field ∈ q.fields) : IsName field := by
  obtain ⟨column, hcolumn, rfl⟩ := List.mem_map.mp h
  have hname := legible.columns column hcolumn
  rw [columnField]
  split
  · split
    · exact hname.lookupField
    · exact hname
  · exact hname

/-! ### The parameters -/

theorem Legible.whole_body (legible : q.Legible) {clause : String × Option String}
    (h : clause ∈ q.clauses policy) : ∀ body ∈ clause.2, Whole body := by
  revert clause
  simp only [clauses, List.mem_cons, List.not_mem_nil, or_false, forall_eq_or_imp, forall_eq]
  refine ⟨?_, ?_, ?_, ?_⟩
  · intro body hbody
    split at hbody
    · cases hbody
    · cases hbody
      exact whole_join (whole_plain (by decide) (by decide)) fun _ hfield => (legible.isName_field hfield).whole
  · intro body hbody
    obtain ⟨e, he, rfl⟩ := Option.map_eq_some_iff.mp hbody
    exact legible.whole_filter he
  · intro body hbody
    obtain ⟨n, -, rfl⟩ := Option.map_eq_some_iff.mp hbody
    have hfigures : Figures (decimal n.toNat).toList := by
      rw [decimal, String.toList_ofList]
      exact figures_digits _
    exact whole_plain (hfigures.not_mem (by decide)) (hfigures.not_mem (by decide))
  · intro body hbody
    obtain ⟨name, hname, rfl⟩ := Option.map_eq_some_iff.mp hbody
    have hblank : Whole " " := whole_plain (by decide) (by decide)
    have hdirection : Whole (q.orderDirection.getD .asc).text := by
      cases q.orderDirection.getD .asc <;> exact whole_plain (by decide) (by decide)
    have hattribute := legible.order name (Option.eq_some_of_filter_eq_some hname)
    exact (hattribute.whole.append hblank).append hdirection

theorem Legible.whole_parameters (legible : q.Legible) : ∀ p ∈ q.parameters policy, Whole p := by
  have heads : ∀ head ∈ parameterHeads, '&' ∉ head.toList ∧ Plain head.toList := by decide
  intro p hp
  rw [parameters_eq] at hp
  obtain ⟨⟨head, body?⟩, hclause, hbody⟩ := List.mem_filterMap.mp hp
  obtain ⟨body, rfl, rfl⟩ := Option.map_eq_some_iff.mp hbody
  have hmem : head ∈ parameterHeads := List.mem_map_of_mem (f := Prod.fst) hclause
  obtain ⟨hcut, hplain⟩ := heads head hmem
  exact (whole_plain hcut hplain).append (legible.whole_body hclause body rfl)

end Query

end ODataQuery
