import Mathlib.Data.List.Basic
import ODataQuery.Proofs.Filter.Kept
import ODataQuery.Proofs.Filter.Plain

/-!
No value breaks out of its literal. Somebody who reads a filter text from left to right, and knows of it only
that literals stand between quotes and have their own quotes doubled, finds the values that the query has
for text and for moments, and nothing else. For this a text that follows a literal must not begin with a
quote; in a filter there is always a parenthesis or a blank.
-/

namespace ODataQuery

namespace Text

/-- The literals of a text from some place on, where the characters of the current literal so far are given
if the place is in one. There is no result if the text ends in a literal. -/
def literals? : Option (List Char) → List Char → Option (List String)
  | none, [] => some []
  | none, c :: cs => if c = '\'' then literals? (some []) cs else literals? none cs
  | some _, [] => none
  | some inner, '\'' :: '\'' :: cs => literals? (some (inner ++ ['\''])) cs
  | some inner, c :: cs =>
    if c = '\'' then (literals? none cs).map (String.ofList inner :: ·)
    else literals? (some (inner ++ [c])) cs

theorem literals?_plain {cs rest : List Char} (h : Plain cs) :
    literals? none (cs ++ rest) = literals? none rest := by
  induction cs with
  | nil => rfl
  | cons c cs ih =>
      obtain ⟨hc, hcs⟩ := plain_cons.mp h
      rw [List.cons_append, literals?, if_neg hc, ih hcs]

/-- A quote ends a literal unless another one follows. -/
theorem literals?_quote {inner rest : List Char} (hrest : rest.head? ≠ some '\'') :
    literals? (some inner) ('\'' :: rest) = (literals? none rest).map (String.ofList inner :: ·) := by
  refine (literals?.eq_5 inner '\'' rest ?_).trans (if_pos rfl)
  rintro cs - rfl
  exact hrest rfl

/-- Within a literal, a value with its quotes doubled is read as the value. -/
theorem literals?_doubled {value inner rest : List Char} (hrest : rest.head? ≠ some '\'') :
    literals? (some inner) (doubleQuotes value ++ '\'' :: rest) =
      (literals? none rest).map (String.ofList (inner ++ value) :: ·) := by
  induction value generalizing inner with
  | nil => rw [doubleQuotes, List.nil_append, List.append_nil, literals?_quote hrest]
  | cons c value ih =>
      by_cases hc : c = '\''
      · subst hc
        rw [doubleQuotes, if_pos rfl, List.cons_append, List.cons_append, literals?, ih, List.append_assoc]
        rfl
      · rw [doubleQuotes, if_neg hc, List.cons_append, literals?, if_neg hc, ih, List.append_assoc]
        · rfl
        · rintro cs rfl
          exact absurd rfl hc

/-- A text has certain literals wherever it stands, if what follows does not begin with a quote. -/
def Reads (text : String) (found : List String) : Prop :=
  ∀ rest : List Char, rest.head? ≠ some '\'' →
    literals? none (text.toList ++ rest) = (literals? none rest).map (found ++ ·)

variable {text text' : String} {found found' : List String}

theorem Reads.all (h : Reads text found) : literals? none text.toList = some found := by
  have hend := h [] (by simp)
  rwa [List.append_nil, literals?, Option.map_some, List.append_nil] at hend

theorem reads_plain (h : Plain text.toList) : Reads text [] := by
  intro rest _
  rw [literals?_plain h]
  exact Option.map_id'.symm

theorem reads_quote (value : String) : Reads (quote value) [value] := by
  intro rest hrest
  rw [quote, String.toList_ofList, List.cons_append, List.cons_append, List.append_assoc, literals?,
    if_pos rfl, List.singleton_append, literals?_doubled hrest, List.nil_append, String.ofList_toList]
  rfl

/-- A text without quotes may stand in front. -/
theorem Reads.after_plain (front : String) (hplain : Plain front.toList) (h : Reads text found) :
    Reads (front ++ text) found := by
  intro rest hrest
  rw [String.toList_append, List.append_assoc, literals?_plain hplain, h rest hrest]

theorem head?_ne_quote {cs rest : List Char} (h : Plain cs) (hrest : cs = [] → rest.head? ≠ some '\'') :
    (cs ++ rest).head? ≠ some '\'' := by
  cases cs with
  | nil => exact hrest rfl
  | cons c cs =>
      intro hc
      exact (plain_cons.mp h).1 (Option.some.inj hc)

/-- A text without quotes may stand behind. -/
theorem Reads.before_plain (h : Reads text found) (hplain : Plain text'.toList) :
    Reads (text ++ text') found := by
  intro rest hrest
  rw [String.toList_append, List.append_assoc, h _ (head?_ne_quote hplain fun _ => hrest),
    literals?_plain hplain]

/-- Texts may be put together with something between them that does not begin with a quote. -/
theorem Reads.append (h : Reads text found) {between : String} (hb : Plain between.toList)
    (hne : between.toList ≠ []) (h' : Reads text' found') :
    Reads (text ++ between ++ text') (found ++ found') := by
  intro rest hrest
  rw [String.toList_append, String.toList_append, List.append_assoc, List.append_assoc,
    h _ (head?_ne_quote hb fun hnil => absurd hnil hne), literals?_plain hb, h' rest hrest, Option.map_map]
  congr 1
  funext found''
  rw [Function.comp_apply, List.append_assoc]

theorem doubleQuotes_plain {cs : List Char} (h : Plain cs) : doubleQuotes cs = cs := by
  induction cs with
  | nil => rfl
  | cons c cs ih =>
      obtain ⟨hc, hcs⟩ := plain_cons.mp h
      rw [doubleQuotes, if_neg hc, ih hcs]

/-- A text without quotes needs none doubled. -/
theorem quote_plain {s : String} (h : Plain s.toList) : quote s = "'" ++ s ++ "'" := by
  rw [quote, doubleQuotes_plain h]
  apply String.toList_inj.mp
  rw [String.toList_ofList, String.toList_append, String.toList_append]
  rfl

/-- Texts with a separator between them have the literals of the texts. -/
theorem reads_join {α : Type} {text : α → String} {found : α → List String} (separator : String)
    (hs : Plain separator.toList) (hne : separator.toList ≠ []) {as : List α}
    (h : ∀ a ∈ as, Reads (text a) (found a)) : Reads (join separator (as.map text)) (as.flatMap found) := by
  induction as with
  | nil =>
      have hempty : Reads "" [] := reads_plain plain_nil
      exact hempty
  | cons a rest ih =>
      have ha : Reads (text a) (found a) := h a List.mem_cons_self
      cases rest with
      | nil =>
          rw [List.flatMap_singleton]
          exact ha
      | cons a' rest => exact ha.append hs hne (ih fun b hb => h b (List.mem_cons_of_mem a hb))

end Text

open Text

namespace Condition

variable (known : Option AttributeMap) (c : Condition)

/-- The literal that the condition is written with, if it has one: the value as it stands for text and for
functions on strings, and the moment for a date. -/
def literal? : Option String :=
  let raw := c.value.getD ""
  if c.operator.isNullTest then none
  else if c.operator.stringFunction?.isSome then some raw
  else
    match AttributeMap.typeOf known c.name raw with
    | .string | .unknown => some raw
    | .optionset => if (Number.ofText raw).isNaN then some raw else none
    | .date => (Instant.ofText? raw).map fun t => String.ofList t.text
    | .number | .boolean | .lookup => none

/-- The condition is written with its value as it stands, without quotes. -/
structure WrittenBare : Prop where
  no_null_test : c.operator.isNullTest = false
  no_function : c.operator.stringFunction? = none
  bare : AttributeMap.typeOf known c.name (c.value.getD "") = .boolean ∨
    AttributeMap.typeOf known c.name (c.value.getD "") = .lookup

/-- Nothing that is written without quotes has a quote in it. -/
structure Harmless : Prop where
  name : Plain c.name.toList
  value : c.WrittenBare known → Plain (c.value.getD "").toList

instance : Decidable (c.WrittenBare known) :=
  decidable_of_iff (c.operator.isNullTest = false ∧ c.operator.stringFunction? = none ∧
    (AttributeMap.typeOf known c.name (c.value.getD "") = .boolean ∨
      AttributeMap.typeOf known c.name (c.value.getD "") = .lookup))
    ⟨fun ⟨h, h', h''⟩ => ⟨h, h', h''⟩, fun ⟨h, h', h''⟩ => ⟨h, h', h''⟩⟩

instance : Decidable (c.Harmless known) :=
  decidable_of_iff (Plain c.name.toList ∧ (c.WrittenBare known → Plain (c.value.getD "").toList))
    ⟨fun ⟨h, h'⟩ => ⟨h, h'⟩, fun ⟨h, h'⟩ => ⟨h, h'⟩⟩

variable {known c} {policy : NanPolicy} {e : Expression}

theorem reads_number (x : Binary64) : Reads (Literal.number x).render [] := by
  apply reads_plain
  rw [Literal.render, Binary64.toText, String.toList_ofList]
  exact Number.plain_text x

theorem reads_instant (t : Instant) : Reads (Literal.instant t).render [String.ofList t.text] := by
  have hplain : Plain (String.ofList t.text).toList := by
    rw [String.toList_ofList]
    exact t.plain_text
  rw [Literal.render, ← quote_plain hplain]
  exact reads_quote _

/-- The operand of a comparison has the literal of its condition. -/
theorem reads_operand {field : String} {value : Literal} (hc : c.Harmless known)
    (hnull : c.operator.isNullTest = false) (hf : c.operator.stringFunction? = none)
    (h : operands policy c.name (c.value.getD "")
      (AttributeMap.typeOf known c.name (c.value.getD "")) = .ok (field, value)) :
    Plain field.toList ∧ Reads value.render (c.literal? known).toList := by
  have hliteral : c.literal? known =
      match AttributeMap.typeOf known c.name (c.value.getD "") with
      | .string | .unknown => some (c.value.getD "")
      | .optionset => if (Number.ofText (c.value.getD "")).isNaN then some (c.value.getD "") else none
      | .date => (Instant.ofText? (c.value.getD "")).map fun t => String.ofList t.text
      | .number | .boolean | .lookup => none := by
    rw [literal?, if_neg (by simp [hnull]), if_neg (by simp [hf])]
  have hbare : AttributeMap.typeOf known c.name (c.value.getD "") = .boolean ∨
      AttributeMap.typeOf known c.name (c.value.getD "") = .lookup → Plain (c.value.getD "").toList :=
    fun hbare => hc.value ⟨hnull, hf, hbare⟩
  rw [hliteral]
  generalize AttributeMap.typeOf known c.name (c.value.getD "") = type at h hbare ⊢
  cases operand_of_ok h with
  | boolean => exact ⟨hc.name, reads_plain (plain_lower (hbare (Or.inl rfl)))⟩
  | lookup =>
      refine ⟨?_, reads_plain (hbare (Or.inr rfl))⟩
      rw [lookupField, String.toList_append, String.toList_append]
      exact plain_append.mpr ⟨plain_append.mpr ⟨by decide, hc.name⟩, by decide⟩
  | string | unknown => exact ⟨hc.name, reads_quote _⟩
  | number => exact ⟨hc.name, reads_number _⟩
  | date ht =>
      simp only [ht]
      exact ⟨hc.name, reads_instant _⟩
  | code hnan =>
      simp only [hnan]
      exact ⟨hc.name, reads_number _⟩
  | label hnan =>
      simp only [hnan]
      exact ⟨hc.name, reads_quote _⟩

/-- A condition's text has the literal of the condition. -/
theorem reads_expression (hc : c.Harmless known) (he : c.expression? known policy = some e) :
    Reads e.render (c.literal? known).toList := by
  cases form_of_expression? he with
  | nullTest hnull =>
      rw [literal?, if_pos hnull, Expression.render]
      apply reads_plain
      rw [String.toList_append, String.toList_append]
      exact plain_append.mpr ⟨plain_append.mpr ⟨hc.name, by decide⟩, c.operator.plain_text⟩
  | @function f negated hf htype =>
      have hnull : c.operator.isNullTest = false :=
        Operator.not_isNullTest_of_function (Option.isSome_of_eq_some hf)
      rw [literal?, if_neg (by simp [hnull]), if_pos (by simp [hf]), Expression.render]
      refine ((reads_quote _).after_plain _ ?_).before_plain (by decide)
      simp only [String.toList_append, plain_append]
      refine ⟨⟨⟨⟨?_, f.plain_text⟩, by decide⟩, hc.name⟩, by decide⟩
      cases negated <;> decide
  | @comparison field value hnull hf hvalue =>
      obtain ⟨hfield, hread⟩ := reads_operand hc hnull hf hvalue
      rw [Expression.render]
      refine hread.after_plain _ ?_
      simp only [String.toList_append, plain_append]
      exact ⟨⟨⟨hfield, by decide⟩, c.operator.plain_text⟩, by decide⟩

end Condition

/-- The literals of a kept condition, one or none. -/
def Kept.literals (known : Option AttributeMap) (k : Kept) : List String := (k.condition.literal? known).toList

variable {known : Option AttributeMap} {policy : NanPolicy}

/-- A group's text has the literals of its conditions. -/
theorem KeptGroup.reads_expression {g : KeptGroup} (compiled : ∀ k ∈ g.conditions, k.Compiled known policy)
    (harmless : ∀ k ∈ g.conditions, k.condition.Harmless known) :
    Reads g.expression.render (g.conditions.flatMap (·.literals known)) := by
  have hcondition : ∀ k ∈ g.conditions, Reads k.expression.render (k.literals known) :=
    fun k hk => Condition.reads_expression (harmless k hk) (compiled k hk)
  have hand := reads_join " and " (by decide) (by decide) hcondition
  have hor := reads_join " or " (by decide) (by decide) hcondition
  rw [render_expression]
  obtain ⟨kind, join, first, others⟩ := g
  cases kind with
  | not => exact (hand.after_plain "not (" (by decide)).before_plain (by decide)
  | and =>
      cases others with
      | nil => exact hand
      | cons second others => exact (hand.after_plain "(" (by decide)).before_plain (by decide)
  | or =>
      cases others with
      | nil => exact hor
      | cons second others => exact (hor.after_plain "(" (by decide)).before_plain (by decide)

/-- The groups after the first bring in their literals, whatever stands before them. -/
theorem Expression.reads_rest {text : String} {found : List String} (h : Reads text found)
    {rest : List KeptGroup} (compiled : ∀ g ∈ rest, ∀ k ∈ g.conditions, k.Compiled known policy)
    (harmless : ∀ g ∈ rest, ∀ k ∈ g.conditions, k.condition.Harmless known) :
    Reads (text ++ renderRest (rest.map fun g => (g.join, g.expression)))
      (found ++ rest.flatMap fun g => g.conditions.flatMap (·.literals known)) := by
  induction rest generalizing text found with
  | nil =>
      rw [List.flatMap_nil, List.append_nil]
      exact h.before_plain (by decide)
  | cons g rest ih =>
      have hgroup := KeptGroup.reads_expression (compiled g List.mem_cons_self) (harmless g List.mem_cons_self)
      have hbetween : Plain (" " ++ g.join.text ++ " ").toList ∧ (" " ++ g.join.text ++ " ").toList ≠ [] := by
        cases g.join <;> decide
      have hrest := ih (h.append hbetween.1 hbetween.2 hgroup)
        (fun g' hg' => compiled g' (List.mem_cons_of_mem g hg'))
        (fun g' hg' => harmless g' (List.mem_cons_of_mem g hg'))
      rw [List.flatMap_cons, ← List.append_assoc, List.map_cons, renderRest]
      simpa only [String.append_assoc] using hrest

/-- No value breaks out of its literal. If no attribute name has a quote, and no value that is written as it
stands, then the literals in the text of a filter are those of its conditions, in order, and the text does not
end in one. -/
theorem Query.literals_of_filter {q : Query} {e : Expression}
    (harmless : ∀ g ∈ q.groups, ∀ c ∈ g.conditions, c.Harmless q.known)
    (h : q.filter? policy = some e) :
    literals? none e.render.toList = some ((q.kept policy).filterMap fun k => k.condition.literal? q.known) := by
  have hharmless : ∀ g ∈ q.keptGroups policy, ∀ k ∈ g.conditions, k.condition.Harmless q.known := by
    intro g hg k hk
    have hmem : k ∈ q.kept policy := by
      rw [kept_eq]
      exact List.mem_flatMap.mpr ⟨g, hg, hk⟩
    obtain ⟨g', hg', hc, -⟩ := mem_kept.mp hmem
    exact harmless g' (List.mem_of_getElem? hg') k.condition (List.mem_of_getElem? hc)
  obtain ⟨g, rest, hgroups, hrender⟩ := render_filter h
  have hcompiled : ∀ g' ∈ g :: rest, ∀ k ∈ g'.conditions, k.Compiled q.known policy := by
    intro g' hg'
    exact compiled_of_mem (hgroups ▸ hg')
  rw [hgroups] at hharmless
  have hfirst := KeptGroup.reads_expression (hcompiled g List.mem_cons_self) (hharmless g List.mem_cons_self)
  have hall := Expression.reads_rest hfirst
    (fun g' hg' => hcompiled g' (List.mem_cons_of_mem g hg'))
    (fun g' hg' => hharmless g' (List.mem_cons_of_mem g hg'))
  rw [hrender, hall.all, kept_eq, hgroups, List.filterMap_eq_flatMap_toList, List.flatMap_assoc]
  rfl

/-- A value made of quotes, one that looks like the filter language, a date, and a truth value. -/
theorem Query.literals_of_filter_quotes :
    let q : Query := { groups := [
      { conditions := [⟨"name", .eq, some "''' or name ne '"⟩, ⟨"on", .lt, some "2024-02-29"⟩] },
      { kind := .not, conditions := [⟨"name", .notContains, some "'"⟩, ⟨"open", .eq, some "TRUE"⟩],
        join := some .or }] }
    (∀ g ∈ q.groups, ∀ c ∈ g.conditions, c.Harmless q.known) ∧
      ∃ e, q.filter? .emit = some e ∧
        literals? none e.render.toList = some ["''' or name ne '", "2024-02-29T00:00:00.000Z", "'"] := by
  intro q
  have harmless : ∀ g ∈ q.groups, ∀ c ∈ g.conditions, c.Harmless q.known := by decide +kernel
  obtain ⟨e, he⟩ : ∃ e, q.filter? .emit = some e := Option.isSome_iff_exists.mp (by decide +kernel)
  refine ⟨harmless, e, he, (Query.literals_of_filter harmless he).trans ?_⟩
  decide +kernel

end ODataQuery
