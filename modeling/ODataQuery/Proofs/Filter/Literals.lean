import ODataQuery.Proofs.Attribute.Identifier
import ODataQuery.Proofs.Attribute.Inference
import ODataQuery.Proofs.Filter.Plain
import ODataQuery.Proofs.Number.Numerals

/-!
How a value is written in a comparison of an attribute of which nothing is known. There are four forms: one of the
words for truth, an identifier of five groups of hexadecimal digits, a number, and a text between quotes. No text has
two of them. What is written has the form that belongs to the type the value suggests, with one exception: the words
for truth are written in lower case but with the blanks that stood around them, and then the text has no form at all.
-/

namespace ODataQuery

/-! ### The forms -/

namespace Text

/-- Every quote is one of two that stand together. -/
inductive Doubled : List Char → Prop where
  | nil : Doubled []
  | plain {c cs} (hc : c ≠ '\'') (hcs : Doubled cs) : Doubled (c :: cs)
  | quotes {cs} (hcs : Doubled cs) : Doubled ('\'' :: '\'' :: cs)

end Text

open Text

/-- The forms of a literal. -/
inductive LiteralForm where
  | truth | identifier | number | quoted
  deriving DecidableEq

/-- The texts of a form. -/
def LiteralForm.Spells : LiteralForm → List Char → Prop
  | truth, cs => cs = "true".toList ∨ cs = "false".toList
  | identifier, cs => IsIdentifier cs
  | number, cs => Numeral cs
  | quoted, cs => ∃ inner, Doubled inner ∧ cs = '\'' :: inner ++ ['\'']

/-- The form that belongs to a type. -/
def AttributeType.form : AttributeType → LiteralForm
  | boolean => .truth
  | lookup => .identifier
  | number => .number
  | string | date | optionset | unknown => .quoted

/-! ### Quoted texts -/

namespace Text

theorem doubled_doubleQuotes (cs : List Char) : Doubled (doubleQuotes cs) := by
  induction cs with
  | nil => exact .nil
  | cons c cs ih =>
      rw [doubleQuotes]
      split
      · rename_i hc
        exact hc ▸ .quotes ih
      · rename_i hc
        exact .plain hc ih

theorem doubled_plain {cs : List Char} (h : Plain cs) : Doubled cs := by
  induction cs with
  | nil => exact .nil
  | cons c cs ih =>
      obtain ⟨hc, hcs⟩ := plain_cons.mp h
      exact .plain hc (ih hcs)

end Text

/-! ### No text has two forms -/

namespace LiteralForm

variable {form form' : LiteralForm} {cs : List Char}

theorem Spells.figures (h : form.Spells cs) (hform : form ≠ quoted) : Figures cs := by
  cases form with
  | truth =>
      obtain rfl | rfl := h
      · decide
      · decide
  | identifier => exact IsIdentifier.figures h
  | number =>
      cases h with
      | plain hcs => exact hcs.figures
      | minus hcs => exact figures_cons.mpr ⟨rfl, hcs.figures⟩
  | quoted => exact absurd rfl hform

/-- The form that a text has if it has one: quotes, hyphens and digits tell the forms apart. -/
def of (cs : List Char) : LiteralForm :=
  if '\'' ∈ cs then quoted else if cs.count '-' = 4 then identifier
  else if cs.any Char.isDigit then number else truth

theorem Spells.of_eq (h : form.Spells cs) : of cs = form := by
  -- A quoted text has quotes, the others consist of figures and have none.
  by_cases hform : form = quoted
  · subst hform
    obtain ⟨inner, -, rfl⟩ := h
    exact if_pos List.mem_cons_self
  · rw [of, if_neg ((h.figures hform).not_mem (by decide))]
    cases form with
    | truth =>
        obtain rfl | rfl := h
        · decide
        · decide
    | identifier => exact if_pos (IsIdentifier.count_hyphen h)
    | number =>
        cases h with
        | plain hcs =>
            have hcount := hcs.count_hyphen_le
            rw [if_neg (by omega), if_pos hcs.any_isDigit]
        | @minus cs hcs =>
            have hcount := hcs.count_hyphen_le
            have hdigit : ('-' :: cs).any Char.isDigit = true := hcs.any_isDigit
            rw [List.count_cons_self, if_neg (by omega), if_pos hdigit]
    | quoted => exact absurd rfl hform

theorem Spells.unique (h : form.Spells cs) (h' : form'.Spells cs) : form = form' :=
  h.of_eq.symm.trans h'.of_eq

end LiteralForm

/-! ### What is written for a value -/

variable {raw : String} {type : AttributeType} {value : Literal}

theorem Literal.spells_text (s : String) : LiteralForm.quoted.Spells (Literal.text s).render.toList :=
  ⟨doubleQuotes s.toList, doubled_doubleQuotes s.toList, String.toList_ofList⟩

theorem Literal.spells_instant (t : Instant) : LiteralForm.quoted.Spells (Literal.instant t).render.toList := by
  refine ⟨t.text, doubled_plain t.plain_text, ?_⟩
  have htext : (String.ofList t.text).toList = t.text := String.toList_ofList
  rw [render, String.toList_append, String.toList_append, htext]
  rfl

namespace Suggestion

/-- Truth is written between the blanks that stood around it. -/
theorem exists_word (h : Suggestion raw type value) (htype : type = .boolean) :
    ∃ before word after, Blanks before ∧ Blanks after ∧ raw.toList = before ++ trim raw.toList ++ after ∧
      value.render.toList = before ++ word ++ after ∧ LiteralForm.truth.Spells word := by
  subst htype
  cases h with
  | truth hword =>
      obtain hword | hword := hword
      · have hfold : fold (trimmed raw) = "true" := (eq_of_beq hword).trans (by decide)
        obtain ⟨before, after, hbefore, hafter, hraw, hlower⟩ := lower_around hfold (by decide)
        exact ⟨before, _, after, hbefore, hafter, hraw, hlower, .inl rfl⟩
      · have hfold : fold (trimmed raw) = "false" := (eq_of_beq hword).trans (by decide)
        obtain ⟨before, after, hbefore, hafter, hraw, hlower⟩ := lower_around hfold (by decide)
        exact ⟨before, _, after, hbefore, hafter, hraw, hlower, .inr rfl⟩

/-- Everything but truth is written in its form. -/
theorem spells (h : Suggestion raw type value) (htype : type ≠ .boolean) : type.form.Spells value.render.toList := by
  cases h with
  | truth hword => exact absurd rfl htype
  | identifier hguid => exact isIdentifier_of_isGuid hguid
  | number hx =>
      rw [Literal.render, Binary64.toText, String.toList_ofList]
      exact Number.numeral_text (Number.isFinite_of_finite? hx)
  | date ht => exact Literal.spells_instant _
  | text => exact Literal.spells_text raw

end Suggestion

namespace LiteralForm.Spells

variable {form : LiteralForm} {before word after : List Char}

theorem not_mem_between_blanks (hbefore : Blanks before) (hafter : Blanks after) (hword : truth.Spells word) {c : Char}
    (hblank : isBlank c = false) (hfigure : isFigure c = false) : c ∉ before ++ word ++ after := by
  rw [List.mem_append, List.mem_append]
  rintro ((hc | hc) | hc)
  · cases hblank.symm.trans (hbefore c hc)
  · exact (hword.figures (by decide)).not_mem hfigure hc
  · cases hblank.symm.trans (hafter c hc)

/-- With blanks around it, a word for truth has no form. -/
theorem eq_nil_of_blanks (hbefore : Blanks before) (hafter : Blanks after) (hword : truth.Spells word)
    (h : form.Spells (before ++ word ++ after)) : before = [] ∧ after = [] := by
  have hform : form ≠ quoted := by
    rintro rfl
    obtain ⟨inner, -, htext⟩ := h
    have hquote : '\'' ∈ before ++ word ++ after := htext ▸ List.mem_cons_self
    exact not_mem_between_blanks hbefore hafter hword (by decide) (by decide) hquote
  have hfigures := h.figures hform
  rw [figures_append, figures_append] at hfigures
  obtain ⟨⟨hfront, -⟩, hback⟩ := hfigures
  have hnil : ∀ {cs}, Blanks cs → Figures cs → cs = [] := by
    intro cs hblanks hfigures
    refine List.eq_nil_iff_forall_not_mem.mpr fun c hc => ?_
    exact hfigures.not_mem (not_isFigure_of_isBlank (hblanks c hc)) hc
  exact ⟨hnil hbefore hfront, hnil hafter hback⟩

end LiteralForm.Spells

namespace Suggestion

/-- What a value is written as has the form of its type and no other, unless it is truth with blanks around it. -/
theorem spells_iff (h : Suggestion raw type value) (form : LiteralForm) :
    form.Spells value.render.toList ↔ form = type.form ∧ (type = .boolean → trimmed raw = raw) := by
  by_cases htype : type = .boolean
  · obtain ⟨before, word, after, hbefore, hafter, hraw, htext, hword⟩ := h.exists_word htype
    subst htype
    rw [htext]
    constructor
    · intro hform
      obtain ⟨rfl, rfl⟩ := LiteralForm.Spells.eq_nil_of_blanks hbefore hafter hword hform
      rw [List.nil_append, List.append_nil] at hform hraw
      refine ⟨hform.unique hword, fun _ => ?_⟩
      rw [trimmed, ← hraw, String.ofList_toList]
    · rintro ⟨rfl, htrimmed⟩
      have hsame : trim raw.toList = raw.toList := by
        rw [← toList_trimmed, htrimmed rfl]
      obtain ⟨rfl, rfl⟩ : before = [] ∧ after = [] := by
        have hlength := congrArg List.length hraw
        simp only [hsame, List.length_append] at hlength
        exact ⟨List.length_eq_zero_iff.mp (by omega), List.length_eq_zero_iff.mp (by omega)⟩
      rwa [List.nil_append, List.append_nil]
  · have hspells := h.spells htype
    constructor
    · intro hform
      exact ⟨hform.unique hspells, fun htrue => absurd htrue htype⟩
    · rintro ⟨rfl, -⟩
      exact hspells

theorem not_blank (h : Suggestion raw type value) (hform : type.form ≠ .quoted)
    (hbare : type = .boolean → trimmed raw = raw) : ∀ b ∈ value.render.toList, isBlank b = false := by
  intro b hb
  have hfigures := ((h.spells_iff type.form).mpr ⟨rfl, hbare⟩).figures hform
  refine Bool.eq_false_iff.mpr fun hblank => ?_
  exact hfigures.not_mem (not_isFigure_of_isBlank hblank) hb

end Suggestion

/-- What is written behind the operator for an attribute that is not known. It is a literal of the form that belongs
to the type the value suggests, and of no other form, and only a text in quotes has blanks in it. The words for truth
are the exception: they are written with the blanks that stood around them in the value, and if there were any, what
is written is no literal. -/
theorem spelled_as_suggested (known : Option AttributeMap) (c : Condition)
    (hunknown : known.bind (·[c.name]?) = none) (hop : c.operator.Compares) :
    let raw := c.value.getD ""
    let type := AttributeType.infer raw
    ∃ text : String,
      (∀ policy, ∃ e, c.compile known policy = .ok e ∧
        e.render = type.field c.name ++ " " ++ c.operator.text ++ " " ++ text) ∧
      (∀ form : LiteralForm, form.Spells text.toList ↔ form = type.form ∧ (type = .boolean → trimmed raw = raw)) ∧
      (type.form ≠ .quoted → (type = .boolean → trimmed raw = raw) → ∀ b ∈ text.toList, isBlank b = false) ∧
      (type = .boolean → ∃ before word after, Blanks before ∧ Blanks after ∧
        raw.toList = before ++ trim raw.toList ++ after ∧ text.toList = before ++ word ++ after ∧
        LiteralForm.truth.Spells word) := by
  intro raw type
  obtain ⟨value, hvalue⟩ := AttributeType.exists_suggestion raw
  exact ⟨value.render, fun policy => ⟨_, hvalue.compile_eq hunknown hop rfl policy, rfl⟩, hvalue.spells_iff,
    hvalue.not_blank, hvalue.exists_word⟩

/-- A blank before `TRUE` and one behind it. -/
theorem spelled_as_suggested_between_blanks :
    let c : Condition := ⟨"active", .eq, some " TRUE "⟩
    c.operator.Compares ∧ AttributeType.infer " TRUE " = .boolean ∧
      ∃ e, c.compile none .emit = .ok e ∧ e.render = "active eq  true " ∧
        ∀ form : LiteralForm, ¬ form.Spells " true ".toList := by
  intro c
  have hop : c.operator.Compares := by decide
  have htype : AttributeType.infer " TRUE " = .boolean := by decide +kernel
  have htrimmed : trimmed " TRUE " ≠ " TRUE " := by decide +kernel
  have hwritten : (c.expression? none .emit).map (·.render) = some "active eq  true " := by decide +kernel
  obtain ⟨text, hcompile, hforms, -, -⟩ := spelled_as_suggested none c rfl hop
  obtain ⟨e, he, hrender⟩ := hcompile .emit
  rw [Condition.expression?_eq_some_iff.mpr he, Option.map_some, Option.some_inj] at hwritten
  have htext : text = " true " := by
    have hfield : (AttributeType.infer " TRUE ").field "active" = "active" := by rw [htype]; rfl
    refine (String.append_right_inj ("active" ++ " " ++ "eq" ++ " ")).mp ?_
    exact (congrArg (· ++ " " ++ "eq" ++ " " ++ text) hfield.symm).trans (hrender.symm.trans hwritten)
  refine ⟨hop, htype, e, he, hwritten, fun form hspells => ?_⟩
  exact htrimmed (((hforms form).mp (htext ▸ hspells)).2 htype)

end ODataQuery
