import ODataQuery.Proofs.Query.Diagnostics
import ODataQuery.Proofs.Text.Trimmed

/-!
What a value is taken for, and what it is then written as. An attribute of which nothing is known has the type that
the value suggests, and the value is read a second time when the literal is made: inference reads it without the
blanks around it, the literal is made from the value as it was typed. Both readings find the same number and the
same moment, so that no comparison of such an attribute fails, and no number in it is infinite or missing.
-/

namespace ODataQuery

open Text

/-! ### The two readings -/

namespace Number

variable {raw : String} {x : Binary64}

theorem isFinite_of_finite? {cs : List Char} (h : finite? cs = some x) : x.isFinite = true :=
  (Option.filter_eq_some_iff.mp h).2

/-- The words for numbers are no numerals, and neither is a blank text. -/
theorem ofText_of_read? {d : Decimal} (h : Decimal.read? (trim raw.toList) = some d) : ofText raw = d.toBinary64 := by
  have hword : ∀ word, Decimal.read? word = none → trim raw.toList ≠ word := by
    rintro word hnone rfl
    cases hnone.symm.trans h
  have hinfinity : ¬ (trim raw.toList = "Infinity".toList ∨ trim raw.toList = "+Infinity".toList) :=
    not_or.mpr ⟨hword _ (by decide +kernel), hword _ (by decide +kernel)⟩
  rw [ofText, if_neg (hword [] (by decide +kernel)), if_neg hinfinity, if_neg (hword _ (by decide +kernel)), h]

theorem ofText_of_finite? (h : finite? (trimmed raw).toList = some x) : ofText raw = x := by
  rw [toList_trimmed] at h
  obtain ⟨d, hd, rfl⟩ := Option.map_eq_some_iff.mp (Option.filter_eq_some_iff.mp h).1
  exact ofText_of_read? hd

end Number

theorem Instant.ofText?_trimmed (raw : String) : ofText? (trimmed raw) = ofText? raw := by
  rw [ofText?, toList_trimmed, trim_trim]
  rfl

/-! ### What a value suggests -/

/-- The type that a value suggests, with the literal that it is written as. -/
inductive Suggestion (raw : String) : AttributeType → Literal → Prop where
  | truth (hword : sameFolded (trimmed raw) "true" = true ∨ sameFolded (trimmed raw) "false" = true) :
      Suggestion raw .boolean (.raw (lower raw))
  | identifier (hguid : isGuid raw = true) : Suggestion raw .lookup (.raw raw)
  | number {x} (hx : Number.finite? (trimmed raw).toList = some x) : Suggestion raw .number (.number x)
  | date {t} (ht : Instant.ofText? (trimmed raw) = some t) : Suggestion raw .date (.instant t)
  | text : Suggestion raw .string (.text raw)

namespace AttributeType

/-- The field that an attribute of the type is compared by. -/
def field (name : String) : AttributeType → String
  | lookup => lookupField name
  | _ => name

theorem exists_suggestion (raw : String) : ∃ value, Suggestion raw (infer raw) value := by
  rw [infer]
  split
  · rename_i hword
    exact ⟨_, .truth (Bool.or_eq_true _ _ |>.mp hword)⟩
  · split
    · rename_i hguid
      exact ⟨_, .identifier hguid⟩
    · split
      · rename_i hnumber
        obtain ⟨x, hx⟩ := Option.isSome_iff_exists.mp hnumber
        exact ⟨_, .number hx⟩
      · split
        · rename_i hdate
          obtain ⟨t, ht⟩ := Option.isSome_iff_exists.mp hdate
          exact ⟨_, .date ht⟩
        · exact ⟨_, .text⟩

end AttributeType

namespace Suggestion

variable {raw : String} {type : AttributeType} {value : Literal}

/-- A value is written as the literal that it suggests, by either policy. -/
theorem operands_eq (h : Suggestion raw type value) (policy : NanPolicy) (name : String) :
    Condition.operands policy name raw type = .ok (type.field name, value) := by
  cases h with
  | truth hword => rfl
  | identifier hguid => rfl
  | @number x hx =>
      have hnan : x.isNaN = false := by
        have hfinite := Number.isFinite_of_finite? hx
        cases x with
        | nan => cases hfinite
        | signed => rfl
      rw [Condition.operands, Number.ofText_of_finite? hx, hnan]
      rfl
  | date ht =>
      rw [Condition.operands, ← Instant.ofText?_trimmed, ht]
      rfl
  | text => rfl

theorem isFinite {x : Binary64} (h : Suggestion raw type (.number x)) : x.isFinite = true := by
  cases h with
  | number hx => exact Number.isFinite_of_finite? hx

end Suggestion

variable {known : Option AttributeMap} {c : Condition}

theorem AttributeMap.typeOf_of_unknown {name value : String} (h : known.bind (·[name]?) = none) :
    typeOf known name value = .infer value := by
  rw [typeOf, h]

/-- A comparison of an attribute that is not known is compiled to what its value suggests. -/
theorem Suggestion.compile_eq {type : AttributeType} {value : Literal} (hunknown : known.bind (·[c.name]?) = none)
    (hop : c.operator.Compares) (htype : AttributeType.infer (c.value.getD "") = type)
    (h : Suggestion (c.value.getD "") type value) (policy : NanPolicy) :
    c.compile known policy = .ok (.comparison (type.field c.name) c.operator value) := by
  rw [Condition.compile_comparison hop, AttributeMap.typeOf_of_unknown hunknown, htype, h.operands_eq]
  rfl

/-- What is dropped of an attribute that is not known is a function on strings. -/
theorem Query.reason_of_unknown {q : Query} {policy : NanPolicy} {d : Dropped} (hd : d ∈ q.dropped policy)
    (hunknown : q.known.bind (·[d.name]?) = none) : ∃ type, d.reason = .functionOnNonString type := by
  obtain ⟨g, c, -, -, hname, -, hreason⟩ := mem_dropped.mp hd
  rw [hname] at hunknown
  have hcompares : ¬ c.operator.Compares := by
    intro hop
    obtain ⟨value, hvalue⟩ := AttributeType.exists_suggestion (c.value.getD "")
    have herror := Condition.compile_eq_error_iff.mpr hreason
    cases herror.symm.trans (hvalue.compile_eq hunknown hop rfl policy)
  generalize d.reason = reason at hreason
  cases hreason with
  | function => exact ⟨_, rfl⟩
  | date hop | number hop => exact absurd hop hcompares

/-- Inference and literals agree. A comparison of an attribute that is not known always has an expression, the same
by both policies. If the value is taken for a number, the literal is the number that was found in it, and if it is
taken for a moment, the moment that was found. So a number is always finite, and no query drops such a comparison. -/
theorem inference_agrees (known : Option AttributeMap) (c : Condition) (hunknown : known.bind (·[c.name]?) = none)
    (hop : c.operator.Compares) :
    let raw := c.value.getD ""
    ∃ value : Literal,
      (∀ policy, c.compile known policy =
        .ok (.comparison ((AttributeType.infer raw).field c.name) c.operator value)) ∧
      (.infer raw = AttributeType.number →
        ∃ x, Number.finite? (trimmed raw).toList = some x ∧ value = .number x) ∧
      (.infer raw = AttributeType.date → ∃ t, Instant.ofText? (trimmed raw) = some t ∧ value = .instant t) ∧
      (∀ x, value = .number x → x.isFinite = true) ∧
      ∀ (q : Query) (policy : NanPolicy), q.known = known → ∀ d ∈ (q.compile policy).dropped, d.name = c.name →
        ∃ type, d.reason = .functionOnNonString type := by
  intro raw
  obtain ⟨value, hvalue⟩ := AttributeType.exists_suggestion raw
  refine ⟨value, hvalue.compile_eq hunknown hop rfl, ?_, ?_, ?_, ?_⟩
  · intro htype
    rw [htype] at hvalue
    cases hvalue with
    | number hx => exact ⟨_, hx, rfl⟩
  · intro htype
    rw [htype] at hvalue
    cases hvalue with
    | date ht => exact ⟨_, ht, rfl⟩
  · rintro x rfl
    exact hvalue.isFinite
  · rintro q policy rfl d hd hname
    exact Query.reason_of_unknown hd (hname ▸ hunknown)

/-- A number between blanks, of an attribute that the map does not have. -/
theorem inference_agrees_between_blanks :
    let known : Option AttributeMap := some (Std.ExtTreeMap.ofList [("Age", (⟨.string, none⟩ : Attribute))])
    let c : Condition := ⟨"age", .gt, some "\u3000+1.50e3\n"⟩
    known.bind (·[c.name]?) = none ∧ c.operator.Compares ∧
      ∃ x, Number.finite? "+1.50e3".toList = some x ∧ x.isFinite = true ∧
        ∀ policy, c.compile known policy = .ok (.comparison "age" .gt (.number x)) := by
  intro known c
  have hunknown : known.bind (·[c.name]?) = none := by decide +kernel
  have hop : c.operator.Compares := by decide
  have htype : AttributeType.infer (c.value.getD "") = .number := by decide +kernel
  have htrimmed : (trimmed (c.value.getD "")).toList = "+1.50e3".toList := by decide +kernel
  obtain ⟨value, hcompile, hnumber, -, hfinite, -⟩ := inference_agrees known c hunknown hop
  obtain ⟨x, hx, rfl⟩ := hnumber htype
  rw [htrimmed] at hx
  rw [htype] at hcompile
  exact ⟨hunknown, hop, x, hx, hfinite x rfl, hcompile⟩

end ODataQuery
