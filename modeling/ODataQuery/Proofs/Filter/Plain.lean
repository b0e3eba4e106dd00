import ODataQuery.Proofs.Text.Characters
import ODataQuery.Query.Compiled

/-!
Texts without quotes. All that a filter text consists of is such a text, apart from its literals and from
what is written as it stands: operators, functions, numbers, moments, and lower-case forms.
-/

namespace ODataQuery

namespace Text

/-- No character is a quote. -/
def Plain (cs : List Char) : Prop := '\'' ∉ cs

instance (cs : List Char) : Decidable (Plain cs) := inferInstanceAs (Decidable ('\'' ∉ cs))

@[simp]
theorem plain_nil : Plain [] := List.not_mem_nil

@[simp]
theorem plain_cons {c : Char} {cs : List Char} : Plain (c :: cs) ↔ c ≠ '\'' ∧ Plain cs := by
  simp only [Plain, List.mem_cons, not_or, ne_comm, ne_eq]

@[simp]
theorem plain_append {as bs : List Char} : Plain (as ++ bs) ↔ Plain as ∧ Plain bs := by
  simp only [Plain, List.mem_append, not_or]

theorem plain_lower {s : String} (h : Plain s.toList) : Plain (lower s).toList := by
  rwa [Plain, mem_lower (by decide) (by decide)]

end Text

open Text

theorem Number.plain_text (x : Binary64) : Plain (text x) := (figures_text x).not_mem (by decide)

theorem Instant.plain_text (t : Instant) : Plain t.text := t.figures_text.not_mem (by decide)

theorem Operator.plain_text (op : Operator) : Plain op.text.toList := by
  cases op <;> decide

theorem StringFunction.plain_text (f : StringFunction) : Plain f.text.toList := by
  cases f <;> decide

end ODataQuery
