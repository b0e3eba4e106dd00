import ODataQuery.CommandLine.Run
import ODataQuery.Proofs.Text.Digits

/-!
What a run says about the conditions that it drops: one text for each, in their order. Such a text is put together from
the place, the attribute, the operator and the reason. Nothing in it can begin another line but the name of the
attribute, which stands there as it is.
-/

namespace ODataQuery.CommandLine

/-- A text that ends in its only line feed. -/
def IsLine (s : String) : Prop := ∃ body, s.toList = body ++ ['\n'] ∧ '\n' ∉ body

/-- What is said about a dropped condition. It is one line if and only if the attribute has no line feed in its name. -/
structure Reports (d : Dropped) (report : String) : Prop where
  text : report = "dropped: group " ++ Text.decimal d.group ++ " condition " ++ Text.decimal d.position ++ ": " ++
    d.name ++ " " ++ d.operator.text ++ " (" ++ d.reason.text ++ ")" ++ "\n"
  line : IsLine report ↔ '\n' ∉ d.name.toList

theorem isLine_line {s : String} : IsLine (line s) ↔ '\n' ∉ s.toList := by
  rw [IsLine, line, String.toList_append]
  constructor
  · rintro ⟨body, hbody, hmem⟩
    obtain ⟨hbody, -⟩ := List.append_inj' hbody rfl
    rwa [hbody]
  · exact fun hmem => ⟨s.toList, rfl, hmem⟩

theorem not_mem_decimal (n : Nat) : '\n' ∉ (Text.decimal n).toList := by
  rw [Text.decimal, String.toList_ofList]
  exact (Text.isDigits_digits n).not_mem (by decide)

theorem not_mem_operator (op : Operator) : '\n' ∉ op.text.toList := by
  cases op <;> decide

theorem not_mem_reason (reason : DropReason) : '\n' ∉ reason.text.toList := by
  cases reason with
  | functionOnNonString type => cases type <;> decide
  | unparseableDate | notANumber => decide

theorem droppedText_reports (d : Dropped) : Reports d (droppedText d) := by
  refine ⟨rfl, ?_⟩
  rw [droppedText, isLine_line, not_iff_not]
  simp [not_mem_decimal, not_mem_operator, not_mem_reason]

end ODataQuery.CommandLine
