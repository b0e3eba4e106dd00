import ODataQuery.Number.Text
import ODataQuery.Text.Quoted
import ODataQuery.Time.Instant

/-!
The values that comparisons compare with, and their written form.
-/

namespace ODataQuery

inductive Literal where
  /-- Written as it stands. -/
  | raw (text : String)
  | number (x : Binary64)
  | text (s : String)
  | instant (t : Instant)
  deriving DecidableEq

def Literal.render : Literal → String
  | raw s => s
  | number x => x.toText
  | text s => Text.quote s
  | instant t => "'" ++ String.ofList t.text ++ "'"

end ODataQuery
