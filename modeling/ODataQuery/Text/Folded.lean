import ODataQuery.Text.Blank

/-!
Names that are compared without regard to the case of ASCII letters.
-/

namespace ODataQuery.Text

/-- The text with its ASCII capitals made small. All other characters stay. -/
def fold (s : String) : String := String.ofList (s.toList.map Char.toLower)

/-- Equal up to the case of ASCII letters. -/
def sameFolded (s t : String) : Bool := fold s == fold t

/-- The text without the blanks around it. -/
def trimmed (s : String) : String := String.ofList (trim s.toList)

end ODataQuery.Text
