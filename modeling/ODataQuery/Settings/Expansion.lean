import ODataQuery.Text.Alphanumeric

/-!
References to environment variables in a text, written `${NAME}` or `$NAME`. A dollar sign that begins no
reference stands for itself, and the values put in are not looked through again.
-/

namespace ODataQuery.Expansion

/-- A text is a row of characters that stand for themselves and references. -/
inductive Piece where
  | char (c : Char)
  | reference (name : List Char)
  deriving DecidableEq

def isNameChar (c : Char) : Bool := Text.isAlphanumeric c || c == '_'

/-- The pieces of a text. A brace that is not closed makes all the text behind it a name. -/
def pieces : List Char → List Piece
  | [] => []
  | '$' :: '{' :: cs =>
    .reference (cs.takeWhile (· != '}')) :: pieces ((cs.dropWhile (· != '}')).drop 1)
  | '$' :: cs =>
    if (cs.takeWhile isNameChar).isEmpty then .char '$' :: pieces cs
    else .reference (cs.takeWhile isNameChar) :: pieces (cs.dropWhile isNameChar)
  | c :: cs => .char c :: pieces cs
termination_by cs => cs.length
decreasing_by
  all_goals simp only [List.length_cons, List.length_drop]
  · have := (List.dropWhile_sublist (· != '}') (l := cs)).length_le
    omega
  · omega
  · have := (List.dropWhile_sublist isNameChar (l := cs)).length_le
    omega
  · omega

/-- The text of a row of pieces, or the first name without a value. -/
def fill (values : String → Option String) : List Piece → Except String (List Char)
  | [] => .ok []
  | .char c :: ps => (fill values ps).map (c :: ·)
  | .reference name :: ps =>
    match values (String.ofList name) with
    | some v => (fill values ps).map (v.toList ++ ·)
    | none => .error (String.ofList name)

/-- The names that a text refers to. -/
def references (s : String) : List String :=
  (pieces s.toList).filterMap fun
    | .char _ => none
    | .reference name => some (String.ofList name)

/-- The text with the values of variables in place of the references to them, or the first name that has
none. -/
def expand (values : String → Option String) (s : String) : Except String String :=
  (fill values (pieces s.toList)).map String.ofList

end ODataQuery.Expansion
