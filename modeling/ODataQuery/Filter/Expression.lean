import ODataQuery.Filter.Condition
import ODataQuery.Filter.Literal

/-!
Filter expressions and their written form. Groups stand in parentheses where they have more than one
condition or are negated. A chain of groups has none of its own: it is written from left to right.
-/

namespace ODataQuery

inductive Expression where
  | comparison (field : String) (operator : Operator) (value : Literal)
  | nullTest (field : String) (operator : Operator)
  | function (f : StringFunction) (field value : String) (negated : Bool)
  | group (kind : GroupKind) (conditions : List Expression)
  | chain (first : Expression) (rest : List (Join × Expression))

namespace Expression

/-- A group, if it has conditions. -/
def ofGroup? (kind : GroupKind) (conditions : List Expression) : Option Expression :=
  if conditions.isEmpty then none else some (group kind conditions)

/-- A chain of groups, if there are any. The first join is not used, and one group is no chain. -/
def ofGroups? : List (Join × Expression) → Option Expression
  | [] => none
  | [(_, e)] => some e
  | (_, e) :: rest => some (chain e rest)

/-- The written conditions of a group put together. -/
def groupText (kind : GroupKind) (conditions : List String) : String :=
  match kind, conditions with
  | .not, cs => "not (" ++ Text.join " and " cs ++ ")"
  | _, [c] => c
  | .and, cs => "(" ++ Text.join " and " cs ++ ")"
  | .or, cs => "(" ++ Text.join " or " cs ++ ")"

mutual

def render : Expression → String
  | comparison field op value => field ++ " " ++ op.text ++ " " ++ value.render
  | nullTest field op => field ++ " " ++ op.text
  | function f field value negated =>
    (if negated then "not " else "") ++ f.text ++ "(" ++ field ++ "," ++ Text.quote value ++ ")"
  | group kind conditions => groupText kind (renderAll conditions)
  | chain first rest => first.render ++ renderRest rest

def renderAll : List Expression → List String
  | [] => []
  | e :: es => e.render :: renderAll es

/-- The groups of a chain after the first, each with its join before it. -/
def renderRest : List (Join × Expression) → String
  | [] => ""
  | (j, e) :: rest => " " ++ j.text ++ " " ++ e.render ++ renderRest rest

end

end Expression

end ODataQuery
