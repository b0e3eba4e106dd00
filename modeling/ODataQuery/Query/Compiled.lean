import ODataQuery.Attribute.Inference
import ODataQuery.Filter.Expression
import ODataQuery.Query.Definition

/-!
Queries as the text that is sent. Compiling never fails: a condition that has no written form is dropped,
and the result tells which ones were dropped and why.
-/

namespace ODataQuery

/-- What becomes of a comparison of a number attribute with a value that is no number. -/
inductive NanPolicy where
  | emit | drop
  deriving DecidableEq

def NanPolicy.all : List NanPolicy := [emit, drop]

def NanPolicy.name : NanPolicy → String
  | emit => "emit"
  | drop => "drop"

/-- Why a condition was dropped. -/
inductive DropReason where
  | functionOnNonString (type : AttributeType)
  | unparseableDate
  | notANumber
  deriving DecidableEq

def DropReason.text : DropReason → String
  | functionOnNonString type => "string function applied to " ++ type.name ++ " attribute"
  | unparseableDate => "value is not a date"
  | notANumber => "value is not a number"

/-- A condition without a written form, by the positions of its group and in its group. -/
structure Dropped where
  group : Nat
  position : Nat
  name : String
  operator : Operator
  reason : DropReason
  deriving DecidableEq

/-- The field that holds the identifier a lookup points to. -/
def lookupField (name : String) : String := "_" ++ name ++ "_value"

namespace Condition

/-- The field and the literal of a comparison with an attribute of a given type. -/
def operands (policy : NanPolicy) (name raw : String) :
    AttributeType → Except DropReason (String × Literal)
  | .boolean => .ok (name, .raw (Text.lower raw))
  | .number =>
    let x := Number.ofText raw
    if x.isNaN && policy == .drop then .error .notANumber else .ok (name, .number x)
  | .date =>
    match Instant.ofText? raw with
    | some t => .ok (name, .instant t)
    | none => .error .unparseableDate
  | .optionset =>
    let x := Number.ofText raw
    .ok (name, if x.isNaN then .text raw else .number x)
  | .lookup => .ok (lookupField name, .raw raw)
  | .string | .unknown => .ok (name, .text raw)

/-- The expression of a condition, or why it has none. -/
def compile (known : Option AttributeMap) (policy : NanPolicy) (c : Condition) :
    Except DropReason Expression :=
  if c.operator.isNullTest then .ok (.nullTest c.name c.operator)
  else
    let raw := c.value.getD ""
    let type := AttributeMap.typeOf known c.name raw
    match c.operator.stringFunction? with
    | some (f, negated) =>
      if type = .string then .ok (.function f c.name raw negated)
      else .error (.functionOnNonString type)
    | none =>
      (operands policy c.name raw type).map fun (field, value) =>
        .comparison field c.operator value

/-- The expression of a condition that has one. -/
def expression? (known : Option AttributeMap) (policy : NanPolicy) (c : Condition) :
    Option Expression :=
  (c.compile known policy).toOption

/-- Why a condition has no expression. -/
def dropReason? (known : Option AttributeMap) (policy : NanPolicy) (c : Condition) :
    Option DropReason :=
  match c.compile known policy with
  | .ok _ => none
  | .error reason => some reason

end Condition

namespace Group

/-- The expression of a group whose conditions were not all dropped, with its join. -/
def expression? (known : Option AttributeMap) (policy : NanPolicy) (g : Group) :
    Option (Join × Expression) :=
  (Expression.ofGroup? g.kind (g.conditions.filterMap (·.expression? known policy))).map
    (g.join.getD .and, ·)

/-- The dropped conditions of the group at a position. -/
def dropped (known : Option AttributeMap) (policy : NanPolicy) (g : Group) (position : Nat) :
    List Dropped :=
  g.conditions.zipIdx.filterMap fun (c, i) =>
    (c.dropReason? known policy).map fun reason =>
      ⟨position, i, c.name, c.operator, reason⟩

end Group

/-- A query text, and the conditions it leaves out. -/
structure Compiled where
  text : String
  dropped : List Dropped
  deriving DecidableEq

namespace Query

/-- The field of a column: a lookup is fetched by the identifier it points to. -/
def columnField (known : Option AttributeMap) (column : String) : String :=
  match known.bind (·[column]?) with
  | some a => if a.type = .lookup then lookupField column else column
  | none => column

def fields (q : Query) : List String := q.columns.map (columnField q.known)

/-- The filter expression of the conditions that were not dropped. -/
def filter? (q : Query) (policy : NanPolicy) : Option Expression :=
  Expression.ofGroups? (q.groups.filterMap (·.expression? q.known policy))

def dropped (q : Query) (policy : NanPolicy) : List Dropped :=
  q.groups.zipIdx.flatMap fun (g, i) => g.dropped q.known policy i

/-- The parameters of the query text, those that say nothing left out. -/
def parameters (q : Query) (policy : NanPolicy) : List String :=
  let select? := if q.columns = [] then none else some (Text.join "," q.fields)
  let limit? := (q.top.filter (· ≠ 0)).map fun n => Text.decimal n.toNat
  let order? := (q.orderAttribute.filter (· ≠ "")).map fun name =>
    name ++ " " ++ (q.orderDirection.getD .asc).text
  [select?.map ("$select=" ++ ·), (q.filter? policy).map ("$filter=" ++ ·.render),
    limit?.map ("$top=" ++ ·), order?.map ("$orderby=" ++ ·)].filterMap id

def compile (q : Query) (policy : NanPolicy := .emit) : Compiled :=
  let parameters := q.parameters policy
  ⟨if parameters = [] then "" else "?" ++ Text.join "&" parameters, q.dropped policy⟩

end Query

end ODataQuery
