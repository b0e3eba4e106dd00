import ODataQuery.Json.Decoder
import ODataQuery.Query.Compiled

/-!
The JSON form of queries, in which they are saved. The known attributes are no part of it.
-/

namespace ODataQuery

open Json (Decoder DecodeError RecordField)

namespace Operator

def toJson (op : Operator) : Json := .ofString op.text

/-- An operator is read as freely here as anywhere. -/
def decode : Decoder Operator := Json.decodeMeaning ofText? unknownMessage

end Operator

namespace Condition

def toJson (c : Condition) : Json :=
  .ofMembers ([("attr", .ofString c.name), ("op", c.operator.toJson)] ++
    (c.value.map fun v => ("value", .ofString v)).toList)

structure Parts where
  name : Option String := none
  operator : Option Operator := none
  value : Option (Option String) := none

def fields : List (RecordField Parts) :=
  [.of ["attr"] Json.decodeString (·.name) fun a s => { s with name := some a },
   .of ["op"] Operator.decode (·.operator) fun a s => { s with operator := some a },
   .of ["value"] (Json.decodeOption Json.decodeString) (·.value) fun a s => { s with value := some a }]

def decode : Decoder Condition := fun j => do
  let s ← Json.readFields fields {} j
  .ok ⟨← Json.required s.name, ← Json.required s.operator, s.value.join⟩

end Condition

namespace GroupKind

def toJson (k : GroupKind) : Json := .ofString k.name

def decode : Decoder GroupKind := Json.decodeName fun s => all.find? (·.name == s)

end GroupKind

namespace Join

def toJson (j : Join) : Json := .ofString j.text

def decode : Decoder Join := Json.decodeName fun s => all.find? (·.text == s)

end Join

namespace SortDirection

def toJson (d : SortDirection) : Json := .ofString d.text

def decode : Decoder SortDirection := Json.decodeName fun s => all.find? (·.text == s)

end SortDirection

namespace NanPolicy

def toJson (p : NanPolicy) : Json := .ofString p.name

def decode : Decoder NanPolicy := Json.decodeName fun s => all.find? (·.name == s)

end NanPolicy

namespace Group

def toJson (g : Group) : Json :=
  .ofMembers ([("filterType", g.kind.toJson), ("filters", .array (g.conditions.map Condition.toJson))] ++
    (g.join.map fun j => ("interGroupOperator", j.toJson)).toList)

structure Parts where
  kind : Option GroupKind := none
  conditions : Option (List Condition) := none
  join : Option (Option Join) := none

def fields : List (RecordField Parts) :=
  [.of ["filterType"] GroupKind.decode (·.kind) fun a s => { s with kind := some a },
   .of ["filters"] (Json.decodeList Condition.decode) (·.conditions)
     fun a s => { s with conditions := some a },
   .of ["interGroupOperator"] (Json.decodeOption Join.decode) (·.join)
     fun a s => { s with join := some a }]

def decode : Decoder Group := fun j => do
  let s ← Json.readFields fields {} j
  .ok ⟨s.kind.getD .and, s.conditions.getD [], s.join.join⟩

end Group

namespace Query

def toJson (q : Query) : Json :=
  .ofMembers ([("select", .ofStrings q.columns), ("filterGroups", .array (q.groups.map Group.toJson))] ++
    (q.orderAttribute.map fun name => ("orderAttr", .ofString name)).toList ++
    (q.orderDirection.map fun d => ("orderDir", d.toJson)).toList ++
    (q.top.map fun n => ("top", .ofNat n.toNat)).toList)

structure Parts where
  columns : Option (List String) := none
  groups : Option (List Group) := none
  orderAttribute : Option (Option String) := none
  orderDirection : Option (Option SortDirection) := none
  top : Option (Option UInt32) := none

def fieldsRead : List (RecordField Parts) :=
  [.of ["select"] (Json.decodeList Json.decodeString) (·.columns)
     fun a s => { s with columns := some a },
   .of ["filterGroups"] (Json.decodeList Group.decode) (·.groups) fun a s => { s with groups := some a },
   .of ["orderAttr"] (Json.decodeOption Json.decodeString) (·.orderAttribute)
     fun a s => { s with orderAttribute := some a },
   .of ["orderDir"] (Json.decodeOption SortDirection.decode) (·.orderDirection)
     fun a s => { s with orderDirection := some a },
   .of ["top"] (Json.decodeOption Json.decodeCount) (·.top) fun a s => { s with top := some a }]

def decode : Decoder Query := fun j => do
  let s ← Json.readFields fieldsRead {} j
  .ok { columns := s.columns.getD []
        groups := s.groups.getD []
        orderAttribute := s.orderAttribute.join
        orderDirection := s.orderDirection.join
        top := s.top.join }

end Query

end ODataQuery
