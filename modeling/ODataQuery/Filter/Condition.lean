import ODataQuery.Filter.Operator

/-!
Conditions on attributes, and groups of them.
-/

namespace ODataQuery

structure Condition where
  name : String
  operator : Operator
  value : Option String := none
  deriving DecidableEq

/-- How a group combines its conditions: all hold, some hold, or not all hold. -/
inductive GroupKind where
  | and | or | not
  deriving DecidableEq

/-- How a group combines with the groups before it. -/
inductive Join where
  | and | or
  deriving DecidableEq

def GroupKind.all : List GroupKind := [and, or, not]

def GroupKind.name : GroupKind → String
  | and => "and"
  | or => "or"
  | not => "not"

def Join.all : List Join := [and, or]

def Join.text : Join → String
  | and => "and"
  | or => "or"

/-- Conditions that are combined in one way. The join says nothing on the first group of a filter. -/
structure Group where
  kind : GroupKind := .and
  conditions : List Condition := []
  join : Option Join := none
  deriving DecidableEq

end ODataQuery
