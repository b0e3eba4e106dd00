import ODataQuery.Attribute.Map
import ODataQuery.Filter.Condition

/-!
Queries as they are put together: columns, filter groups, an order and a row limit, and the attributes of
the table if they are known.
-/

namespace ODataQuery

inductive SortDirection where
  | asc | desc
  deriving DecidableEq

def SortDirection.all : List SortDirection := [asc, desc]

def SortDirection.text : SortDirection → String
  | asc => "asc"
  | desc => "desc"

structure Query where
  columns : List String := []
  groups : List Group := []
  orderAttribute : Option String := none
  orderDirection : Option SortDirection := none
  /-- The most rows wanted. Zero sets no limit. -/
  top : Option UInt32 := none
  known : Option AttributeMap := none

namespace Query

def select (q : Query) (columns : List String) : Query := { q with columns }

def addGroup (q : Query) (g : Group) : Query := { q with groups := q.groups ++ [g] }

def orderBy (q : Query) (name : String) (direction : SortDirection) : Query :=
  { q with orderAttribute := some name, orderDirection := some direction }

def limit (q : Query) (rows : UInt32) : Query := { q with top := some rows }

def withAttributes (q : Query) (map : AttributeMap) : Query := { q with known := some map }

end Query

end ODataQuery
