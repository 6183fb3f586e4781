import DataModel.Path
import DataModel.Spec.Terms

/-!
# Searches

A search selects rows of an entity by its parameters, and may order them, keep one row per group, or
return the distinct rows of an entity that a path leads to. Linking adds whether at most one row can
match.
-/

namespace DataModel

/-- A parameter: the field at the end of a path, compared by an operator. -/
structure SearchParam where
  path : Path
  op : Operator
  deriving DecidableEq

/-- An order of the rows. -/
structure SortOrder where
  path : Path
  direction : Direction
  deriving DecidableEq

/-- One row per group, chosen by the least or greatest value of a field. -/
structure Aggregate where
  kind : AggregateKind
  /-- The field compared. -/
  path : Path
  /-- The field grouped by. -/
  group : Path
  deriving DecidableEq

/-- The distinct rows of the entity that a path leads to. The empty path stands for the searched
entity itself. -/
structure Distinct where
  path : Path
  deriving DecidableEq

/-- A search. -/
structure Search where
  name : Option String
  kind : SearchKind
  doc : Option String := none
  params : List SearchParam := []
  orders : List SortOrder := []
  aggregate : Option Aggregate := none
  distinct : Option Distinct := none
  limit : Option UInt64 := none
  offset : Option UInt64 := none
  /-- At most one row matches; false before linking. -/
  returnsUnique : Bool := false
  deriving DecidableEq

namespace Search

/-- What messages call the search: its name, or the paths of its parameters. -/
def label (s : Search) : String :=
  s.name.getD ("_".intercalate (s.params.map fun p => p.path.dotted))

/-- The search with one more parameter. -/
def addParam (s : Search) (path : Path) (op : Operator) : Search :=
  { s with params := s.params ++ [⟨path, op⟩] }

/-- The search with one more order. -/
def addOrder (s : Search) (path : Path) (direction : Direction) : Search :=
  { s with orders := s.orders ++ [⟨path, direction⟩] }

/-- The search with an aggregate in place of any earlier one. -/
def setAggregate (s : Search) (kind : AggregateKind) (path group : Path) : Search :=
  { s with aggregate := some ⟨kind, path, group⟩ }

/-- The search with a distinct selection, written with dots, in place of any earlier one. The empty
text selects the searched entity. -/
def setDistinct (s : Search) (path : String) : Search :=
  { s with distinct := some ⟨if path.isEmpty then Path.ofNames [] else Path.parse path⟩ }

end Search

end DataModel
