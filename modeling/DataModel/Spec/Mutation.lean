import DataModel.Path
import DataModel.Spec.Terms

/-!
# Mutations

Updates and deletes. A mutation tells the fields that it modifies from the fields that select its
rows; a delete modifies none.
-/

namespace DataModel

/-- A modified field, which has to belong to the mutated entity. -/
structure Modification where
  path : Path
  modifier : Modifier
  deriving DecidableEq

/-- A constraint on the rows of a mutation. -/
structure RowConstraint where
  path : Path
  op : Operator
  deriving DecidableEq

/-- An update or a delete. -/
structure Mutation where
  name : Option String
  kind : MutationKind
  doc : Option String := none
  modify : List Modification := []
  constrain : List RowConstraint := []
  deriving DecidableEq

namespace Mutation

/-- What messages call the mutation: its name, or the paths that it modifies and is constrained
by. -/
def label (m : Mutation) : String :=
  match m.name with
  | some name => name
  | none =>
    let constrained := "_".intercalate (m.constrain.map fun c => c.path.dotted)
    if m.modify.isEmpty then constrained
    else "_".intercalate (m.modify.map fun f => f.path.dotted) ++ "_by_" ++ constrained

/-- The mutation with one more modified field. -/
def addModification (m : Mutation) (path : Path) (modifier : Modifier) : Mutation :=
  { m with modify := m.modify ++ [⟨path, modifier⟩] }

/-- The mutation with one more constraint. -/
def addConstraint (m : Mutation) (path : Path) (op : Operator) : Mutation :=
  { m with constrain := m.constrain ++ [⟨path, op⟩] }

end Mutation

end DataModel
