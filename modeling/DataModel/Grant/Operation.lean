import DataModel.Spec.Terms

/-!
# Operations

The operations on an entity that can be granted to roles. `all` and `insert` concern the entity as a
whole; every other operation is granted on one named specification, or on one field for `noExport`.
-/

namespace DataModel

/-- An operation that a role can be granted. -/
inductive Operation
  /-- Every operation on the entity. -/
  | all
  | insert
  | search
  | list
  | iterate
  | count
  | update
  | delete
  /-- A field is left out of exported output. -/
  | noExport
  deriving DecidableEq

instance : Vocabulary Operation where
  all := [.all, .insert, .search, .list, .iterate, .count, .update, .delete, .noExport]
  word
    | .all => "All"
    | .insert => "Insert"
    | .search => "Search"
    | .list => "List"
    | .iterate => "Iterate"
    | .count => "Count"
    | .update => "Update"
    | .delete => "Delete"
    | .noExport => "NoExport"
  mem_all o := by cases o <;> decide
  nodup_words := by decide

namespace Operation

/-- The operation as messages and dumps write it. -/
def noun (op : Operation) : String := Ident.fold (Vocabulary.word op)

/-- The operation is granted on a named specification or field. -/
def takesTarget : Operation → Bool
  | .all | .insert => false
  | _ => true

/-- The kind of search that the operation performs. -/
def searchKind? : Operation → Option SearchKind
  | .search => some .search
  | .list => some .list
  | .iterate => some .iterate
  | .count => some .count
  | _ => none

end Operation

end DataModel
