import DataModel.Field
import DataModel.Grant
import DataModel.Spec.Mutation
import DataModel.Spec.Search
import DataModel.Spec.Unique

/-!
# Entities

An entity is a declared record: its fields, its searches, updates, deletes and unique constraints,
and the grants of its operations. Fields, named searches, named updates and named deletes have a
scope each. Linking adds the *height*: zero without references, and else one more than the greatest
height among the entities referred to.
-/

namespace DataModel

/-- A declared record. -/
structure Entity where
  id : Handle .entity
  name : String
  canonical : String
  doc : Option String := none
  fields : List Field := []
  searches : List Search := []
  updates : List Mutation := []
  deletes : List Mutation := []
  uniques : List Unique := []
  /-- Rows can be inserted. -/
  insert : Bool := false
  rolemap : Rolemap := {}
  /-- The length of the longest chain of references from the entity; zero before linking. -/
  height : Nat := 0
  deriving DecidableEq

namespace Entity

/-- A new entity without fields. -/
def declare (id : Handle .entity) (name : String) : Entity :=
  { id, name, canonical := Ident.canonical name }

/-- The first field of a name. -/
def field? (e : Entity) (name : String) : Option Field :=
  e.fields.find? fun f => Ident.same f.name name

/-- The first field that identifies rows. -/
def rowid? (e : Entity) : Option Field := e.fields.find? (·.flags.rowid)

/-- Some field carries a reference. -/
def hasReferences (e : Entity) : Bool := e.fields.any (·.reference.isSome)

/-- The number of searches, mutations and unique constraints. -/
def specCount (e : Entity) : Nat :=
  e.searches.length + e.updates.length + e.deletes.length + e.uniques.length

/-- The entity with one more field, an integer to begin with. -/
def addField (e : Entity) (name : String) : Except Error (FieldId × Entity) := do
  Scope.field.checkNew name (e.fields.map Field.name)
  let id ← FieldId.allocate e.id e.fields.length
  return (id, { e with fields := e.fields ++ [{ id, name }] })

/-- Refuses an optional name that is not new. -/
def checkOptional (scope : Scope) (name : Option String) (used : List (Option String)) :
    Except Error Unit :=
  match name with
  | none => .ok ()
  | some name => scope.checkNew name (used.filterMap fun n => n)

/-- The entity with one more search. -/
def addSearch (e : Entity) (kind : SearchKind) (name : Option String) : Except Error Entity := do
  checkOptional .search name (e.searches.map Search.name)
  return { e with searches := e.searches ++ [{ name, kind }] }

/-- The entity with one more update. -/
def addUpdate (e : Entity) (name : Option String) : Except Error Entity := do
  checkOptional .update name (e.updates.map Mutation.name)
  return { e with updates := e.updates ++ [{ name, kind := .update }] }

/-- The entity with one more delete. -/
def addDelete (e : Entity) (name : Option String) : Except Error Entity := do
  checkOptional .delete name (e.deletes.map Mutation.name)
  return { e with deletes := e.deletes ++ [{ name, kind := .delete }] }

/-- The entity with one more unique constraint: over two fields at least, none of them twice, and
not over the fields of an earlier constraint. -/
def addUnique (e : Entity) (fields : List String) : Except Error (Unique × Entity) := do
  if fields.length < 2 then failFlaw (.uniqueTooShort e.name)
  let unique := Unique.ofTexts fields
  match unique.repeatedField? with
  | some field => fail (.duplicateName field .unique)
  | none =>
    Scope.unique.checkUnused unique.key (e.uniques.map Unique.key)
    return (unique, { e with uniques := e.uniques ++ [unique] })

end Entity

end DataModel
