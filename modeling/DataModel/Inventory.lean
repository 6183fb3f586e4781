import DataModel.Document

/-!
# Inventory

The number of declarations that go away with a document. The implicit roles and the default language
are not counted, so a new document has an empty inventory. Roles are counted along the tree, from
the roots on; on a forest that is the number of declared roles.
-/

namespace DataModel

/-- Numbers of declarations. -/
structure Inventory where
  enumerations : Nat := 0
  roles : Nat := 0
  bitfields : Nat := 0
  entities : Nat := 0
  fields : Nat := 0
  /-- Searches, updates, deletes and unique constraints. -/
  specs : Nat := 0
  grants : Nat := 0
  languages : Nat := 0
  sourceFiles : Nat := 0
  deriving DecidableEq

/-- Nothing was declared. -/
def Inventory.isEmpty (i : Inventory) : Bool := i == {}

/-- The declarations of a document. -/
def Document.inventory (d : Document) : Inventory where
  enumerations := d.enums.length
  roles := d.roles.released
  bitfields := d.bitfields.length
  entities := d.entities.length
  fields := d.entities.foldl (fun n e => n + e.fields.length) 0
  specs := d.entities.foldl (fun n e => n + e.specCount) 0
  grants := d.entities.foldl (fun n e => n + e.rolemap.grants.length) 0
  languages := d.languages.length - 1
  sourceFiles := d.sourceFiles.length

end DataModel
