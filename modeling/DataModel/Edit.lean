import DataModel.Edit.Entity

/-!
# Edits of a document

Everything that can be done to a document while it is being declared, as data: a run of declarations
is a list of edits. An edit is carried out as a whole or refused, and a refused edit changes
nothing.
-/

namespace DataModel

/-- How an edit addresses an entity. -/
inductive EntityRef
  | handle (id : Handle .entity)
  /-- The place that the first entity of the name holds the handle of. -/
  | name (name : String)
  deriving DecidableEq

/-- An edit of a document. -/
inductive Edit
  | addEntity (name : String)
  | addEnumeration (name : String)
  | addBitfield (name : String)
  | addRole (parent : Option (Handle .role)) (name : String)
  | addLanguage (name : String)
  | addSourceFile (name : String)
  | addEnumItem (enumeration : Nat) (item : EnumItem)
  | addBitItem (bitfield : Nat) (name : String) (index : Int) (doc : Option String)
      (labels : List Label)
  | setEnumDoc (enumeration : Nat) (doc : Option String)
  | setEnumValue (enumeration item : Nat) (value : Option Int64)
  | setBitfieldTexts (bitfield : Nat) (doc : Option String) (unset null : List Label)
  | setRoleDoc (role : Handle .role) (doc : Option String)
  | swapEntities (i j : Nat)
  | swapEnumerations (i j : Nat)
  | swapBitfields (i j : Nat)
  | swapEnumItems (enumeration i j : Nat)
  | onEntity (entity : EntityRef) (edit : EntityEdit)
  deriving DecidableEq

namespace Document

variable (d : Document)

/-- The place of the entity that an edit addresses. -/
def entityIndex? (r : EntityRef) : Option Nat :=
  let id? := match r with
    | .handle id => some id
    | .name name => (d.findEntity? name).map Entity.id
  (id?.map Handle.index).filter (· < d.entities.length)

/-- **The document after an edit.** -/
def perform : Edit → Except Refusal (Receipt × Document)
  | .addEntity name => do
    let (id, d) ← attempt (d.addEntity name)
    return (.position id.index, d)
  | .addEnumeration name => do
    let (id, d) ← attempt (d.addEnumeration name)
    return (.position id.index, d)
  | .addBitfield name => do
    let (id, d) ← attempt (d.addBitfield name)
    return (.position id.index, d)
  | .addRole parent name => do
    let (id, d) ← attempt (d.addRole parent name)
    return (.position id.index, d)
  | .addLanguage name =>
    let (i, d) := d.addLanguage name
    return (.position i, d)
  | .addSourceFile name =>
    let (i, d) := d.addSourceFile name
    return (.position i, d)
  | .addEnumItem n item => do
    let (r, enums) ← editAt d.enums n .enumeration fun e =>
      return (Receipt.position e.items.length, ← attempt (e.addItem item))
    return (r, { d with enums })
  | .addBitItem n name index doc labels => do
    let (r, bitfields) ← editAt d.bitfields n .bitfield fun b => do
      let (item, b) ← attempt (b.addItem name index doc labels)
      return (Receipt.mask item.mask, b)
    return (r, { d with bitfields })
  | .setEnumDoc n doc => do
    let (r, enums) ← editAt d.enums n .enumeration fun e =>
      return (Receipt.nothing, { e with doc })
    return (r, { d with enums })
  | .setEnumValue n i value => do
    let (r, enums) ← editAt d.enums n .enumeration fun e => do
      let (r, items) ← editAt e.items i .item fun item =>
        return (Receipt.nothing, { item with value })
      return (r, { e with items })
    return (r, { d with enums })
  | .setBitfieldTexts n doc labelsUnset labelsNull => do
    let (r, bitfields) ← editAt d.bitfields n .bitfield fun b =>
      return (Receipt.nothing, { b with doc, labelsUnset, labelsNull })
    return (r, { d with bitfields })
  | .setRoleDoc id doc => do
    let (r, roles) ← editAt d.roles.roles id.index .role fun role =>
      return (Receipt.nothing, { role with doc })
    return (r, { d with roles := { d.roles with roles } })
  | .swapEntities i j => return (.nothing, { d with entities := ← swapAt d.entities i j })
  | .swapEnumerations i j => return (.nothing, { d with enums := ← swapAt d.enums i j })
  | .swapBitfields i j => return (.nothing, { d with bitfields := ← swapAt d.bitfields i j })
  | .swapEnumItems n i j => do
    let (r, enums) ← editAt d.enums n .enumeration fun e =>
      return (Receipt.nothing, { e with items := ← swapAt e.items i j })
    return (r, { d with enums })
  | .onEntity ref edit => do
    let i ← orMissing (d.entityIndex? ref) .entity
    let (r, entities) ← editAt d.entities i .entity fun e => e.perform edit
    return (r, { d with entities })

end Document

end DataModel
