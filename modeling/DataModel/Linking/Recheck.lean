import DataModel.Document

/-!
# Checking declarations again

A document that was read from a snapshot did not pass through the checks of its declarations. They
are made up for here: no name of a scope is reserved or repeated, unique constraints are over two
fields at least and do not repeat one another, bit indices are in range, and no entity has two row
identifiers.
-/

namespace DataModel

/-- Admits the unique constraints of an entity; `seen` holds the keys of those before them. -/
def Unique.checkDeclared (seen : List String) : List Unique → Except Error Unit
  | [] => .ok ()
  | u :: us =>
    if u.fields.length < 2 then failFlaw .storedUniqueTooShort
    else
      match u.repeatedField? with
      | some field => fail (.duplicateName field .unique)
      | none =>
        if seen.contains u.key then fail (.duplicateName u.key .unique)
        else checkDeclared (seen ++ [u.key]) us

/-- Admits the parts of an entity. -/
def Entity.checkDeclared (e : Entity) : Except Error Unit := do
  Scope.field.checkDeclared [] (e.fields.map Field.name)
  Scope.search.checkDeclared [] (e.searches.filterMap Search.name)
  Scope.update.checkDeclared [] (e.updates.filterMap Mutation.name)
  Scope.delete.checkDeclared [] (e.deletes.filterMap Mutation.name)
  Unique.checkDeclared [] e.uniques
  if 1 < e.fields.countP (·.flags.rowid) then fail (.multipleRowIds e.name)

/-- Admits the items of an enumeration. -/
def Enumeration.checkDeclared (e : Enumeration) : Except Error Unit :=
  Scope.enumItem.checkDeclared [] (e.items.map EnumItem.name)

/-- Admits the items of a bit-field set. -/
def Bitfield.checkDeclared (b : Bitfield) : Except Error Unit := do
  Scope.bitItem.checkDeclared [] (b.items.map BitItem.name)
  match b.items.find? fun i => maxBitIndex < i.index.toNat with
  | some i => failFlaw (.storedBitIndex i.index.toNat i.name)
  | none => return

/-- **Admits the declarations of a document.** -/
def Document.checkDeclared (d : Document) : Except Error Unit := do
  Scope.topLevel.checkDeclared [] d.topLevelNames
  d.entities.forM fun e => placed { entity := some e.name } e.checkDeclared
  d.enums.forM fun e => placed { entity := some e.name } e.checkDeclared
  d.bitfields.forM fun b => placed { entity := some b.name } b.checkDeclared

end DataModel
