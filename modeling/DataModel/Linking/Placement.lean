import DataModel.Document

/-!
# Placement

Later passes bind names to handles, and a handle is a position. So before anything else every
entity, field, enumeration and bit-field set has to hold the handle of the place where it is stored;
a document whose lists were reordered is refused, whatever the options.
-/

namespace DataModel

/-- Refuses a field that holds the handle of another place than `position` in the entity. -/
def Field.checkPlace (e : Entity) (position : Nat) (f : Field) : Except Error Unit := do
  if f.id ≠ (← FieldId.allocate e.id position) then
    placed { entity := some e.name, field := some f.name }
      (failFlaw (.misplacedField f.name position f.id))

/-- Refuses a declaration that holds the handle of another place than `position`. -/
def Handle.checkPlace {k : Handle.Kind} (id : Handle k) (name : String) (position : Nat) :
    Except Error Unit :=
  if id.index ≠ position then
    placed { entity := some name } (failFlaw (.misplaced k name position id))
  else .ok ()

/-- Refuses an entity that is misplaced or has a misplaced field. -/
def Entity.checkPlace (position : Nat) (e : Entity) : Except Error Unit := do
  e.id.checkPlace e.name position
  e.fields.zipIdx.forM fun (f, i) => f.checkPlace e i

/-- **Every declaration holds the handle of its place.** -/
def Document.checkPlacement (d : Document) : Except Error Unit := do
  d.entities.zipIdx.forM fun (e, i) => e.checkPlace i
  d.enums.zipIdx.forM fun (e, i) => e.id.checkPlace e.name i
  d.bitfields.zipIdx.forM fun (b, i) => b.id.checkPlace b.name i

end DataModel
