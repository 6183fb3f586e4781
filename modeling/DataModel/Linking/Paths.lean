import DataModel.Linking.Fields

/-!
# Resolving paths

A path is resolved one name at a time, starting in the entity that owns it. Each name stands for a
field of the present entity, and each field but the last has to lead into another entity, where the
next name is looked up: by its reference, or else by the entity that it embeds. The last field has
to hold a value, or, for a distinct selection, to lead into an entity too.
-/

namespace DataModel

/-- What a path has to end at. -/
inductive Ending
  /-- A field with a value of its own: any but a `struct`. -/
  | value
  /-- A field that leads into an entity. -/
  | entity
  deriving DecidableEq

namespace Path

/-- The fields that some names stand for, from entity `e` on. The text of the whole path is only for
messages. -/
def walk (d : Document) (text : String) (ending : Ending) :
    Entity → List String → Except Error (List FieldId)
  | _, [] => .ok []
  | e, name :: names => do
    let f ← orFail (e.field? name) (.unknownField e.name name)
    if names.isEmpty ∧ ending = .value then
      if f.type = .struct then failFlaw (.pathEndsAtStruct text (qualified e.name f.name))
      return [f.id]
    else
      let next ← orFail (f.next?.bind d.entity?)
        (.invalidDeclaration (.pathLeadsNowhere (qualified e.name f.name) text))
      return f.id :: (← walk d text ending next names)

/-- **The chain of a path.** Only a distinct selection may be empty. -/
def resolve (d : Document) (owner : Entity) (ending : Ending) (p : Path) :
    Except Error (List FieldId) :=
  if p.names.isEmpty ∧ ending = .value then failFlaw .emptyPath
  else walk d p.dotted ending owner p.names

/-- The path with its chain. -/
def link (d : Document) (owner : Entity) (ending : Ending) (p : Path) : Except Error Path :=
  p.bind <$> p.resolve d owner ending

/-- The path with its chain, which has to be one field of the owner. -/
def linkLocal (d : Document) (owner : Entity) (p : Path) : Except Error Path :=
  if p.isLocal then p.link d owner .value else failFlaw (.pathNotLocal p.dotted owner.name)

/-- The type of the field at the end of a linked path. -/
def terminalType? (d : Document) (p : Path) : Option FieldType :=
  (p.terminal.bind d.field?).map Field.type

end Path

end DataModel
