import DataModel.Linking.Numbering

/-!
# Binding fields

A field is bound by looking up the names that it declares: the target of its reference, the local
field of its struct source, its enumeration and its bit-field set. The first declaration of a name
is meant. Enumerations are numbered before any field is bound, because the default of an `enum`
field has to be one of the values.

What is found is collected for the whole document first, under the handle of its field. Only then is
it filled in, at the place that the handle names.
-/

namespace DataModel

/-- The value of an option, or a cause of failure. -/
def orFail {α : Type} (o : Option α) (cause : Cause) : Except Error α :=
  match o with
  | some a => .ok a
  | none => fail cause

/-- What a name in a field stands for. -/
inductive Binding
  | reference (b : Reference.Binding)
  | structSource (b : StructSource.Binding)
  | enumeration (id : Handle .enumeration)
  | bitfield (id : Handle .bitfield)
  deriving DecidableEq

namespace Field

variable (d : Document) (e : Entity) (f : Field)

/-- What the reference of a field stands for. The source is the field itself; the target is a key of
the same type; and a field that a change makes null has to be nullable. -/
def resolveReference : Except Error (Option Reference.Binding) := do
  match f.reference with
  | none =>
    if f.onUpdate ≠ .undeclared ∨ f.onDelete ≠ .undeclared then
      failFlaw (.actionWithoutReference f.name)
    return none
  | some r =>
    if !Ident.same r.sourceField f.name then failFlaw (.foreignSource r.sourceField)
    let here := qualified e.name f.name
    let target ← orFail (d.findEntity? r.targetEntity) (.unknownTargetEntity here r.targetEntity)
    let key ← orFail (target.field? r.targetField) (.unknownTargetField target.name r.targetField)
    if !key.isUniqueKey ∨ key.type ≠ f.type then
      fail (.invalidTarget here (qualified target.name key.name))
    if (f.onUpdate = .nullify ∨ f.onDelete = .nullify) ∧ !f.flags.null then
      failFlaw (.nullifyNotNullable here)
    return some ⟨key.id, f.id⟩

/-- What the struct source of a field stands for: a local field with a reference, and the entity
that the reference names. -/
def resolveStruct : Except Error (Option StructSource.Binding) := do
  match f.structSource with
  | none => return none
  | some s =>
    let carrier ← orFail (e.field? s.field) (.unknownField e.name s.field)
    let r ← orFail carrier.reference
      (.invalidTarget (qualified e.name f.name) (qualified e.name carrier.name))
    let embedded ← orFail (d.findEntity? r.targetEntity)
      (.unknownTargetEntity (qualified e.name carrier.name) r.targetEntity)
    return some ⟨carrier.id, embedded.id⟩

/-- The enumeration that a field names. An integer default is one of the values that were found for
its handle. -/
def resolveEnumeration : Except Error (Option (Handle .enumeration)) := do
  match f.enumeration with
  | none => return none
  | some l =>
    let enumeration ← orFail (d.findEnumeration? l.name) (.unknownEnumeration l.name)
    match f.defaultValue with
    | some (.integer v) =>
      if !(d.enumeration? enumeration.id).any (·.hasValue v) then
        fail (.invalidDefault (.noSuchValue v enumeration.name))
    | _ => pure ()
    return some enumeration.id

/-- The bit-field set that a field names. An integer default sets declared bits only. -/
def resolveBitfield : Except Error (Option (Handle .bitfield)) := do
  match f.bitfield with
  | none => return none
  | some l =>
    let bitfield ← orFail (d.findBitfield? l.name) (.unknownBitfield l.name)
    match f.defaultValue with
    | some (.integer v) =>
      if v.toUInt64 &&& ~~~bitfield.mask ≠ 0 then
        fail (.invalidDefault (.undeclaredBits v bitfield.name))
    | _ => pure ()
    return some bitfield.id

/-- What the names in a field stand for, under the handle of the field. -/
def resolve : Except Error (List (FieldId × Binding)) := do
  let reference ← f.resolveReference d e
  let source ← f.resolveStruct d e
  let enumeration ← f.resolveEnumeration d
  let bitfield ← f.resolveBitfield d
  if f.type = .struct ∧ f.structSource.isNone then failFlaw (.structWithoutSource f.name)
  let found := (reference.map Binding.reference).toList ++ (source.map .structSource).toList ++
    (enumeration.map .enumeration).toList ++ (bitfield.map .bitfield).toList
  return found.map fun b => (f.id, b)

/-- Fills in what was found, if the field has the part that it is for. -/
def fill : Binding → Field
  | .reference b => { f with reference := f.reference.map fun r => { r with binding := some b } }
  | .structSource b =>
    { f with structSource := f.structSource.map fun s => { s with binding := some b } }
  | .enumeration id =>
    { f with enumeration := f.enumeration.map fun l => { l with handle := some id } }
  | .bitfield id => { f with bitfield := f.bitfield.map fun l => { l with handle := some id } }

end Field

namespace Document

/-- Fills in what was found at the place that the handle of its field names. -/
def fill (d : Document) (b : FieldId × Binding) : Document :=
  let fillField (e : Entity) : Entity :=
    { e with fields := e.fields.modify b.1.index fun f => f.fill b.2 }
  { d with entities := d.entities.modify b.1.entity.index fillField }

/-- **The document with its enumerations numbered and its fields bound.** -/
def bindFields (d : Document) : Except Error Document := do
  let enums ← d.enums.mapM fun e => placed { entity := some e.name } e.number
  d.bitfields.forM fun b => placed { entity := some b.name } b.checkItems
  let numbered := { d with enums }
  let found ← d.entities.mapM fun e => e.fields.mapM fun f =>
    placed { entity := some e.name, field := some f.name } (f.resolve numbered e)
  return found.flatten.flatten.foldl fill numbered

end Document

end DataModel
