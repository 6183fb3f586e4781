import DataModel.Error

/-!
# Fields

A field is a named and typed member of an entity. It may carry a *reference* to a key of another
entity, a *struct source*, the local reference through which a `struct` field embeds an entity, or a
*link* to an enumeration or a bit-field set. All of these are declared by name; linking adds the
handles.

The setters keep the parts of a field together: a field has an enumeration link exactly when its
type is `enum`, a bit-field link exactly when it is `bitfield`, a struct source exactly when it is
`struct`; a `struct` field carries no reference; and a default fits the type.
-/

namespace DataModel

/-- What a reference is bound to. -/
structure Reference.Binding where
  /-- The referenced field. -/
  target : FieldId
  /-- The field that carries the reference. -/
  source : FieldId
  deriving DecidableEq

/-- A reference from a field to a key of an entity. -/
structure Reference where
  /-- The field that carries the reference. -/
  sourceField : String
  targetEntity : String
  targetField : String
  /-- What the names stand for; absent before linking. -/
  binding : Option Reference.Binding := none
  deriving DecidableEq

/-- The entity that a bound reference leads to. -/
def Reference.entity? (r : Reference) : Option (Handle .entity) := r.binding.map (·.target.entity)

/-- What a struct source is bound to. -/
structure StructSource.Binding where
  /-- The local field that carries the reference. -/
  field : FieldId
  /-- The embedded entity. -/
  entity : Handle .entity
  deriving DecidableEq

/-- The local reference through which a `struct` field embeds an entity. -/
structure StructSource where
  field : String
  /-- What the name stands for; absent before linking. -/
  binding : Option StructSource.Binding := none
  deriving DecidableEq

/-- The entity that a bound struct source embeds. -/
def StructSource.entity? (s : StructSource) : Option (Handle .entity) := s.binding.map (·.entity)

/-- A link by name to a declaration of kind `k`. -/
structure Link (k : Handle.Kind) where
  name : String
  /-- What the name stands for; absent before linking. -/
  handle : Option (Handle k) := none
  deriving DecidableEq

/-- The boolean attributes of a field. -/
structure FieldFlags where
  /-- The field identifies the rows of its entity. -/
  rowid : Bool := false
  null : Bool := false
  unique : Bool := false
  /-- The field is never exported. -/
  noExport : Bool := false
  deriving DecidableEq

/-- A validation rule. For texts and bytes the limit applies to the length. -/
structure Validation where
  op : Comparison
  limit : DefaultValue
  deriving DecidableEq

/-- A named and typed member of an entity. -/
structure Field where
  id : FieldId
  name : String
  type : FieldType := .int
  reference : Option Reference := none
  structSource : Option StructSource := none
  enumeration : Option (Link .enumeration) := none
  bitfield : Option (Link .bitfield) := none
  defaultValue : Option DefaultValue := none
  doc : Option String := none
  flags : FieldFlags := {}
  validations : List Validation := []
  onUpdate : RefAction := .undeclared
  onDelete : RefAction := .undeclared
  deriving DecidableEq

namespace Field

/-- The field can be the key of a reference. -/
def isUniqueKey (f : Field) : Bool := f.flags.rowid || f.flags.unique

/-- A path can go on from the field into another entity. -/
def leadsToEntity (f : Field) : Bool := f.reference.isSome || f.structSource.isSome

/-- The entity that a path goes on to: the target of the reference, else the embedded entity. -/
def next? (f : Field) : Option (Handle .entity) :=
  (f.reference.bind Reference.entity?).or (f.structSource.bind StructSource.entity?)

/-- The field with another type. What belongs to the old type is dropped: a link or source of
another kind of field, and a default that no longer fits. -/
def retype (f : Field) (t : FieldType) : Field :=
  { f with
    type := t
    enumeration := if t = .enum then f.enumeration else none
    bitfield := if t = .bitfield then f.bitfield else none
    structSource := if t = .struct then f.structSource else none
    defaultValue := f.defaultValue.filter (·.fits t) }

/-- The field with a type that needs no name. -/
def setType (f : Field) (t : FieldType) : Except Error Field :=
  if t.needsName then failFlaw (.typeNeedsName f.name t) else .ok (f.retype t)

/-- The field as a value of a named enumeration. -/
def setEnumeration (f : Field) (name : String) : Field :=
  { f.retype .enum with enumeration := some { name } }

/-- The field as bits of a named bit-field set. -/
def setBitfield (f : Field) (name : String) : Field :=
  { f.retype .bitfield with bitfield := some { name } }

/-- The field as the entity that a local reference leads to. -/
def setStruct (f : Field) (source : String) : Except Error Field :=
  if f.reference.isSome then failFlaw (.structReference f.name)
  else .ok { f.retype .struct with structSource := some { field := source } }

/-- The field with a reference in place of any earlier one. -/
def setReference (f : Field) (targetEntity targetField : String) : Except Error Field :=
  if f.type = .struct then failFlaw (.structReference f.name)
  else .ok { f with reference := some { sourceField := f.name, targetEntity, targetField } }

/-- The field with a default, which has to fit. -/
def setDefault (f : Field) (value : DefaultValue) : Except Error Field :=
  if value.fits f.type then .ok { f with defaultValue := some value }
  else fail (.invalidDefault (.misfit value f.type f.name))

/-- The field with the signs of zeros forgotten. -/
def unsignedZeros (f : Field) : Field :=
  { f with
    defaultValue := f.defaultValue.map DefaultValue.unsignedZero
    validations := f.validations.map fun v => { v with limit := v.limit.unsignedZero } }

/-- The field with one more validation rule. -/
def addValidation (f : Field) (op : Comparison) (limit : DefaultValue) : Field :=
  { f with validations := f.validations ++ [⟨op, limit⟩] }

end Field

end DataModel
