import DataModel.Edit.Refusal

/-!
# Edits of a field

The setters of a field as data, together with the edits that write its documentation, its attributes
and the names that it refers by.
-/

namespace DataModel

/-- A boolean attribute of a field. -/
inductive Flag
  | rowid
  | null
  | unique
  | noExport
  deriving DecidableEq

/-- The attributes with one of them set. -/
def FieldFlags.put (flags : FieldFlags) (flag : Flag) (on : Bool) : FieldFlags :=
  match flag with
  | .rowid => { flags with rowid := on }
  | .null => { flags with null := on }
  | .unique => { flags with unique := on }
  | .noExport => { flags with noExport := on }

/-- An edit of a field. -/
inductive FieldEdit
  | setType (type : FieldType)
  | setEnumeration (name : String)
  | setBitfield (name : String)
  | setStruct (source : String)
  | setReference (targetEntity targetField : String)
  | setDefault (value : DefaultValue)
  | addValidation (op : Comparison) (limit : DefaultValue)
  | setFlag (flag : Flag) (on : Bool)
  | setOnUpdate (action : RefAction)
  | setOnDelete (action : RefAction)
  | setDoc (doc : Option String)
  /-- Overwrites the name of the field that the reference says it is carried by. -/
  | renameSource (name : String)
  /-- Overwrites the name of the local field that a `struct` field goes through. -/
  | renameStructSource (name : String)
  /-- Overwrites the name of the linked enumeration, else of the linked bit-field set. -/
  | renameLink (name : String)
  deriving DecidableEq

namespace Field

/-- The field with another name for what its link refers to. -/
def renameLink (f : Field) (name : String) : Except Refusal Field :=
  match f.enumeration, f.bitfield with
  | some l, _ => .ok { f with enumeration := some { l with name } }
  | none, some l => .ok { f with bitfield := some { l with name } }
  | none, none => .error (.missing .link)

/-- **The field after an edit.** -/
def perform (f : Field) : FieldEdit → Except Refusal Field
  | .setType t => attempt (f.setType t)
  | .setEnumeration name => .ok (f.setEnumeration name)
  | .setBitfield name => .ok (f.setBitfield name)
  | .setStruct source => attempt (f.setStruct source)
  | .setReference entity field => attempt (f.setReference entity field)
  | .setDefault value => attempt (f.setDefault value)
  | .addValidation op limit => .ok (f.addValidation op limit)
  | .setFlag flag on => .ok { f with flags := f.flags.put flag on }
  | .setOnUpdate action => .ok { f with onUpdate := action }
  | .setOnDelete action => .ok { f with onDelete := action }
  | .setDoc doc => .ok { f with doc }
  | .renameSource name => do
    let r ← orMissing f.reference .link
    return { f with reference := some { r with sourceField := name } }
  | .renameStructSource name => do
    let s ← orMissing f.structSource .link
    return { f with structSource := some { s with field := name } }
  | .renameLink name => f.renameLink name

/-- **Configures a field** by edits in turn, up to the first that errs. An edit that addresses what
the field does not have is passed over. -/
def configure (f : Field) : List FieldEdit → Except Error Unit × Field
  | [] => (.ok (), f)
  | edit :: edits =>
    match f.perform edit with
    | .ok f => f.configure edits
    | .error (.missing _) => f.configure edits
    | .error (.error e) => (.error e, f)

end Field

end DataModel
