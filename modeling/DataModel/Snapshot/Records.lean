import DataModel.Document
import DataModel.MessagePack.Choice
import DataModel.MessagePack.Record

/-!
# The records of a snapshot

The format of every part of a document. Each record lists the fields that were declared and none
that linking adds, so a record is read back without its linked state.
-/

namespace DataModel.Snapshot

open MessagePack

/-! ### Handles, paths and labels -/

/-- A handle is the number of its position. -/
def handle (k : Handle.Kind) : Format (Handle k) :=
  .natural Handle.bound Handle.index fun n h => ⟨n, h⟩

/-- A position among the fields of an entity. -/
def place : Format { n : Nat // n < Handle.bound } :=
  .natural Handle.bound Subtype.val fun n h => ⟨n, h⟩

def fieldId : Format FieldId :=
  .record (.required "entity" (handle .entity) <| .required "index" place .nil)
    (fun f => (f.entity, ⟨f.index, f.index_lt⟩, ()))
    (fun (entity, index, ()) => ⟨entity, index.1, index.2⟩)

def path : Format Path :=
  .record (.required "names" (.list .text) .nil)
    (fun p => (p.names, ()))
    (fun (names, ()) => { names })

def label : Format Label :=
  .record (.required "lang" .uint64 <| .required "text" .text .nil)
    (fun l => (l.lang, l.text, ()))
    (fun (lang, text, ()) => { lang, text })

/-! ### Enumerations and bit-field sets -/

def enumItem : Format EnumItem :=
  .record
    (.required "name" .text <| .optional "value" .int64 <| .optional "doc" .text <|
      .required "labels" (.list label) .nil)
    (fun i => (i.name, i.value, i.doc, i.labels, ()))
    (fun (name, value, doc, labels, ()) => { name, value, doc, labels })

def enumeration : Format Enumeration :=
  .record
    (.required "id" (handle .enumeration) <| .required "name" .text <|
      .required "canonical" .text <| .optional "doc" .text <|
      .required "items" (.list enumItem) .nil)
    (fun e => (e.id, e.name, e.canonical, e.doc, e.items, ()))
    (fun (id, name, canonical, doc, items, ()) => { id, name, canonical, doc, items })

def bitItem : Format BitItem :=
  .record
    (.required "name" .text <| .required "index" .uint8 <| .optional "doc" .text <|
      .required "labels" (.list label) .nil)
    (fun i => (i.name, i.index, i.doc, i.labels, ()))
    (fun (name, index, doc, labels, ()) => { name, index, doc, labels })

def bitfield : Format Bitfield :=
  .record
    (.required "id" (handle .bitfield) <| .required "name" .text <|
      .required "canonical" .text <| .optional "doc" .text <|
      .required "items" (.list bitItem) <| .required "labels_unset" (.list label) <|
      .required "labels_null" (.list label) .nil)
    (fun b => (b.id, b.name, b.canonical, b.doc, b.items, b.labelsUnset, b.labelsNull, ()))
    (fun (id, name, canonical, doc, items, labelsUnset, labelsNull, ()) =>
      { id, name, canonical, doc, items, labelsUnset, labelsNull })

/-! ### Fields -/

/-- A real is written with its 64 bits. It is also read from a single-precision real or an
integer. -/
def real : Format Real64 where
  write x := 0xcb :: word 8 x.bits.toNat
  read _ bytes := do
    match ← readHead bytes with
    | (.double bits, rest) => return (⟨bits⟩, rest)
    | (.single bits, rest) => return (.ofSingle bits, rest)
    | (.unsigned n, rest) => return (.ofInt n, rest)
    | (.signed n, rest) => return (.ofInt n, rest)
    | _ => none

/-- The cases of a default value. -/
def defaultCases : List String := ["Integer", "Real", "Text"]

/-- A default value is a choice between three payloads. -/
def defaultValue : Format DefaultValue where
  write v := writeMapHead 1 ++ match v with
    | .integer n => Format.text.write "Integer" ++ Format.int64.write n
    | .real x => Format.text.write "Real" ++ real.write x
    | .text s => Format.text.write "Text" ++ Format.text.write s
  read levels bytes := do
    match ← readCase defaultCases bytes with
    | ((0, true), bytes) => (Format.int64.read levels bytes).map (Prod.map .integer id)
    | ((1, true), bytes) => (real.read levels bytes).map (Prod.map .real id)
    | ((2, true), bytes) => (Format.text.read levels bytes).map (Prod.map .text id)
    | _ => none

def reference : Format Reference :=
  .record
    (.required "source_field" .text <| .required "target_entity" .text <|
      .required "target_field" .text .nil)
    (fun r => (r.sourceField, r.targetEntity, r.targetField, ()))
    (fun (sourceField, targetEntity, targetField, ()) =>
      { sourceField, targetEntity, targetField })

def structSource : Format StructSource :=
  .record (.required "field" .text .nil) (fun s => (s.field, ())) (fun (field, ()) => { field })

def link (k : Handle.Kind) : Format (Link k) :=
  .record (.required "name" .text .nil) (fun l => (l.name, ())) (fun (name, ()) => { name })

def flags : Format FieldFlags :=
  .record
    (.required "rowid" .bool <| .required "null" .bool <| .required "unique" .bool <|
      .required "noexport" .bool .nil)
    (fun f => (f.rowid, f.null, f.unique, f.noExport, ()))
    (fun (rowid, null, unique, noExport, ()) => { rowid, null, unique, noExport })

def validation : Format Validation :=
  .record (.required "op" (.choice Comparison) <| .required "limit" defaultValue .nil)
    (fun v => (v.op, v.limit, ()))
    (fun (op, limit, ()) => { op, limit })

def field : Format Field :=
  .record
    (.required "id" fieldId <| .required "name" .text <| .required "ty" (.choice FieldType) <|
      .optional "reference" reference <| .optional "struct_source" structSource <|
      .optional "enumeration" (link .enumeration) <| .optional "bitfield" (link .bitfield) <|
      .optional "default" defaultValue <| .optional "doc" .text <| .required "flags" flags <|
      .required "validations" (.list validation) <|
      .required "on_update" (.choice RefAction) <|
      .required "on_delete" (.choice RefAction) .nil)
    (fun f => (f.id, f.name, f.type, f.reference, f.structSource, f.enumeration, f.bitfield,
      f.defaultValue, f.doc, f.flags, f.validations, f.onUpdate, f.onDelete, ()))
    (fun (id, name, type, reference, structSource, enumeration, bitfield, defaultValue, doc, flags,
        validations, onUpdate, onDelete, ()) =>
      { id, name, type, reference, structSource, enumeration, bitfield, defaultValue, doc, flags,
        validations, onUpdate, onDelete })

/-! ### Specifications -/

def searchParam : Format SearchParam :=
  .record (.required "path" path <| .required "op" (.choice Operator) .nil)
    (fun p => (p.path, p.op, ()))
    (fun (path, op, ()) => { path, op })

def sortOrder : Format SortOrder :=
  .record (.required "path" path <| .required "direction" (.choice Direction) .nil)
    (fun o => (o.path, o.direction, ()))
    (fun (path, direction, ()) => { path, direction })

def aggregate : Format Aggregate :=
  .record
    (.required "kind" (.choice AggregateKind) <| .required "path" path <|
      .required "group" path .nil)
    (fun a => (a.kind, a.path, a.group, ()))
    (fun (kind, path, group, ()) => { kind, path, group })

def distinct : Format Distinct :=
  .record (.required "path" path .nil) (fun x => (x.path, ())) (fun (path, ()) => { path })

def search : Format Search :=
  .record
    (.optional "name" .text <| .required "kind" (.choice SearchKind) <| .optional "doc" .text <|
      .required "params" (.list searchParam) <| .required "orders" (.list sortOrder) <|
      .optional "aggregate" aggregate <| .optional "distinct" distinct <|
      .optional "limit" .uint64 <| .optional "offset" .uint64 .nil)
    (fun s => (s.name, s.kind, s.doc, s.params, s.orders, s.aggregate, s.distinct, s.limit,
      s.offset, ()))
    (fun (name, kind, doc, params, orders, aggregate, distinct, limit, offset, ()) =>
      { name, kind, doc, params, orders, aggregate, distinct, limit, offset })

def modification : Format Modification :=
  .record (.required "path" path <| .required "modifier" (.choice Modifier) .nil)
    (fun m => (m.path, m.modifier, ()))
    (fun (path, modifier, ()) => { path, modifier })

def rowConstraint : Format RowConstraint :=
  .record (.required "path" path <| .required "op" (.choice Operator) .nil)
    (fun c => (c.path, c.op, ()))
    (fun (path, op, ()) => { path, op })

def mutation : Format Mutation :=
  .record
    (.optional "name" .text <| .required "kind" (.choice MutationKind) <| .optional "doc" .text <|
      .required "modify" (.list modification) <|
      .required "constrain" (.list rowConstraint) .nil)
    (fun m => (m.name, m.kind, m.doc, m.modify, m.constrain, ()))
    (fun (name, kind, doc, modify, constrain, ()) => { name, kind, doc, modify, constrain })

def unique : Format Unique :=
  .record (.required "fields" (.list path) .nil)
    (fun u => (u.fields, ()))
    (fun (fields, ()) => { fields })

/-! ### Grants, entities and roles -/

def grant : Format Grant :=
  .record
    (.required "op" (.choice Operation) <| .optional "target" .text <|
      .required "roles" (.list .text) .nil)
    (fun g => (g.op, g.target, g.roles, ()))
    (fun (op, target, roles, ()) => { op, target, roles })

def rolemap : Format Rolemap :=
  .record (.required "grants" (.list grant) .nil)
    (fun m => (m.grants, ()))
    (fun (grants, ()) => { grants })

def entity : Format Entity :=
  .record
    (.required "id" (handle .entity) <| .required "name" .text <| .required "canonical" .text <|
      .optional "doc" .text <| .required "fields" (.list field) <|
      .required "searches" (.list search) <| .required "updates" (.list mutation) <|
      .required "deletes" (.list mutation) <| .required "uniques" (.list unique) <|
      .required "insert" .bool <| .required "rolemap" rolemap .nil)
    (fun e => (e.id, e.name, e.canonical, e.doc, e.fields, e.searches, e.updates, e.deletes,
      e.uniques, e.insert, e.rolemap, ()))
    (fun (id, name, canonical, doc, fields, searches, updates, deletes, uniques, insert, rolemap,
        ()) =>
      { id, name, canonical, doc, fields, searches, updates, deletes, uniques, insert, rolemap })

def role : Format Role :=
  .record
    (.required "name" .text <| .optional "doc" .text <| .optional "parent" (handle .role) <|
      .required "children" (.list (handle .role)) <| .required "implicit" .bool .nil)
    (fun r => (r.name, r.doc, r.parent, r.children, r.implicit, ()))
    (fun (name, doc, parent, children, implicit, ()) => { name, doc, parent, children, implicit })

def roleTree : Format RoleTree :=
  .record (.required "roles" (.list role) <| .required "roots" (.list (handle .role)) .nil)
    (fun t => (t.roles, t.roots, ()))
    (fun (roles, roots, ()) => { roles, roots })

def document : Format Document :=
  .record
    (.required "entities" (.list entity) <| .required "enums" (.list enumeration) <|
      .required "bitfields" (.list bitfield) <| .required "roles" roleTree <|
      .required "langs" (.list .text) <| .required "fnames" (.list .text) .nil)
    (fun d => (d.entities, d.enums, d.bitfields, d.roles, d.languages, d.sourceFiles, ()))
    (fun (entities, enums, bitfields, roles, languages, sourceFiles, ()) =>
      { entities, enums, bitfields, roles, languages, sourceFiles })

end DataModel.Snapshot
