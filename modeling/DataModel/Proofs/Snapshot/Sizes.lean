import DataModel.Document

/-!
# Sizes

The head of a text or of a list holds its length in 32 bits.  `Sized.Fits` says of a value that no
text and no list in it is longer than that.  Only declared parts count: what linking adds is not
written.
-/

namespace DataModel.Snapshot

/-- Values that hold texts and lists. -/
class Sized (α : Type) where
  /-- Every text has fewer than 2³² bytes, and every list fewer than 2³² members. -/
  Fits : α → Prop
  decidableFits : DecidablePred Fits := by intro; infer_instance

export Sized (Fits)

attribute [reducible, instance] Sized.decidableFits

/-! ### Texts, lists and handles -/

instance : Sized String where
  Fits s := s.utf8ByteSize < 0x100000000

instance {α : Type} [Sized α] : Sized (List α) where
  Fits as := as.length < 0x100000000 ∧ ∀ a ∈ as, Fits a

instance {α : Type} [Sized α] : Sized (Option α) where
  Fits o := ∀ a ∈ o, Fits a

instance {k : Handle.Kind} : Sized (Handle k) where
  Fits _ := True

/-! ### Enumerations and bit-field sets -/

instance : Sized Label where
  Fits l := Fits l.text

instance : Sized EnumItem where
  Fits i := Fits i.name ∧ Fits i.doc ∧ Fits i.labels

instance : Sized Enumeration where
  Fits e := Fits e.name ∧ Fits e.canonical ∧ Fits e.doc ∧ Fits e.items

instance : Sized BitItem where
  Fits i := Fits i.name ∧ Fits i.doc ∧ Fits i.labels

instance : Sized Bitfield where
  Fits b := Fits b.name ∧ Fits b.canonical ∧ Fits b.doc ∧ Fits b.items ∧ Fits b.labelsUnset ∧
    Fits b.labelsNull

/-! ### Fields -/

instance : Sized DefaultValue where
  Fits v := match v with
    | .text s => Fits s
    | .integer _ | .real _ => True
  decidableFits v := match v with
    | .text s => inferInstanceAs (Decidable (Fits s))
    | .integer _ | .real _ => isTrue trivial

instance : Sized Reference where
  Fits r := Fits r.sourceField ∧ Fits r.targetEntity ∧ Fits r.targetField

instance : Sized StructSource where
  Fits s := Fits s.field

instance {k : Handle.Kind} : Sized (Link k) where
  Fits l := Fits l.name

instance : Sized Validation where
  Fits v := Fits v.limit

instance : Sized Field where
  Fits f := Fits f.name ∧ Fits f.reference ∧ Fits f.structSource ∧ Fits f.enumeration ∧
    Fits f.bitfield ∧ Fits f.defaultValue ∧ Fits f.doc ∧ Fits f.validations

/-! ### Specifications -/

instance : Sized Path where
  Fits p := Fits p.names

instance : Sized SearchParam where
  Fits p := Fits p.path

instance : Sized SortOrder where
  Fits o := Fits o.path

instance : Sized Aggregate where
  Fits a := Fits a.path ∧ Fits a.group

instance : Sized Distinct where
  Fits x := Fits x.path

instance : Sized Search where
  Fits s := Fits s.name ∧ Fits s.doc ∧ Fits s.params ∧ Fits s.orders ∧ Fits s.aggregate ∧
    Fits s.distinct

instance : Sized Modification where
  Fits m := Fits m.path

instance : Sized RowConstraint where
  Fits c := Fits c.path

instance : Sized Mutation where
  Fits m := Fits m.name ∧ Fits m.doc ∧ Fits m.modify ∧ Fits m.constrain

instance : Sized Unique where
  Fits u := Fits u.fields

/-! ### Documents -/

instance : Sized Grant where
  Fits g := Fits g.target ∧ Fits g.roles

instance : Sized Rolemap where
  Fits m := Fits m.grants

instance : Sized Entity where
  Fits e := Fits e.name ∧ Fits e.canonical ∧ Fits e.doc ∧ Fits e.fields ∧ Fits e.searches ∧
    Fits e.updates ∧ Fits e.deletes ∧ Fits e.uniques ∧ Fits e.rolemap

instance : Sized Role where
  Fits r := Fits r.name ∧ Fits r.doc ∧ Fits r.children

instance : Sized RoleTree where
  Fits t := Fits t.roles ∧ Fits t.roots

instance : Sized Document where
  Fits d := Fits d.entities ∧ Fits d.enums ∧ Fits d.bitfields ∧ Fits d.roles ∧ Fits d.languages ∧
    Fits d.sourceFiles

end DataModel.Snapshot
