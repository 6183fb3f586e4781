import DataModel.Linked
import DataModel.Proofs.Identifiers

/-!
# Documents in one spelling

`Document.folded` is a document with all its names in lower case: the names that it declares, of
entities, fields, specifications, enumerations, bit-field sets, items and roles, and the names that
refer to them, in references, struct sources, links, paths and grants.  Everything else is kept, the
linked state and the generated identifiers among it.  Two documents that fold to one document differ
in the case of names only.

A name is looked up by comparing it with declared names, case aside.  So what is found for a folded
name among folded declarations is what is found for the name, folded: `find?_folded` and
`findIdx?_folded`.
-/

namespace DataModel

/-! ### Names -/

namespace Ident

theorem fold_fold (name : String) : fold (fold name) = fold name := by
  rw [← String.toList_inj, fold, fold, String.toList_map, String.toList_map, List.map_map]
  exact List.map_congr_left fun c _ => Char.toLower_toLower_eq_toLower c

/-- A separator without letters stays where it is. -/
theorem fold_intercalate {sep : String} (hsep : fold sep = sep) (names : List String) :
    fold (sep.intercalate names) = sep.intercalate (names.map fold) := by
  have hlist (cs : List Char) (lists : List (List Char)) :
      (cs.intercalate lists).map Char.toLower =
        (cs.map Char.toLower).intercalate (lists.map (List.map Char.toLower)) := by
    induction lists with
    | nil => rfl
    | cons n lists ih =>
      cases lists with
      | nil => simp
      | cons m lists =>
        rw [List.map_cons] at ih
        rw [List.map_cons, List.map_cons, List.intercalate_cons_cons, List.map_append,
          List.map_append, ih, List.intercalate_cons_cons]
  have hcs : sep.toList.map Char.toLower = sep.toList := by
    rw [← String.toList_map]
    exact congrArg String.toList hsep
  rw [← String.toList_inj, fold, String.toList_map, String.toList_intercalate,
    String.toList_intercalate, hlist, hcs, List.map_map, List.map_map]
  have hnames : List.map Char.toLower ∘ String.toList = String.toList ∘ fold :=
    funext fun name => String.toList_map.symm
  rw [hnames]

@[simp]
theorem same_fold (a b : String) : same (fold a) (fold b) = same a b := by
  rw [Bool.eq_iff_iff, same_iff, same_iff, fold_fold, fold_fold]

@[simp]
theorem isReserved_fold (name : String) : isReserved (fold name) = isReserved name := by
  rw [Bool.eq_iff_iff, isReserved_iff, isReserved_iff, fold_fold]

end Ident

section

variable {α : Type} (name : α → String) {g : α → α}

/-- Folded declarations are found by folded names. -/
theorem find?_folded (hg : ∀ a, name (g a) = Ident.fold (name a)) (l : List α) (n : String) :
    ((l.map g).find? fun a => Ident.same (name a) (Ident.fold n)) =
      (l.find? fun a => Ident.same (name a) n).map g := by
  have hp : (fun a => Ident.same (name a) (Ident.fold n)) ∘ g = fun a => Ident.same (name a) n := by
    funext a
    rw [Function.comp_apply, hg, Ident.same_fold]
  rw [List.find?_map, hp]

theorem findIdx?_folded (hg : ∀ a, name (g a) = Ident.fold (name a)) (l : List α) (n : String) :
    ((l.map g).findIdx? fun a => Ident.same (name a) (Ident.fold n)) =
      l.findIdx? fun a => Ident.same (name a) n := by
  have hp : (fun a => Ident.same (name a) (Ident.fold n)) ∘ g = fun a => Ident.same (name a) n := by
    funext a
    rw [Function.comp_apply, hg, Ident.same_fold]
  rw [List.findIdx?_map, hp]

end

/-! ### Fields -/

def Reference.folded (r : Reference) : Reference :=
  { r with
    sourceField := Ident.fold r.sourceField
    targetEntity := Ident.fold r.targetEntity
    targetField := Ident.fold r.targetField }

def StructSource.folded (s : StructSource) : StructSource := { s with field := Ident.fold s.field }

def Link.folded {k : Handle.Kind} (l : Link k) : Link k := { l with name := Ident.fold l.name }

/-- The field with all names in lower case. -/
def Field.folded (f : Field) : Field :=
  { f with
    name := Ident.fold f.name
    reference := f.reference.map Reference.folded
    structSource := f.structSource.map StructSource.folded
    enumeration := f.enumeration.map Link.folded
    bitfield := f.bitfield.map Link.folded }

/-- A path goes on to the same entity, whatever the case of names. -/
theorem Field.next?_folded (f : Field) : f.folded.next? = f.next? := by
  simp only [next?, folded, Option.bind_map]
  rfl

/-! ### Specifications -/

def Path.folded (p : Path) : Path := { p with names := p.names.map Ident.fold }

/-- Dots have no case. -/
theorem Path.dotted_folded (p : Path) : p.folded.dotted = Ident.fold p.dotted :=
  (Ident.fold_intercalate (by decide +kernel) p.names).symm

def SearchParam.folded (p : SearchParam) : SearchParam := { p with path := p.path.folded }

def SortOrder.folded (o : SortOrder) : SortOrder := { o with path := o.path.folded }

def Aggregate.folded (a : Aggregate) : Aggregate :=
  { a with path := a.path.folded, group := a.group.folded }

def Distinct.folded (x : Distinct) : Distinct := { x with path := x.path.folded }

/-- The search with all names in lower case. -/
def Search.folded (s : Search) : Search :=
  { s with
    name := s.name.map Ident.fold
    params := s.params.map SearchParam.folded
    orders := s.orders.map SortOrder.folded
    aggregate := s.aggregate.map Aggregate.folded
    distinct := s.distinct.map Distinct.folded }

def Modification.folded (m : Modification) : Modification := { m with path := m.path.folded }

def RowConstraint.folded (c : RowConstraint) : RowConstraint := { c with path := c.path.folded }

/-- The mutation with all names in lower case. -/
def Mutation.folded (m : Mutation) : Mutation :=
  { m with
    name := m.name.map Ident.fold
    modify := m.modify.map Modification.folded
    constrain := m.constrain.map RowConstraint.folded }

/-- The unique constraint with all names in lower case. -/
def Unique.folded (u : Unique) : Unique := { u with fields := u.fields.map Path.folded }

/-! ### Grants and roles -/

def Grant.folded (g : Grant) : Grant :=
  { g with target := g.target.map Ident.fold, roles := g.roles.map Ident.fold }

def Rolemap.folded (m : Rolemap) : Rolemap := { m with grants := m.grants.map Grant.folded }

def Role.folded (r : Role) : Role := { r with name := Ident.fold r.name }

def RoleTree.folded (t : RoleTree) : RoleTree := { t with roles := t.roles.map Role.folded }

/-! ### Enumerations and bit-field sets -/

def EnumItem.folded (i : EnumItem) : EnumItem := { i with name := Ident.fold i.name }

def Enumeration.folded (e : Enumeration) : Enumeration :=
  { e with name := Ident.fold e.name, items := e.items.map EnumItem.folded }

def BitItem.folded (i : BitItem) : BitItem := { i with name := Ident.fold i.name }

def Bitfield.folded (b : Bitfield) : Bitfield :=
  { b with name := Ident.fold b.name, items := b.items.map BitItem.folded }

/-! ### Entities and documents -/

namespace Entity

/-- The entity with all names in lower case. -/
def folded (e : Entity) : Entity :=
  { e with
    name := Ident.fold e.name
    fields := e.fields.map Field.folded
    searches := e.searches.map Search.folded
    updates := e.updates.map Mutation.folded
    deletes := e.deletes.map Mutation.folded
    uniques := e.uniques.map Unique.folded
    rolemap := e.rolemap.folded }

theorem field?_folded (e : Entity) (name : String) :
    e.folded.field? (Ident.fold name) = (e.field? name).map Field.folded :=
  find?_folded Field.name (fun _ => rfl) e.fields name

end Entity

namespace Document

/-- **The document with all names in lower case.** -/
def folded (d : Document) : Document :=
  { d with
    entities := d.entities.map Entity.folded
    enums := d.enums.map Enumeration.folded
    bitfields := d.bitfields.map Bitfield.folded
    roles := d.roles.folded }

variable (d : Document)

theorem findEntity?_folded (name : String) :
    d.folded.findEntity? (Ident.fold name) = (d.findEntity? name).map Entity.folded :=
  find?_folded Entity.name (fun _ => rfl) d.entities name

theorem findEnumeration?_folded (name : String) :
    d.folded.findEnumeration? (Ident.fold name) =
      (d.findEnumeration? name).map Enumeration.folded :=
  find?_folded Enumeration.name (fun _ => rfl) d.enums name

theorem findBitfield?_folded (name : String) :
    d.folded.findBitfield? (Ident.fold name) = (d.findBitfield? name).map Bitfield.folded :=
  find?_folded Bitfield.name (fun _ => rfl) d.bitfields name

theorem entity?_folded (id : Handle .entity) :
    d.folded.entity? id = (d.entity? id).map Entity.folded :=
  List.getElem?_map ..

theorem enumeration?_folded (id : Handle .enumeration) :
    d.folded.enumeration? id = (d.enumeration? id).map Enumeration.folded :=
  List.getElem?_map ..

theorem field?_folded (id : FieldId) : d.folded.field? id = (d.field? id).map Field.folded := by
  rw [field?, field?, entity?_folded]
  cases d.entity? id.entity with
  | none => rfl
  | some e => exact List.getElem?_map ..

end Document

/-- The linked document with all names in lower case. -/
def LinkedDocument.folded (l : LinkedDocument) : LinkedDocument :=
  { l with document := l.document.folded }

end DataModel
