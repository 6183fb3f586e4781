import DataModel.Document

/-!
# Documents without linked state

`Document.unlinked` is the document as it was declared: every declared part is kept, and everything
that linking adds is taken back to what a new declaration has: no handles, empty chains, no granted
roles or targets, height zero, and no search that is known to match one row at most.

Linking adds its parts to an entity in four steps, the bindings of the fields, the height, the
grants and the chains of the specifications.  `Entity.beforeHeight`, `Entity.beforeGrants` and
`Entity.beforeChains` are the entity as each later step finds it, with the parts of the earlier
steps in place.
-/

namespace DataModel

/-! ### Fields -/

/-- The reference without its handles. -/
def Reference.unlinked (r : Reference) : Reference := { r with binding := none }

/-- The struct source without its handles. -/
def StructSource.unlinked (s : StructSource) : StructSource := { s with binding := none }

/-- The link without its handle. -/
def Link.unlinked {k : Handle.Kind} (l : Link k) : Link k := { l with handle := none }

/-- The field as it was declared. -/
def Field.unlinked (f : Field) : Field :=
  { f with
    reference := f.reference.map Reference.unlinked
    structSource := f.structSource.map StructSource.unlinked
    enumeration := f.enumeration.map Link.unlinked
    bitfield := f.bitfield.map Link.unlinked }

@[simp] theorem Field.unlinked_id (f : Field) : f.unlinked.id = f.id := rfl
@[simp] theorem Field.unlinked_name (f : Field) : f.unlinked.name = f.name := rfl

/-! ### Specifications -/

def SearchParam.unlinked (p : SearchParam) : SearchParam := { p with path := p.path.unlinked }

def SortOrder.unlinked (o : SortOrder) : SortOrder := { o with path := o.path.unlinked }

def Aggregate.unlinked (a : Aggregate) : Aggregate :=
  { a with path := a.path.unlinked, group := a.group.unlinked }

def Distinct.unlinked (x : Distinct) : Distinct := { x with path := x.path.unlinked }

/-- The search as it was declared. -/
def Search.unlinked (s : Search) : Search :=
  { s with
    params := s.params.map SearchParam.unlinked
    orders := s.orders.map SortOrder.unlinked
    aggregate := s.aggregate.map Aggregate.unlinked
    distinct := s.distinct.map Distinct.unlinked
    returnsUnique := false }

def Modification.unlinked (m : Modification) : Modification := { m with path := m.path.unlinked }

def RowConstraint.unlinked (c : RowConstraint) : RowConstraint := { c with path := c.path.unlinked }

/-- The mutation as it was declared. -/
def Mutation.unlinked (m : Mutation) : Mutation :=
  { m with
    modify := m.modify.map Modification.unlinked
    constrain := m.constrain.map RowConstraint.unlinked }

/-- The unique constraint as it was declared. -/
def Unique.unlinked (u : Unique) : Unique := { u with fields := u.fields.map Path.unlinked }

/-! ### Grants -/

/-- The grant without its handles. -/
def Grant.unlinked (g : Grant) : Grant := { g with boundRoles := [], boundTarget := none }

def Rolemap.unlinked (m : Rolemap) : Rolemap := { m with grants := m.grants.map Grant.unlinked }

/-! ### Entities and documents -/

namespace Entity

/-- The entity as linking its specifications finds it. -/
def beforeChains (e : Entity) : Entity :=
  { e with
    searches := e.searches.map Search.unlinked
    updates := e.updates.map Mutation.unlinked
    deletes := e.deletes.map Mutation.unlinked
    uniques := e.uniques.map Unique.unlinked }

/-- The entity as linking its grants finds it. -/
def beforeGrants (e : Entity) : Entity := { e.beforeChains with rolemap := e.rolemap.unlinked }

/-- The entity as the computation of the heights finds it. -/
def beforeHeight (e : Entity) : Entity := { e.beforeGrants with height := 0 }

/-- The entity as it was declared. -/
def unlinked (e : Entity) : Entity :=
  { e.beforeHeight with fields := e.fields.map Field.unlinked }

@[simp] theorem beforeChains_fields (e : Entity) : e.beforeChains.fields = e.fields := rfl
@[simp] theorem beforeGrants_name (e : Entity) : e.beforeGrants.name = e.name := rfl
@[simp] theorem beforeHeight_fields (e : Entity) : e.beforeHeight.fields = e.fields := rfl
@[simp] theorem unlinked_id (e : Entity) : e.unlinked.id = e.id := rfl
@[simp] theorem unlinked_name (e : Entity) : e.unlinked.name = e.name := rfl

@[simp]
theorem unlinked_fields (e : Entity) : e.unlinked.fields = e.fields.map Field.unlinked := rfl

/-- The names of the fields are declared. -/
theorem unlinked_field? (e : Entity) (name : String) :
    e.unlinked.field? name = (e.field? name).map Field.unlinked := by
  rw [field?, unlinked_fields, List.find?_map]
  rfl

end Entity

namespace Document

/-- The document with every entity changed. -/
def mapEntities (g : Entity → Entity) (d : Document) : Document :=
  { d with entities := d.entities.map g }

/-- **The document as it was declared.** -/
def unlinked (d : Document) : Document := d.mapEntities Entity.unlinked

variable (d : Document) {g : Entity → Entity}

@[simp] theorem mapEntities_entities : (d.mapEntities g).entities = d.entities.map g := rfl
@[simp] theorem mapEntities_enums : (d.mapEntities g).enums = d.enums := rfl
@[simp] theorem mapEntities_roles : (d.mapEntities g).roles = d.roles := rfl

@[simp]
theorem mapEntities_mapEntities (h : Entity → Entity) :
    (d.mapEntities g).mapEntities h = d.mapEntities (h ∘ g) := by
  simp only [mapEntities, List.map_map]

/-- Documents that agree before their chains agree before their grants. -/
theorem beforeGrants_congr {d d' : Document}
    (h : d.mapEntities Entity.beforeChains = d'.mapEntities Entity.beforeChains) :
    d.mapEntities Entity.beforeGrants = d'.mapEntities Entity.beforeGrants := by
  have hm := congrArg (mapEntities fun e => { e with rolemap := e.rolemap.unlinked }) h
  rwa [mapEntities_mapEntities, mapEntities_mapEntities] at hm

/-- Documents that agree before their grants agree before their heights. -/
theorem beforeHeight_congr {d d' : Document}
    (h : d.mapEntities Entity.beforeGrants = d'.mapEntities Entity.beforeGrants) :
    d.mapEntities Entity.beforeHeight = d'.mapEntities Entity.beforeHeight := by
  have hm := congrArg (mapEntities fun e => { e with height := 0 }) h
  rwa [mapEntities_mapEntities, mapEntities_mapEntities] at hm

/-- Documents that agree before their heights agree as they were declared. -/
theorem unlinked_congr {d d' : Document}
    (h : d.mapEntities Entity.beforeHeight = d'.mapEntities Entity.beforeHeight) :
    d.unlinked = d'.unlinked := by
  have hm := congrArg (mapEntities fun e => { e with fields := e.fields.map Field.unlinked }) h
  rwa [mapEntities_mapEntities, mapEntities_mapEntities] at hm

theorem entity?_mapEntities (id : Handle .entity) :
    (d.mapEntities g).entity? id = (d.entity? id).map g := by
  rw [entity?, mapEntities_entities, List.getElem?_map]
  rfl

/-- A change that keeps the names of the entities is looked through by name. -/
theorem findEntity?_mapEntities (hg : ∀ e, (g e).name = e.name) (name : String) :
    (d.mapEntities g).findEntity? name = (d.findEntity? name).map g := by
  have hp : (fun e : Entity => Ident.same e.name name) ∘ g = fun e => Ident.same e.name name := by
    funext e
    rw [Function.comp_apply, hg]
  rw [findEntity?, mapEntities_entities, List.find?_map, hp]
  rfl

/-- A change that keeps the fields of the entities does not change what a handle names. -/
theorem field?_mapEntities (hg : ∀ e, (g e).fields = e.fields) (id : FieldId) :
    (d.mapEntities g).field? id = d.field? id := by
  rw [field?, field?, entity?_mapEntities]
  cases d.entity? id.entity with
  | none => rfl
  | some e => simp only [Option.map_some, Option.bind_some, hg]

/-- The fields of a document are at the same places before and after it was linked. -/
theorem field?_unlinked (d : Document) (id : FieldId) :
    d.unlinked.field? id = (d.field? id).map Field.unlinked := by
  rw [field?, field?, unlinked, entity?_mapEntities]
  cases d.entity? id.entity with
  | none => rfl
  | some e =>
    simp only [Option.map_some, Option.bind_some, Entity.unlinked_fields, List.getElem?_map]

end Document

/-! ### An example -/

/-- Persons, and sessions that persons hold, with a declaration of every kind.  When `stale` is set,
every part that linking adds holds something wrong. -/
def Document.sessions (stale : Bool) : Document :=
  let left {α : Type} (a : α) : Option α := if stale then some a else none
  let person : Handle .entity := ⟨0, by decide⟩
  let session : Handle .entity := ⟨1, by decide⟩
  let field (e : Handle .entity) (i : Fin 5) : FieldId := ⟨e, i, Nat.lt_trans i.isLt (by decide)⟩
  let path (names : List String) : Path := ⟨names, (left (field session 4)).toList⟩
  { entities :=
      [{ Entity.declare person "person" with
          fields :=
            [{ id := field person 0, name := "id", flags := { rowid := true } },
              { id := field person 1, name := "email", type := .text, flags := { unique := true } }]
          height := if stale then 7 else 0 },
        { Entity.declare session "session" with
          fields :=
            [{ id := field session 0, name := "id", flags := { rowid := true } },
              { id := field session 1, name := "owner", flags := { null := true },
                reference := some
                  { sourceField := "owner", targetEntity := "Person", targetField := "ID"
                    binding := left ⟨field session 0, field person 1⟩ }
                onDelete := .nullify },
              { id := field session 2, name := "holder", type := .struct,
                structSource := some
                  { field := "Owner", binding := left ⟨field session 3, session⟩ } },
              { id := field session 3, name := "state", type := .enum,
                enumeration := some { name := "state", handle := left ⟨5, by decide⟩ },
                defaultValue := some (.integer 1) },
              { id := field session 4, name := "rights", type := .bitfield,
                bitfield := some { name := "rights", handle := left ⟨5, by decide⟩ },
                defaultValue := some (.integer 2) }]
          searches :=
            [{ name := some "of_owner", kind := .search
               params := [⟨path ["holder", "email"], .eq⟩]
               orders := [⟨path ["id"], .desc⟩]
               aggregate := some ⟨.maxRow, path ["id"], path ["state"]⟩
               distinct := some ⟨path ["owner"]⟩
               returnsUnique := stale }]
          updates :=
            [{ name := some "close", kind := .update
               modify := [⟨path ["state"], .set⟩], constrain := [⟨path ["id"], .eq⟩] }]
          deletes :=
            [{ name := some "drop", kind := .delete, constrain := [⟨path ["id"], .eq⟩] }]
          uniques := [⟨[path ["owner"], path ["state"]]⟩]
          rolemap := ⟨[{ op := .update, target := some "close", roles := ["default"]
                         boundRoles := (left ⟨9, by decide⟩).toList, boundTarget := left 9 }]⟩ }]
    enums :=
      [{ Enumeration.declare ⟨0, by decide⟩ "state" with
          items := [{ name := "open" }, { name := "closed" }] }]
    bitfields :=
      [{ Bitfield.declare ⟨0, by decide⟩ "rights" with
          items := [{ name := "read", index := 0 }, { name := "write", index := 1 }] }] }

example : (Document.sessions true).unlinked = Document.sessions false := by decide +kernel

end DataModel
