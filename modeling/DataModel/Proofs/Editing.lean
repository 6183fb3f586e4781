import DataModel.Edit
import DataModel.Proofs.Outcome

/-!
# Edits that are carried out

An edit is carried out or refused.  `Entity.Change` and `Document.Change` say what it comes to where
it is carried out, with one case for each kind of edit: what was checked and what was found, and
what the entity or the document is afterwards.  Every edit that is carried out is one of these
changes (`Entity.change_of_perform`, `Document.change_of_perform`), so what edits keep is proved by
going through the changes.

What a new field has and no edit of a field takes from it, all fields have, whatever else is done to
their entity (`Entity.forall_fields_of_perform`).  So it is with the entities of a document
(`Document.forall_entities_of_perform`).  A document is *built* if edits lead to it from a new one
(`Document.Built`).
-/

namespace DataModel

/-! ### Edits of lists -/

section

variable {α β : Type} {l l' : List α} {i j : Nat}

@[simp]
theorem attempt_eq_ok {r : Except Error α} {a : α} : attempt r = .ok a ↔ r = .ok a := by
  cases r with
  | error e => simp [attempt, Except.mapError]
  | ok b => simp [attempt, Except.mapError]

@[simp]
theorem orMissing_eq_ok {o : Option α} {what : Missing} {a : α} :
    orMissing o what = .ok a ↔ o = some a := by
  cases o with
  | none => simp [orMissing]
  | some b => simp [orMissing]

/-- An edit at a place edits the member at the place. -/
theorem editAt_eq_ok {what : Missing} {edit : α → Except Refusal (β × α)} {b : β} :
    editAt l i what edit = .ok (b, l') ↔
      ∃ a, l[i]? = some a ∧ ∃ a', edit a = .ok (b, a') ∧ l.set i a' = l' := by
  simp only [editAt, bind_eq_ok, orMissing_eq_ok, pure_eq_ok, Prod.exists, Prod.mk.injEq]
  constructor
  · rintro ⟨a, ha, b, a', hedit, rfl, hl⟩
    exact ⟨a, ha, a', hedit, hl⟩
  · rintro ⟨a, ha, a', hedit, hl⟩
    exact ⟨a, ha, b, a', hedit, rfl, hl⟩

theorem swapAt_eq_ok : swapAt l i j = .ok l' ↔
    ∃ a, l[i]? = some a ∧ ∃ b, l[j]? = some b ∧ (l.set i b).set j a = l' := by
  simp only [swapAt, bind_eq_ok, orMissing_eq_ok, pure_eq_ok]

/-- An exchange rearranges the list. -/
theorem perm_of_swapAt (h : swapAt l i j = .ok l') : l.Perm l' := by
  obtain ⟨a, ha, b, hb, rfl⟩ := swapAt_eq_ok.1 h
  obtain ⟨hi, rfl⟩ := List.getElem?_eq_some_iff.1 ha
  obtain ⟨hj, rfl⟩ := List.getElem?_eq_some_iff.1 hb
  exact (List.set_set_perm hi hj).symm

/-- What is true of all members and of a new one stays true of all. -/
theorem forall_mem_set {p : α → Prop} {a : α} (hl : ∀ b ∈ l, p b) (ha : p a) :
    ∀ b ∈ l.set i a, p b := by
  intro b hb
  rcases List.mem_or_eq_of_mem_set hb with hb | rfl
  · exact hl b hb
  · exact ha

/-- What a new member keeps of the one before it, the list keeps. -/
theorem map_set_of_eq {a a' : α} {see : α → β} (ha : l[i]? = some a) (h : see a' = see a) :
    (l.set i a').map see = l.map see := by
  have hsee : (l.map see)[i]? = some (see a) := by
    rw [List.getElem?_map, ha, Option.map_some]
  obtain ⟨hi, hget⟩ := List.getElem?_eq_some_iff.1 hsee
  rw [List.map_set, h, ← hget, List.set_getElem_self]

theorem filterMap_set_of_eq {a a' : α} {see : α → Option β} (ha : l[i]? = some a)
    (h : see a' = see a) : (l.set i a').filterMap see = l.filterMap see := by
  have hmap (l : List α) : l.filterMap see = (l.map see).filterMap id := by
    rw [List.filterMap_map, Function.id_comp]
  rw [hmap, map_set_of_eq ha h, ← hmap]

end

/-! ### Entities -/

namespace Entity

variable {e e' : Entity}

/-- **A new field** has a new name and the handle of its place. -/
theorem addField_eq_ok {name : String} {id : FieldId} :
    e.addField name = .ok (id, e') ↔
      Scope.field.checkNew name (e.fields.map Field.name) = .ok () ∧
        FieldId.allocate e.id e.fields.length = .ok id ∧
        { e with fields := e.fields ++ [({ id, name } : Field)] } = e' := by
  simp only [addField, bind_eq_ok, pure_eq_ok, Prod.mk.injEq]
  constructor
  · rintro ⟨_, hcheck, _, hid, rfl, rfl⟩
    exact ⟨hcheck, hid, rfl⟩
  · rintro ⟨hcheck, hid, rfl⟩
    exact ⟨(), hcheck, id, hid, rfl, rfl⟩

/-- **A new unique constraint** is over two fields at least, names none of them twice, and has a key
of its own. -/
theorem addUnique_eq_ok {fields : List String} {u : Unique} :
    e.addUnique fields = .ok (u, e') ↔
      2 ≤ fields.length ∧ u.repeatedField? = none ∧
        Scope.unique.checkUnused u.key (e.uniques.map Unique.key) = .ok () ∧
        Unique.ofTexts fields = u ∧ { e with uniques := e.uniques ++ [u] } = e' := by
  rw [addUnique, guardFlaw_eq_ok, Nat.not_lt]
  cases hrepeated : (Unique.ofTexts fields).repeatedField? with
  | some field =>
    simp only [hrepeated, fail_ne_ok, and_false, false_iff, not_and]
    rintro - hnone - rfl
    rw [hrepeated] at hnone
    cases hnone
  | none =>
    simp only [hrepeated, bind_eq_ok, pure_eq_ok, Prod.mk.injEq]
    constructor
    · rintro ⟨hlength, _, hunused, rfl, rfl⟩
      exact ⟨hlength, hrepeated, hunused, rfl, rfl⟩
    · rintro ⟨hlength, _, hunused, rfl, rfl⟩
      exact ⟨hlength, (), hunused, rfl, rfl⟩

/-- **What an edit does to an entity**, if it is carried out. -/
inductive Change (e : Entity) : EntityEdit → Entity → Prop
  | addField {name : String} {id : FieldId}
      (fresh : Scope.field.checkNew name (e.fields.map Field.name) = .ok ())
      (allocated : FieldId.allocate e.id e.fields.length = .ok id) :
      Change e (.addField name) { e with fields := e.fields ++ [({ id, name } : Field)] }
  | addSearch {kind : SearchKind} {name : Option String}
      (fresh : checkOptional .search name (e.searches.map Search.name) = .ok ()) :
      Change e (.addSearch kind name) { e with searches := e.searches ++ [{ name, kind }] }
  | addUpdate {name : Option String}
      (fresh : checkOptional .update name (e.updates.map Mutation.name) = .ok ()) :
      Change e (.addUpdate name) { e with updates := e.updates ++ [{ name, kind := .update }] }
  | addDelete {name : Option String}
      (fresh : checkOptional .delete name (e.deletes.map Mutation.name) = .ok ()) :
      Change e (.addDelete name) { e with deletes := e.deletes ++ [{ name, kind := .delete }] }
  | addUnique {fields : List String} {u : Unique} (isOf : Unique.ofTexts fields = u)
      (long : 2 ≤ fields.length) (once : u.repeatedField? = none)
      (fresh : Scope.unique.checkUnused u.key (e.uniques.map Unique.key) = .ok ()) :
      Change e (.addUnique fields) { e with uniques := e.uniques ++ [u] }
  | grant {op : Operation} {target : Option String} {role : String} {rolemap : Rolemap}
      (granted : e.rolemap.grant op target role = .ok rolemap) :
      Change e (.grant op target role) { e with rolemap }
  | onField {ref : FieldRef} {edit : FieldEdit} {n : Nat} {f f' : Field}
      (addressed : e.fieldIndex? ref = some n) (found : e.fields[n]? = some f)
      (edited : f.perform edit = .ok f') :
      Change e (.onField ref edit) { e with fields := e.fields.set n f' }
  | onSearch {n : Nat} {edit : SearchEdit} {s : Search} (found : e.searches[n]? = some s) :
      Change e (.onSearch n edit) { e with searches := e.searches.set n (s.perform edit) }
  | onUpdate {n : Nat} {edit : MutationEdit} {m : Mutation} (found : e.updates[n]? = some m) :
      Change e (.onMutation (.update n) edit) { e with updates := e.updates.set n (m.perform edit) }
  | onDelete {n : Nat} {edit : MutationEdit} {m : Mutation} (found : e.deletes[n]? = some m) :
      Change e (.onMutation (.delete n) edit) { e with deletes := e.deletes.set n (m.perform edit) }
  | setUniqueFields {n : Nat} {fields : List Path} {u : Unique} (found : e.uniques[n]? = some u) :
      Change e (.setUniqueFields n fields) { e with uniques := e.uniques.set n ⟨fields⟩ }
  | setInsert {insert : Bool} : Change e (.setInsert insert) { e with insert }
  | setDoc {doc : Option String} : Change e (.setDoc doc) { e with doc }
  | setHeight {height : Nat} : Change e (.setHeight height) { e with height }
  | swapFields {i j : Nat} {fields : List Field} (swapped : swapAt e.fields i j = .ok fields) :
      Change e (.swapFields i j) { e with fields }

/-- **An edit that is carried out is a change.** -/
theorem change_of_perform {edit : EntityEdit} {r : Receipt} (h : e.perform edit = .ok (r, e')) :
    e.Change edit e' := by
  cases edit with
  | addField name =>
    simp only [perform, bind_eq_ok, attempt_eq_ok, pure_eq_ok, Prod.mk.injEq, Prod.exists] at h
    obtain ⟨id, _, hadd, _, rfl⟩ := h
    obtain ⟨hfresh, hid, rfl⟩ := addField_eq_ok.1 hadd
    exact .addField hfresh hid
  | addSearch kind name =>
    simp only [perform, addSearch, bind_eq_ok, attempt_eq_ok, pure_eq_ok, Prod.mk.injEq] at h
    obtain ⟨_, ⟨_, hfresh, rfl⟩, _, rfl⟩ := h
    exact .addSearch hfresh
  | addUpdate name =>
    simp only [perform, addUpdate, bind_eq_ok, attempt_eq_ok, pure_eq_ok, Prod.mk.injEq] at h
    obtain ⟨_, ⟨_, hfresh, rfl⟩, _, rfl⟩ := h
    exact .addUpdate hfresh
  | addDelete name =>
    simp only [perform, addDelete, bind_eq_ok, attempt_eq_ok, pure_eq_ok, Prod.mk.injEq] at h
    obtain ⟨_, ⟨_, hfresh, rfl⟩, _, rfl⟩ := h
    exact .addDelete hfresh
  | addUnique fields =>
    simp only [perform, bind_eq_ok, attempt_eq_ok, pure_eq_ok, Prod.mk.injEq, Prod.exists] at h
    obtain ⟨u, _, hadd, _, rfl⟩ := h
    obtain ⟨hlong, honce, hfresh, hu, rfl⟩ := addUnique_eq_ok.1 hadd
    exact .addUnique hu hlong honce hfresh
  | grant op target role =>
    simp only [perform, bind_eq_ok, attempt_eq_ok, pure_eq_ok, Prod.mk.injEq] at h
    obtain ⟨rolemap, hgrant, _, rfl⟩ := h
    exact .grant hgrant
  | onField ref edit =>
    simp only [perform, bind_eq_ok, orMissing_eq_ok, pure_eq_ok, Prod.mk.injEq, Prod.exists,
      editAt_eq_ok] at h
    obtain ⟨n, hn, _, _, ⟨f, hf, f', ⟨_, hedit, _, rfl⟩, rfl⟩, _, rfl⟩ := h
    exact .onField hn hf hedit
  | onSearch n edit =>
    simp only [perform, bind_eq_ok, pure_eq_ok, Prod.mk.injEq, Prod.exists, editAt_eq_ok] at h
    obtain ⟨_, _, ⟨s, hs, _, ⟨_, rfl⟩, rfl⟩, _, rfl⟩ := h
    exact .onSearch hs
  | onMutation mutation edit =>
    cases mutation with
    | update n =>
      simp only [perform, bind_eq_ok, pure_eq_ok, Prod.mk.injEq, Prod.exists, editAt_eq_ok] at h
      obtain ⟨_, _, ⟨m, hm, _, ⟨_, rfl⟩, rfl⟩, _, rfl⟩ := h
      exact .onUpdate hm
    | delete n =>
      simp only [perform, bind_eq_ok, pure_eq_ok, Prod.mk.injEq, Prod.exists, editAt_eq_ok] at h
      obtain ⟨_, _, ⟨m, hm, _, ⟨_, rfl⟩, rfl⟩, _, rfl⟩ := h
      exact .onDelete hm
  | setUniqueFields n fields =>
    simp only [perform, bind_eq_ok, pure_eq_ok, Prod.mk.injEq, Prod.exists, editAt_eq_ok] at h
    obtain ⟨_, _, ⟨u, hu, _, ⟨_, rfl⟩, rfl⟩, _, rfl⟩ := h
    exact .setUniqueFields hu
  | setInsert insert =>
    obtain ⟨_, rfl⟩ := Prod.mk.inj (pure_eq_ok.1 h)
    exact .setInsert
  | setDoc doc =>
    obtain ⟨_, rfl⟩ := Prod.mk.inj (pure_eq_ok.1 h)
    exact .setDoc
  | setHeight height =>
    obtain ⟨_, rfl⟩ := Prod.mk.inj (pure_eq_ok.1 h)
    exact .setHeight
  | swapFields i j =>
    simp only [perform, bind_eq_ok, pure_eq_ok, Prod.mk.injEq] at h
    obtain ⟨fields, hswap, _, rfl⟩ := h
    exact .swapFields hswap

/-- **What a new field has and no edit of a field takes from it, all fields have**, whatever is done
to their entity. -/
theorem forall_fields_of_perform {p : Field → Prop} (hnew : ∀ id name, p { id, name })
    (hedit : ∀ f f' edit, p f → f.perform edit = .ok f' → p f') {edit : EntityEdit} {r : Receipt}
    (he : ∀ f ∈ e.fields, p f) (h : e.perform edit = .ok (r, e')) : ∀ f ∈ e'.fields, p f := by
  cases change_of_perform h with
  | addField fresh allocated =>
    rw [List.forall_mem_append, List.forall_mem_singleton]
    exact ⟨he, hnew _ _⟩
  | onField addressed found edited =>
    exact forall_mem_set he (hedit _ _ _ (he _ (List.mem_of_getElem? found)) edited)
  | swapFields swapped =>
    intro f hf
    exact he f ((perm_of_swapAt swapped).mem_iff.2 hf)
  | addSearch | addUpdate | addDelete | addUnique | grant | onSearch | onUpdate | onDelete
  | setUniqueFields | setInsert | setDoc | setHeight =>
    -- These write other parts of the entity.
    exact he

end Entity

/-! ### Bit-field sets -/

/-- **A new item** has a new name and an index in range. -/
theorem Bitfield.addItem_eq_ok {b b' : Bitfield} {name : String} {index : Int}
    {doc : Option String} {labels : List Label} {item : BitItem} :
    b.addItem name index doc labels = .ok (item, b') ↔
      Scope.bitItem.checkNew name (b.items.map BitItem.name) = .ok () ∧
        (0 ≤ index ∧ index ≤ maxBitIndex) ∧
        { name, index := UInt8.ofNat index.toNat, doc, labels } = item ∧
        { b with items := b.items ++ [item] } = b' := by
  simp only [addItem, newItem, bind_eq_ok, pure_eq_ok, Prod.mk.injEq]
  constructor
  · rintro ⟨_, ⟨_, hcheck, hitem⟩, rfl, rfl⟩
    split_ifs at hitem with hindex
    · obtain rfl := pure_eq_ok.1 hitem
      exact ⟨hcheck, hindex, rfl, rfl⟩
    · exact absurd hitem failFlaw_ne_ok
  · rintro ⟨hcheck, hindex, rfl, rfl⟩
    exact ⟨_, ⟨(), hcheck, by rw [if_pos hindex]; rfl⟩, rfl, rfl⟩

/-! ### Documents -/

namespace Document

/-- Edits lead to the document from a new one. -/
inductive Built : Document → Prop
  | new : Built {}
  | edit {d d' : Document} {edit : Edit} {r : Receipt} (built : Built d)
      (performed : d.perform edit = .ok (r, d')) : Built d'

variable {d d' : Document}

/-- **An edit of an entity** edits the entity that it addresses. -/
theorem perform_onEntity_eq_ok {ref : EntityRef} {edit : EntityEdit} {r : Receipt} :
    d.perform (.onEntity ref edit) = .ok (r, d') ↔
      ∃ i, d.entityIndex? ref = some i ∧ ∃ e, d.entities[i]? = some e ∧
        ∃ e', e.perform edit = .ok (r, e') ∧ { d with entities := d.entities.set i e' } = d' := by
  simp only [perform, bind_eq_ok, orMissing_eq_ok, pure_eq_ok, Prod.mk.injEq, Prod.exists,
    editAt_eq_ok]
  constructor
  · rintro ⟨i, hi, _, _, ⟨e, he, e', hedit, rfl⟩, rfl, rfl⟩
    exact ⟨i, hi, e, he, e', hedit, rfl⟩
  · rintro ⟨i, hi, e, he, e', hedit, rfl⟩
    exact ⟨i, hi, r, _, ⟨e, he, e', hedit, rfl⟩, rfl, rfl⟩

/-- **What an edit does to a document**, if it is carried out. -/
inductive Change (d : Document) : Edit → Document → Prop
  | addEntity {name : String} {id : Handle .entity}
      (fresh : Scope.topLevel.checkNew name d.topLevelNames = .ok ())
      (allocated : Handle.allocate d.entities.length = .ok id) :
      Change d (.addEntity name) { d with entities := d.entities ++ [Entity.declare id name] }
  | addEnumeration {name : String} {id : Handle .enumeration}
      (fresh : Scope.topLevel.checkNew name d.topLevelNames = .ok ())
      (allocated : Handle.allocate d.enums.length = .ok id) :
      Change d (.addEnumeration name) { d with enums := d.enums ++ [Enumeration.declare id name] }
  | addBitfield {name : String} {id : Handle .bitfield}
      (fresh : Scope.topLevel.checkNew name d.topLevelNames = .ok ())
      (allocated : Handle.allocate d.bitfields.length = .ok id) :
      Change d (.addBitfield name) { d with bitfields := d.bitfields ++ [Bitfield.declare id name] }
  | addRole {parent : Option (Handle .role)} {name : String} {id : Handle .role} {roles : RoleTree}
      (allocated : d.roles.allocate parent name = .ok (id, roles)) :
      Change d (.addRole parent name) { d with roles }
  | addLanguage {name : String} :
      Change d (.addLanguage name) { d with languages := (enter d.languages name).2 }
  | addSourceFile {name : String} :
      Change d (.addSourceFile name) { d with sourceFiles := (enter d.sourceFiles name).2 }
  | addEnumItem {n : Nat} {item : EnumItem} {e : Enumeration} (found : d.enums[n]? = some e)
      (fresh : Scope.enumItem.checkNew item.name (e.items.map EnumItem.name) = .ok ()) :
      Change d (.addEnumItem n item)
        { d with enums := d.enums.set n { e with items := e.items ++ [item] } }
  | addBitItem {n : Nat} {name : String} {index : Int} {doc : Option String} {labels : List Label}
      {b : Bitfield} (found : d.bitfields[n]? = some b)
      (fresh : Scope.bitItem.checkNew name (b.items.map BitItem.name) = .ok ())
      (inRange : 0 ≤ index ∧ index ≤ maxBitIndex) :
      Change d (.addBitItem n name index doc labels)
        { d with
          bitfields := d.bitfields.set n
            { b with
              items := b.items ++ [{ name, index := UInt8.ofNat index.toNat, doc, labels }] } }
  | setEnumDoc {n : Nat} {doc : Option String} {e : Enumeration} (found : d.enums[n]? = some e) :
      Change d (.setEnumDoc n doc) { d with enums := d.enums.set n { e with doc } }
  | setEnumValue {n i : Nat} {value : Option Int64} {e : Enumeration} {item : EnumItem}
      (found : d.enums[n]? = some e) (foundItem : e.items[i]? = some item) :
      Change d (.setEnumValue n i value)
        { d with enums := d.enums.set n { e with items := e.items.set i { item with value } } }
  | setBitfieldTexts {n : Nat} {doc : Option String} {labelsUnset labelsNull : List Label}
      {b : Bitfield} (found : d.bitfields[n]? = some b) :
      Change d (.setBitfieldTexts n doc labelsUnset labelsNull)
        { d with bitfields := d.bitfields.set n { b with doc, labelsUnset, labelsNull } }
  | setRoleDoc {id : Handle .role} {doc : Option String} {role : Role}
      (found : d.roles.roles[id.index]? = some role) :
      Change d (.setRoleDoc id doc)
        { d with
          roles := { d.roles with roles := d.roles.roles.set id.index { role with doc } } }
  | swapEntities {i j : Nat} {entities : List Entity}
      (swapped : swapAt d.entities i j = .ok entities) :
      Change d (.swapEntities i j) { d with entities }
  | swapEnumerations {i j : Nat} {enums : List Enumeration}
      (swapped : swapAt d.enums i j = .ok enums) :
      Change d (.swapEnumerations i j) { d with enums }
  | swapBitfields {i j : Nat} {bitfields : List Bitfield}
      (swapped : swapAt d.bitfields i j = .ok bitfields) :
      Change d (.swapBitfields i j) { d with bitfields }
  | swapEnumItems {n i j : Nat} {e : Enumeration} {items : List EnumItem}
      (found : d.enums[n]? = some e) (swapped : swapAt e.items i j = .ok items) :
      Change d (.swapEnumItems n i j) { d with enums := d.enums.set n { e with items } }
  | onEntity {ref : EntityRef} {edit : EntityEdit} {i : Nat} {e e' : Entity} {r : Receipt}
      (addressed : d.entityIndex? ref = some i) (found : d.entities[i]? = some e)
      (edited : e.perform edit = .ok (r, e')) :
      Change d (.onEntity ref edit) { d with entities := d.entities.set i e' }

/-- **An edit that is carried out is a change.** -/
theorem change_of_perform {edit : Edit} {r : Receipt} (h : d.perform edit = .ok (r, d')) :
    d.Change edit d' := by
  cases edit with
  | addEntity name =>
    simp only [perform, addEntity, bind_eq_ok, attempt_eq_ok, pure_eq_ok, Prod.mk.injEq,
      Prod.exists] at h
    obtain ⟨_, _, ⟨_, hfresh, id, hid, _, rfl⟩, _, rfl⟩ := h
    exact .addEntity hfresh hid
  | addEnumeration name =>
    simp only [perform, addEnumeration, bind_eq_ok, attempt_eq_ok, pure_eq_ok, Prod.mk.injEq,
      Prod.exists] at h
    obtain ⟨_, _, ⟨_, hfresh, id, hid, _, rfl⟩, _, rfl⟩ := h
    exact .addEnumeration hfresh hid
  | addBitfield name =>
    simp only [perform, addBitfield, bind_eq_ok, attempt_eq_ok, pure_eq_ok, Prod.mk.injEq,
      Prod.exists] at h
    obtain ⟨_, _, ⟨_, hfresh, id, hid, _, rfl⟩, _, rfl⟩ := h
    exact .addBitfield hfresh hid
  | addRole parent name =>
    simp only [perform, addRole, bind_eq_ok, attempt_eq_ok, pure_eq_ok, Prod.mk.injEq,
      Prod.exists] at h
    obtain ⟨_, _, ⟨_, _, hroles, _, rfl⟩, _, rfl⟩ := h
    exact .addRole hroles
  | addLanguage name =>
    obtain ⟨_, rfl⟩ := Prod.mk.inj (pure_eq_ok.1 h)
    exact .addLanguage
  | addSourceFile name =>
    obtain ⟨_, rfl⟩ := Prod.mk.inj (pure_eq_ok.1 h)
    exact .addSourceFile
  | addEnumItem n item =>
    simp only [perform, Enumeration.addItem, bind_eq_ok, attempt_eq_ok, pure_eq_ok, Prod.mk.injEq,
      Prod.exists, editAt_eq_ok] at h
    obtain ⟨_, _, ⟨e, he, _, ⟨_, ⟨_, hfresh, rfl⟩, _, rfl⟩, rfl⟩, _, rfl⟩ := h
    exact .addEnumItem he hfresh
  | addBitItem n name index doc labels =>
    simp only [perform, bind_eq_ok, attempt_eq_ok, pure_eq_ok, Prod.mk.injEq, Prod.exists,
      editAt_eq_ok] at h
    obtain ⟨_, _, ⟨b, hb, _, ⟨item, _, hadd, _, rfl⟩, rfl⟩, _, rfl⟩ := h
    obtain ⟨hfresh, hindex, rfl, rfl⟩ := Bitfield.addItem_eq_ok.1 hadd
    exact .addBitItem hb hfresh hindex
  | setEnumDoc n doc =>
    simp only [perform, bind_eq_ok, pure_eq_ok, Prod.mk.injEq, Prod.exists, editAt_eq_ok] at h
    obtain ⟨_, _, ⟨e, he, _, ⟨_, rfl⟩, rfl⟩, _, rfl⟩ := h
    exact .setEnumDoc he
  | setEnumValue n i value =>
    simp only [perform, bind_eq_ok, pure_eq_ok, Prod.mk.injEq, Prod.exists, editAt_eq_ok] at h
    obtain ⟨_, _, ⟨e, he, _, ⟨_, _, ⟨item, hitem, _, ⟨_, rfl⟩, rfl⟩, _, rfl⟩, rfl⟩, _, rfl⟩ := h
    exact .setEnumValue he hitem
  | setBitfieldTexts n doc unset null =>
    simp only [perform, bind_eq_ok, pure_eq_ok, Prod.mk.injEq, Prod.exists, editAt_eq_ok] at h
    obtain ⟨_, _, ⟨b, hb, _, ⟨_, rfl⟩, rfl⟩, _, rfl⟩ := h
    exact .setBitfieldTexts hb
  | setRoleDoc id doc =>
    simp only [perform, bind_eq_ok, pure_eq_ok, Prod.mk.injEq, Prod.exists, editAt_eq_ok] at h
    obtain ⟨_, _, ⟨role, hrole, _, ⟨_, rfl⟩, rfl⟩, _, rfl⟩ := h
    exact .setRoleDoc hrole
  | swapEntities i j =>
    simp only [perform, bind_eq_ok, pure_eq_ok, Prod.mk.injEq] at h
    obtain ⟨entities, hswap, _, rfl⟩ := h
    exact .swapEntities hswap
  | swapEnumerations i j =>
    simp only [perform, bind_eq_ok, pure_eq_ok, Prod.mk.injEq] at h
    obtain ⟨enums, hswap, _, rfl⟩ := h
    exact .swapEnumerations hswap
  | swapBitfields i j =>
    simp only [perform, bind_eq_ok, pure_eq_ok, Prod.mk.injEq] at h
    obtain ⟨bitfields, hswap, _, rfl⟩ := h
    exact .swapBitfields hswap
  | swapEnumItems n i j =>
    simp only [perform, bind_eq_ok, pure_eq_ok, Prod.mk.injEq, Prod.exists, editAt_eq_ok] at h
    obtain ⟨_, _, ⟨e, he, _, ⟨items, hswap, _, rfl⟩, rfl⟩, _, rfl⟩ := h
    exact .swapEnumItems he hswap
  | onEntity ref edit =>
    obtain ⟨i, hi, e, he, e', hedit, rfl⟩ := perform_onEntity_eq_ok.1 h
    exact .onEntity hi he hedit

/-- **What a new entity has and no edit of an entity takes from it, all entities have**, whatever is
done to their document. -/
theorem forall_entities_of_perform {p : Entity → Prop} {edit : Edit} {r : Receipt}
    (hnew : ∀ id name, p (Entity.declare id name))
    (hedit : ∀ ref edit', edit = .onEntity ref edit' →
      ∀ e e' r, p e → e.perform edit' = .ok (r, e') → p e')
    (hd : ∀ e ∈ d.entities, p e) (h : d.perform edit = .ok (r, d')) : ∀ e ∈ d'.entities, p e := by
  cases change_of_perform h with
  | addEntity fresh allocated =>
    rw [List.forall_mem_append, List.forall_mem_singleton]
    exact ⟨hd, hnew _ _⟩
  | swapEntities swapped =>
    intro e he
    exact hd e ((perm_of_swapAt swapped).mem_iff.2 he)
  | onEntity addressed found edited =>
    exact forall_mem_set hd (hedit _ _ rfl _ _ _ (hd _ (List.mem_of_getElem? found)) edited)
  | addEnumeration | addBitfield | addRole | addLanguage | addSourceFile | addEnumItem | addBitItem
  | setEnumDoc | setEnumValue | setBitfieldTexts | setRoleDoc | swapEnumerations | swapBitfields
  | swapEnumItems =>
    -- These write other parts of the document.
    exact hd

/-- What a new entity has and no edit of an entity takes from it, all entities have of a document
that was built. -/
theorem Built.forall_entities {p : Entity → Prop} (hd : d.Built)
    (hnew : ∀ id name, p (Entity.declare id name))
    (hedit : ∀ e e' edit r, p e → e.perform edit = .ok (r, e') → p e') :
    ∀ e ∈ d.entities, p e := by
  induction hd with
  | new => exact fun e he => nomatch he
  | edit _ performed ih =>
    exact forall_entities_of_perform hnew (fun _ edit' _ e e' r => hedit e e' edit' r) ih performed

end Document

end DataModel
