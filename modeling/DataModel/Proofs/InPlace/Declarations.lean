import DataModel.Edit
import DataModel.Proofs.InPlace.Changes

/-!
# Declarations in place

The declarations of a document as they are carried out: checks in turn, then a request for room in
each list that grows, then the writes (`InPlace.Call.run`).  The answers of the memory are given
from outside, so that a declaration can also be refused after all of its checks.

No declaration writes before its last check and its last request (`InPlace.Call.keeps`).  Where the
memory grants what it is asked for, a declaration is the edit of the same name in place
(`InPlace.Call.run_eq`).  So a refused declaration leaves the document as it was, and the others do
what the edits are known to do (`InPlace.Call.refused_unchanged`).
-/

namespace DataModel

/-! ### Parts -/

/-- The entities of a document. -/
def Document.entitiesPart : Part Document (List Entity) where
  see := Document.entities
  put entities d := { d with entities }
  put_see _ := rfl

/-- The enumerations of a document. -/
def Document.enumsPart : Part Document (List Enumeration) where
  see := Document.enums
  put enums d := { d with enums }
  put_see _ := rfl

/-- The bit-field sets of a document. -/
def Document.bitfieldsPart : Part Document (List Bitfield) where
  see := Document.bitfields
  put bitfields d := { d with bitfields }
  put_see _ := rfl

/-- The role tree of a document. -/
def Document.rolesPart : Part Document RoleTree where
  see := Document.roles
  put roles d := { d with roles }
  put_see _ := rfl

/-- The items of an enumeration. -/
def Enumeration.itemsPart : Part Enumeration (List EnumItem) where
  see := Enumeration.items
  put items e := { e with items }
  put_see _ := rfl

/-- The items of a bit-field set. -/
def Bitfield.itemsPart : Part Bitfield (List BitItem) where
  see := Bitfield.items
  put items b := { b with items }
  put_see _ := rfl

/-- The fields of an entity. -/
def Entity.fieldsPart : Part Entity (List Field) where
  see := Entity.fields
  put fields e := { e with fields }
  put_see _ := rfl

/-- The searches of an entity. -/
def Entity.searchesPart : Part Entity (List Search) where
  see := Entity.searches
  put searches e := { e with searches }
  put_see _ := rfl

/-- The updates of an entity. -/
def Entity.updatesPart : Part Entity (List Mutation) where
  see := Entity.updates
  put updates e := { e with updates }
  put_see _ := rfl

/-- The deletes of an entity. -/
def Entity.deletesPart : Part Entity (List Mutation) where
  see := Entity.deletes
  put deletes e := { e with deletes }
  put_see _ := rfl

/-- The unique constraints of an entity. -/
def Entity.uniquesPart : Part Entity (List Unique) where
  see := Entity.uniques
  put uniques e := { e with uniques }
  put_see _ := rfl

/-- The grants of an entity. -/
def Entity.grantsPart : Part Entity (List Grant) where
  see e := e.rolemap.grants
  put grants e := { e with rolemap := ⟨grants⟩ }
  put_see _ := rfl

/-- The roles of a grant. -/
def Grant.rolesPart : Part Grant (List String) where
  see := Grant.roles
  put roles g := { g with roles }
  put_see _ := rfl

section

variable {α β : Type}

/-- Attempts in a row are an attempt. -/
theorem attempt_bind {r : Except Error α} {f : α → Except Error β} :
    attempt (r >>= f) = attempt r >>= fun a => attempt (f a) := by
  cases r with
  | error e => rfl
  | ok a => rfl

end

namespace InPlace

/-! ### Fields -/

/-- Writes a type, then drops one after the other what belongs to another type. -/
def retype (t : FieldType) : InPlace Field Unit := do
  write fun f => { f with type := t }
  write fun f => if t ≠ .enum then { f with enumeration := none } else f
  write fun f => if t ≠ .bitfield then { f with bitfield := none } else f
  write fun f => if t ≠ .struct then { f with structSource := none } else f
  write fun f => { f with defaultValue := f.defaultValue.filter (·.fits t) }

/-- Gives a field a type that needs no name. -/
def setType (t : FieldType) : InPlace Field Unit := do
  check fun f => if t.needsName then failFlaw (.typeNeedsName f.name t) else .ok ()
  retype t

/-- Embeds an entity in a field, unless the field carries a reference. -/
def setStruct (source : String) : InPlace Field Unit := do
  check fun f => if f.reference.isSome then failFlaw (.structReference f.name) else .ok ()
  retype .struct
  write fun f => { f with structSource := some { field := source } }

/-- Gives a field a reference, unless it embeds an entity. -/
def setReference (targetEntity targetField : String) : InPlace Field Unit := do
  check fun f => if f.type = .struct then failFlaw (.structReference f.name) else .ok ()
  write fun f =>
    { f with reference := some { sourceField := f.name, targetEntity, targetField } }

/-- Gives a field a default that fits. -/
def setDefault (value : DefaultValue) : InPlace Field Unit := do
  check fun f =>
    if value.fits f.type then .ok () else fail (.invalidDefault (.misfit value f.type f.name))
  write fun f => { f with defaultValue := some value }

/-! ### Entities -/

/-- Adds a field. -/
def addField (granted : Bool) (name : String) : InPlace Entity Unit := do
  check fun e => Scope.field.checkNew name (e.fields.map Field.name)
  let id ← check fun e => FieldId.allocate e.id e.fields.length
  onPart Entity.fieldsPart (push granted "field" { id, name })

/-- Adds a search. -/
def addSearch (granted : Bool) (kind : SearchKind) (name : Option String) :
    InPlace (List Search) Unit := do
  check fun l => Entity.checkOptional .search name (l.map Search.name)
  push granted "search" { name, kind }

/-- Adds a mutation to the updates or to the deletes. -/
def addMutation (granted : Bool) (scope : Scope) (kind : MutationKind) (name : Option String) :
    InPlace (List Mutation) Unit := do
  check fun l => Entity.checkOptional scope name (l.map Mutation.name)
  push granted "update" { name, kind }

/-- Adds a unique constraint, which is not looked for before its fields are in order. -/
def addUnique (granted : Bool) (fields : List String) : InPlace Entity Unit := do
  check fun e => if fields.length < 2 then failFlaw (.uniqueTooShort e.name) else .ok ()
  let unique := Unique.ofTexts fields
  check fun _ =>
    unique.repeatedField?.elim (.ok ()) fun field => fail (.duplicateName field .unique)
  check fun e => Scope.unique.checkUnused unique.key (e.uniques.map Unique.key)
  onPart Entity.uniquesPart (push granted "unique" unique)

/-- Grants a role an operation: in the entry at a place, or else in a new one. -/
def grantEntry (granted : Bool) (op : Operation) (target : Option String) (role : String) :
    Option Nat → InPlace (List Grant) Unit
  | some i => onMember i .item do
    check fun g => Scope.grant.checkUnused role g.roles
    onPart Grant.rolesPart (push granted "rolemap" role)
  | none => push granted "rolemap" { op, target, roles := [role] }

/-- Grants a role an operation, in the first entry for the operation on the target. -/
def grant (granted : Bool) (op : Operation) (target : Option String) (role : String) :
    InPlace (List Grant) Unit := do
  let i? ← look fun l => .ok (l.findIdx? (·.covers op target))
  grantEntry granted op target role i?

/-! ### Documents -/

/-- Adds a declaration to the scope that entities, enumerations and bit-field sets share. -/
def addTopLevel {k : Handle.Kind} {τ : Type} (part : Part Document (List τ))
    (declare : Handle k → String → τ) (granted : Bool) (name : String) : InPlace Document Unit := do
  check fun d => Scope.topLevel.checkNew name d.topLevelNames
  let id ← check fun d => Handle.allocate (part.see d).length
  onPart part (push granted k.noun (declare id name))

/-- Adds an item to an enumeration. -/
def addEnumItem (granted : Bool) (name : String) : InPlace Enumeration Unit := do
  check fun e => Scope.enumItem.checkNew name (e.items.map EnumItem.name)
  onPart Enumeration.itemsPart (push granted "enumeration item" { name })

/-- Adds an item to a bit-field set. -/
def addBitItem (granted : Bool) (name : String) (index : Int) : InPlace Bitfield Unit := do
  check fun b => Scope.bitItem.checkNew name (b.items.map BitItem.name)
  check fun b =>
    if 0 ≤ index ∧ index ≤ maxBitIndex then .ok () else failFlaw (.bitIndex index b.name name)
  onPart Bitfield.itemsPart
    (push granted "bitfield item" { name, index := UInt8.ofNat index.toNat })

/-- Writes a role, and then lists it with its parent or with the roots. -/
def writeRole (parent : Option (Handle .role)) (name : String) (id : Handle .role) :
    InPlace RoleTree Unit := do
  write fun t => { t with roles := t.roles ++ [({ name, parent } : Role)] }
  write fun t => t.attach parent id

/-- Adds a role.  Two lists grow: the roles, and the children of the parent or the roots. -/
def addRole (room : Nat → Bool) (parent : Option (Handle .role)) (name : String) :
    InPlace RoleTree Unit := do
  check fun t => Scope.role.checkNew name (t.roles.map Role.name)
  check fun t =>
    if parent.any fun p => t.roles.length ≤ p.index then failFlaw (.unknownParent name) else .ok ()
  let id ← check fun t => Handle.allocate t.roles.length
  reserve (room 0) "role"
  reserve (room 1) "role"
  writeRole parent name id

/-! ### Calls -/

/-- A setter of a field that can be refused. -/
inductive FieldCall
  | setType (type : FieldType)
  | setStruct (source : String)
  | setReference (targetEntity targetField : String)
  | setDefault (value : DefaultValue)

/-- A declaration in an entity. -/
inductive EntityCall
  | addField (name : String)
  | addSearch (kind : SearchKind) (name : Option String)
  | addUpdate (name : Option String)
  | addDelete (name : Option String)
  | addUnique (fields : List String)
  | grant (op : Operation) (target : Option String) (role : String)
  | onField (field : FieldRef) (call : FieldCall)

/-- A declaration that can be refused. -/
inductive Call
  | addEntity (name : String)
  | addEnumeration (name : String)
  | addBitfield (name : String)
  | addRole (parent : Option (Handle .role)) (name : String)
  | addEnumItem (enumeration : Nat) (name : String)
  | addBitItem (bitfield : Nat) (name : String) (index : Int)
  | onEntity (entity : EntityRef) (call : EntityCall)

/-- The edit that the call stands for. -/
def FieldCall.edit : FieldCall → FieldEdit
  | .setType t => .setType t
  | .setStruct source => .setStruct source
  | .setReference targetEntity targetField => .setReference targetEntity targetField
  | .setDefault value => .setDefault value

/-- The edit that the call stands for. -/
def EntityCall.edit : EntityCall → EntityEdit
  | .addField name => .addField name
  | .addSearch kind name => .addSearch kind name
  | .addUpdate name => .addUpdate name
  | .addDelete name => .addDelete name
  | .addUnique fields => .addUnique fields
  | .grant op target role => .grant op target role
  | .onField field call => .onField field call.edit

/-- The edit that the call stands for. -/
def Call.edit : Call → Edit
  | .addEntity name => .addEntity name
  | .addEnumeration name => .addEnumeration name
  | .addBitfield name => .addBitfield name
  | .addRole parent name => .addRole parent name
  | .addEnumItem n name => .addEnumItem n { name }
  | .addBitItem n name index => .addBitItem n name index none []
  | .onEntity entity call => .onEntity entity call.edit

/-- **What the call does to a field.** -/
def FieldCall.run : FieldCall → InPlace Field Unit
  | .setType t => InPlace.setType t
  | .setStruct source => InPlace.setStruct source
  | .setReference targetEntity targetField => InPlace.setReference targetEntity targetField
  | .setDefault value => InPlace.setDefault value

/-- **What the call does to an entity.** -/
def EntityCall.run (granted : Bool) : EntityCall → InPlace Entity Unit
  | .addField name => InPlace.addField granted name
  | .addSearch kind name => onPart Entity.searchesPart (InPlace.addSearch granted kind name)
  | .addUpdate name => onPart Entity.updatesPart (addMutation granted .update .update name)
  | .addDelete name => onPart Entity.deletesPart (addMutation granted .delete .delete name)
  | .addUnique fields => InPlace.addUnique granted fields
  | .grant op target role => onPart Entity.grantsPart (InPlace.grant granted op target role)
  | .onField field call => do
    let i ← look fun e => orMissing (e.fieldIndex? field) .field
    onPart Entity.fieldsPart (onMember i .field call.run)

/-- **What the call does to a document.**  `room` answers its requests, in turn. -/
def Call.run (room : Nat → Bool) : Call → InPlace Document Unit
  | .addEntity name => addTopLevel Document.entitiesPart Entity.declare (room 0) name
  | .addEnumeration name => addTopLevel Document.enumsPart Enumeration.declare (room 0) name
  | .addBitfield name => addTopLevel Document.bitfieldsPart Bitfield.declare (room 0) name
  | .addRole parent name => onPart Document.rolesPart (InPlace.addRole room parent name)
  | .addEnumItem n name =>
    onPart Document.enumsPart (onMember n .enumeration (InPlace.addEnumItem (room 0) name))
  | .addBitItem n name index =>
    onPart Document.bitfieldsPart (onMember n .bitfield (InPlace.addBitItem (room 0) name index))
  | .onEntity entity call => do
    let i ← look fun d => orMissing (d.entityIndex? entity) .entity
    onPart Document.entitiesPart (onMember i .entity (call.run (room 0)))

/-! ### Refused calls -/

theorem writes_retype {t : FieldType} : Writes (retype t) :=
  writes_write.bind fun _ => writes_write.bind fun _ => writes_write.bind fun _ =>
    writes_write.bind fun _ => writes_write

theorem writes_writeRole {parent : Option (Handle .role)} {name : String} {id : Handle .role} :
    Writes (writeRole parent name id) := writes_write.bind fun _ => writes_write

theorem FieldCall.keeps (call : FieldCall) : Keeps call.run := by
  cases call with
  | setType t => exact reads_check.bind_keeps fun _ => writes_retype.keeps
  | setStruct source =>
    exact reads_check.bind_keeps fun _ => (writes_retype.bind fun _ => writes_write).keeps
  | setReference targetEntity targetField =>
    exact reads_check.bind_keeps fun _ => writes_write.keeps
  | setDefault value => exact reads_check.bind_keeps fun _ => writes_write.keeps

theorem keeps_grant {granted : Bool} {op : Operation} {target : Option String} {role : String} :
    Keeps (grant granted op target role) := by
  refine reads_look.bind_keeps fun i? => ?_
  cases i? with
  | none => exact keeps_push
  | some i => exact (reads_check.bind_keeps fun _ => keeps_push.onPart).onMember

theorem EntityCall.keeps (granted : Bool) (call : EntityCall) : Keeps (call.run granted) := by
  cases call with
  | addField name =>
    exact reads_check.bind_keeps fun _ => reads_check.bind_keeps fun _ => keeps_push.onPart
  | addSearch kind name => exact (reads_check.bind_keeps fun _ => keeps_push).onPart
  | addUpdate name | addDelete name => exact (reads_check.bind_keeps fun _ => keeps_push).onPart
  | addUnique fields =>
    exact reads_check.bind_keeps fun _ => reads_check.bind_keeps fun _ =>
      reads_check.bind_keeps fun _ => keeps_push.onPart
  | grant op target role => exact keeps_grant.onPart
  | onField field call => exact reads_look.bind_keeps fun _ => call.keeps.onMember.onPart

/-- **No call writes before its last check and its last request.** -/
theorem Call.keeps (room : Nat → Bool) (call : Call) : Keeps (call.run room) := by
  cases call with
  | addEntity name | addEnumeration name | addBitfield name =>
    exact reads_check.bind_keeps fun _ => reads_check.bind_keeps fun _ => keeps_push.onPart
  | addRole parent name =>
    exact (reads_check.bind_keeps fun _ => reads_check.bind_keeps fun _ =>
      reads_check.bind_keeps fun _ => reads_reserve.bind_keeps fun _ =>
        reads_reserve.bind_keeps fun _ => writes_writeRole.keeps).onPart
  | addEnumItem n name => exact (reads_check.bind_keeps fun _ => keeps_push.onPart).onMember.onPart
  | addBitItem n name index =>
    exact (reads_check.bind_keeps fun _ => reads_check.bind_keeps fun _ =>
      keeps_push.onPart).onMember.onPart
  | onEntity entity call =>
    exact reads_look.bind_keeps fun _ => (call.keeps (room 0)).onMember.onPart

/-! ### Granted calls -/

/-- Dropping in turn what belongs to another type is dropping all of it. -/
theorem retype_eq {t : FieldType} : retype t = write (·.retype t) := by
  simp only [retype, write_bind_write]
  congr 1
  funext f
  cases t <;> rfl

theorem addTopLevel_eq {k : Handle.Kind} {τ : Type} {part : Part Document (List τ)}
    {declare : Handle k → String → τ} {name : String} :
    addTopLevel part declare true name = atomic fun d => attempt do
      Scope.topLevel.checkNew name d.topLevelNames
      let id ← Handle.allocate (part.see d).length
      return part.put (part.see d ++ [declare id name]) d := by
  simp only [addTopLevel, push_eq_atomic, onPart_atomic, check_bind_atomic]
  refine atomic_congr fun d => ?_
  simp only [attempt_bind]
  rfl

theorem FieldCall.run_eq (call : FieldCall) : call.run = atomic fun f => f.perform call.edit := by
  cases call with
  | setType t =>
    simp only [run, InPlace.setType, retype_eq, write_eq_atomic, check_bind_atomic]
    refine atomic_congr fun f => ?_
    simp only [edit, Field.perform, Field.setType]
    split_ifs <;> rfl
  | setStruct source =>
    simp only [run, InPlace.setStruct, retype_eq, write_bind_write]
    simp only [write_eq_atomic, check_bind_atomic]
    refine atomic_congr fun f => ?_
    simp only [edit, Field.perform, Field.setStruct]
    split_ifs <;> rfl
  | setReference targetEntity targetField =>
    simp only [run, InPlace.setReference, write_eq_atomic, check_bind_atomic]
    refine atomic_congr fun f => ?_
    simp only [edit, Field.perform, Field.setReference]
    split_ifs <;> rfl
  | setDefault value =>
    simp only [run, InPlace.setDefault, write_eq_atomic, check_bind_atomic]
    refine atomic_congr fun f => ?_
    simp only [edit, Field.perform, Field.setDefault]
    split_ifs <;> rfl

/-- The grants with one more role: in the entry at a place, or else in a new one. -/
def withRole (op : Operation) (target : Option String) (role : String) (grants : List Grant) :
    Option Nat → Except Refusal (List Grant)
  | some i => do
    let g ← orMissing grants[i]? .item
    attempt (Scope.grant.checkUnused role g.roles)
    return grants.set i { g with roles := g.roles ++ [role] }
  | none => .ok (grants ++ [{ op, target, roles := [role] }])

/-- Granting goes to the first entry for the operation on the target. -/
theorem attempt_grantIn {op : Operation} {target : Option String} {role : String}
    {grants : List Grant} :
    attempt (Rolemap.grantIn op target role grants) =
      withRole op target role grants (grants.findIdx? (·.covers op target)) := by
  induction grants with
  | nil => rfl
  | cons g grants ih =>
    rw [Rolemap.grantIn, List.findIdx?_cons]
    by_cases hcovers : g.covers op target = true
    · rw [if_pos hcovers, if_pos hcovers, attempt_bind]
      rfl
    · rw [if_neg hcovers, if_neg hcovers, attempt_bind, ih]
      cases grants.findIdx? (·.covers op target) with
      | none => rfl
      | some i =>
        simp only [withRole, Option.map_some, List.getElem?_cons_succ, List.set_cons_succ,
          bind_assoc, pure_bind]
        rfl

theorem grantEntry_eq {op : Operation} {target : Option String} {role : String} (i? : Option Nat) :
    grantEntry true op target role i? = atomic fun l => withRole op target role l i? := by
  cases i? with
  | none => rfl
  | some i =>
    simp only [grantEntry, push_eq_atomic, onPart_atomic, check_bind_atomic, onMember_atomic]
    refine atomic_congr fun l => ?_
    simp only [withRole, map_eq_pure_bind, bind_assoc]
    rfl

theorem grant_eq {op : Operation} {target : Option String} {role : String} :
    grant true op target role = atomic fun l => attempt (Rolemap.grantIn op target role l) := by
  simp only [grant, grantEntry_eq, look_bind_atomic, attempt_grantIn]
  rfl

theorem EntityCall.run_eq (call : EntityCall) :
    call.run true = atomic fun e => Prod.snd <$> e.perform call.edit := by
  cases call with
  | addField name =>
    simp only [run, InPlace.addField, push_eq_atomic, onPart_atomic, check_bind_atomic]
    refine atomic_congr fun e => ?_
    simp only [edit, Entity.perform, Entity.addField, attempt_bind, map_bind, bind_assoc]
    rfl
  | addSearch kind name =>
    simp only [run, InPlace.addSearch, push_eq_atomic, onPart_atomic, check_bind_atomic]
    refine atomic_congr fun e => ?_
    simp only [edit, Entity.perform, Entity.addSearch, attempt_bind, map_bind, bind_assoc]
    rfl
  | addUpdate name | addDelete name =>
    simp only [run, addMutation, push_eq_atomic, onPart_atomic, check_bind_atomic]
    refine atomic_congr fun e => ?_
    simp only [edit, Entity.perform, Entity.addUpdate, Entity.addDelete, attempt_bind, map_bind,
      bind_assoc]
    rfl
  | addUnique fields =>
    simp only [run, InPlace.addUnique, push_eq_atomic, onPart_atomic, check_bind_atomic]
    refine atomic_congr fun e => ?_
    simp only [edit, Entity.perform, Entity.addUnique]
    by_cases hshort : fields.length < 2
    · rw [if_pos hshort, if_pos hshort]
      rfl
    · rw [if_neg hshort, if_neg hshort]
      cases (Unique.ofTexts fields).repeatedField? with
      | some field => rfl
      | none =>
        simp only [attempt_bind, map_bind, bind_assoc]
        rfl
  | grant op target role =>
    simp only [run, grant_eq, onPart_atomic]
    refine atomic_congr fun e => ?_
    simp only [edit, Entity.perform, Rolemap.grant, attempt_bind, map_eq_pure_bind, bind_assoc]
    rfl
  | onField field call =>
    simp only [run, call.run_eq, onMember_atomic, onPart_atomic, look_bind_atomic]
    refine atomic_congr fun e => ?_
    simp only [edit, Entity.perform, editAt, map_eq_pure_bind, bind_assoc, pure_bind]
    rfl

theorem addEnumItem_eq {name : String} :
    addEnumItem true name = atomic fun e => attempt (e.addItem { name }) := by
  simp only [addEnumItem, push_eq_atomic, onPart_atomic, check_bind_atomic]
  refine atomic_congr fun e => ?_
  simp only [Enumeration.addItem, attempt_bind]
  rfl

theorem addBitItem_eq {name : String} {index : Int} :
    addBitItem true name index =
      atomic fun b => Prod.snd <$> attempt (b.addItem name index none []) := by
  simp only [addBitItem, push_eq_atomic, onPart_atomic, check_bind_atomic]
  refine atomic_congr fun b => ?_
  simp only [Bitfield.addItem, Bitfield.newItem, attempt_bind, bind_assoc, map_bind]
  congr 1
  funext _
  split_ifs <;> rfl

theorem addRole_eq {parent : Option (Handle .role)} {name : String} :
    addRole (fun _ => true) parent name =
      atomic fun t => Prod.snd <$> attempt (t.allocate parent name) := by
  simp only [addRole, writeRole, reserve_bind, write_bind_write]
  simp only [write_eq_atomic, check_bind_atomic]
  refine atomic_congr fun t => ?_
  simp only [RoleTree.allocate, attempt_bind, map_bind]
  congr 1
  funext _
  split_ifs with hparent
  · rfl
  · simp only [attempt_bind, map_bind]
    rfl

/-- **Where the memory grants what it is asked for, a call is an edit.** -/
theorem Call.run_eq (call : Call) :
    call.run (fun _ => true) = atomic fun d => Prod.snd <$> d.perform call.edit := by
  cases call with
  | addEntity name | addEnumeration name | addBitfield name =>
    simp only [run, addTopLevel_eq]
    refine atomic_congr fun d => ?_
    simp only [edit, Document.perform, Document.addEntity, Document.addEnumeration,
      Document.addBitfield, attempt_bind, map_bind, bind_assoc]
    rfl
  | addRole parent name =>
    simp only [run, addRole_eq, onPart_atomic]
    refine atomic_congr fun d => ?_
    simp only [edit, Document.perform, Document.addRole, attempt_bind, map_eq_pure_bind,
      bind_assoc, pure_bind]
    rfl
  | addEnumItem n name =>
    simp only [run, addEnumItem_eq, onMember_atomic, onPart_atomic]
    refine atomic_congr fun d => ?_
    simp only [edit, Document.perform, editAt, map_eq_pure_bind, bind_assoc, pure_bind]
    rfl
  | addBitItem n name index =>
    simp only [run, addBitItem_eq, onMember_atomic, onPart_atomic]
    refine atomic_congr fun d => ?_
    simp only [edit, Document.perform, editAt, map_eq_pure_bind, bind_assoc, pure_bind]
    rfl
  | onEntity entity call =>
    simp only [run, call.run_eq, onMember_atomic, onPart_atomic, look_bind_atomic]
    refine atomic_congr fun d => ?_
    simp only [edit, Document.perform, editAt, map_eq_pure_bind, bind_assoc, pure_bind]
    rfl

/-- **A refused declaration leaves the document as it was**, whether it is refused by a check or by
the memory.  The declarations are the edits that they stand for, where the memory does not refuse
them. -/
theorem Call.refused_unchanged (call : Call) (room : Nat → Bool) (d : Document) :
    (∀ r d', (call.run room).run d = (.error r, d') → d' = d) ∧
      (call.run fun _ => true).run d =
        match d.perform call.edit with
        | .ok (_, d') => (.ok (), d')
        | .error r => (.error r, d) := by
  refine ⟨call.keeps room d, ?_⟩
  rw [call.run_eq, atomic]
  cases hperform : d.perform call.edit with
  | error r => simp only [hperform]; rfl
  | ok result => simp only [hperform]; rfl

/-- Memory that has room for a clerk among the roles, but not among the children of its parent,
leaves the roles as they were. -/
theorem Call.refused_unchanged_clerk :
    ((Call.addRole (some ⟨0, by decide⟩) "clerk").run fun n => n == 0).run {} =
      (.error (.error { cause := .exhausted "role" }), {}) :=
  run_eq_of_error (refused_unchanged (.addRole (some ⟨0, by decide⟩) "clerk") (· == 0) {}).1
    (by decide +kernel)

end InPlace

end DataModel
