import DataModel.Edit.Field

/-!
# Edits of an entity

What can be declared in an entity, and the edits of its fields, searches and mutations.
-/

namespace DataModel

/-- How an edit addresses a field of an entity. -/
inductive FieldRef
  | position (n : Nat)
  /-- The first field of the name. -/
  | name (name : String)
  deriving DecidableEq

/-- How an edit addresses a mutation of an entity. -/
inductive MutationRef
  | update (n : Nat)
  | delete (n : Nat)
  deriving DecidableEq

/-- An edit of a search. -/
inductive SearchEdit
  | addParam (path : Path) (op : Operator)
  | addOrder (path : Path) (direction : Direction)
  | setAggregate (kind : AggregateKind) (path group : Path)
  | setDistinct (path : String)
  | setLimit (limit : Option UInt64)
  | setOffset (offset : Option UInt64)
  | setDoc (doc : Option String)
  deriving DecidableEq

/-- The search after an edit. -/
def Search.perform (s : Search) : SearchEdit → Search
  | .addParam path op => s.addParam path op
  | .addOrder path direction => s.addOrder path direction
  | .setAggregate kind path group => s.setAggregate kind path group
  | .setDistinct path => s.setDistinct path
  | .setLimit limit => { s with limit }
  | .setOffset offset => { s with offset }
  | .setDoc doc => { s with doc }

/-- An edit of a mutation. -/
inductive MutationEdit
  | addModification (path : Path) (modifier : Modifier)
  | addConstraint (path : Path) (op : Operator)
  | setDoc (doc : Option String)
  deriving DecidableEq

/-- The mutation after an edit. -/
def Mutation.perform (m : Mutation) : MutationEdit → Mutation
  | .addModification path modifier => m.addModification path modifier
  | .addConstraint path op => m.addConstraint path op
  | .setDoc doc => { m with doc }

/-- An edit of an entity. -/
inductive EntityEdit
  | addField (name : String)
  | addSearch (kind : SearchKind) (name : Option String)
  | addUpdate (name : Option String)
  | addDelete (name : Option String)
  | addUnique (fields : List String)
  | grant (op : Operation) (target : Option String) (role : String)
  | onField (field : FieldRef) (edit : FieldEdit)
  | onSearch (n : Nat) (edit : SearchEdit)
  | onMutation (mutation : MutationRef) (edit : MutationEdit)
  /-- Replaces the fields of a unique constraint. -/
  | setUniqueFields (n : Nat) (fields : List Path)
  | setInsert (on : Bool)
  | setDoc (doc : Option String)
  | setHeight (height : Nat)
  | swapFields (i j : Nat)
  deriving DecidableEq

namespace Entity

/-- The place of the field that an edit addresses. -/
def fieldIndex? (e : Entity) : FieldRef → Option Nat
  | .position n => if n < e.fields.length then some n else none
  | .name name => e.fields.findIdx? fun f => Ident.same f.name name

/-- **The entity after an edit.** -/
def perform (e : Entity) : EntityEdit → Except Refusal (Receipt × Entity)
  | .addField name => do
    let (id, e) ← attempt (e.addField name)
    return (.field id, e)
  | .addSearch kind name => do
    return (.position e.searches.length, ← attempt (e.addSearch kind name))
  | .addUpdate name => do
    return (.position e.updates.length, ← attempt (e.addUpdate name))
  | .addDelete name => do
    return (.position e.deletes.length, ← attempt (e.addDelete name))
  | .addUnique fields => do
    let (unique, e) ← attempt (e.addUnique fields)
    return (.key unique.key, e)
  | .grant op target role => do
    let rolemap ← attempt (e.rolemap.grant op target role)
    return (.entries rolemap.grants.length, { e with rolemap })
  | .onField field edit => do
    let i ← orMissing (e.fieldIndex? field) .field
    let ((), fields) ← editAt e.fields i .field fun f => return ((), ← f.perform edit)
    return (.nothing, { e with fields })
  | .onSearch n edit => do
    let ((), searches) ← editAt e.searches n .spec fun s => return ((), s.perform edit)
    return (.nothing, { e with searches })
  | .onMutation (.update n) edit => do
    let ((), updates) ← editAt e.updates n .spec fun m => return ((), m.perform edit)
    return (.nothing, { e with updates })
  | .onMutation (.delete n) edit => do
    let ((), deletes) ← editAt e.deletes n .spec fun m => return ((), m.perform edit)
    return (.nothing, { e with deletes })
  | .setUniqueFields n fields => do
    let ((), uniques) ← editAt e.uniques n .spec fun _ => return ((), ⟨fields⟩)
    return (.nothing, { e with uniques })
  | .setInsert insert => return (.nothing, { e with insert })
  | .setDoc doc => return (.nothing, { e with doc })
  | .setHeight height => return (.nothing, { e with height })
  | .swapFields i j => return (.nothing, { e with fields := ← swapAt e.fields i j })

end Entity

end DataModel
