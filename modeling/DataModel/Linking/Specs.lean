import DataModel.Linking.Paths

/-!
# Binding specifications

The paths of every search, mutation and unique constraint are linked, and the operators and
modifiers are checked against the types at their ends: substring matching and appending need text,
bitwise comparison an integral type, and counting up or down a number. A search returns one row at
most when it asks for the value of a key.
-/

namespace DataModel

/-- The operator compares values of the type. -/
def Operator.applies : Operator → FieldType → Bool
  | .like, t => t.isTextual
  | .and, t | .or, t => t.isIntegral
  | _, _ => true

/-- The modifier changes values of the type. -/
def Modifier.applies : Modifier → FieldType → Bool
  | .inc, t | .dec, t => t.isIntegral || t == .real
  | .concat, t => t.isTextual
  | .set, _ | .strSet, _ => true

variable (d : Document) (owner : Entity)

/-- The linked path of a value that is compared by an operator. -/
def Path.linkCompared (p : Path) (op : Operator) : Except Error Path := do
  let linked ← p.link d owner .value
  match linked.terminalType? d with
  | some t => if !op.applies t then failFlaw (.operatorMismatch op t p.dotted)
  | none => pure ()
  return linked

/-- The linked path of a field that is modified. -/
def Path.linkModified (p : Path) (modifier : Modifier) : Except Error Path := do
  let linked ← p.linkLocal d owner
  match linked.terminalType? d with
  | some t => if !modifier.applies t then failFlaw (.modifierMismatch modifier t p.dotted)
  | none => pure ()
  return linked

namespace Search

/-- A linked parameter that asks for the value of a key of the searched entity. -/
def asksForKey (p : SearchParam) : Bool :=
  p.path.isLocal && (p.op == .eq || p.op == .strEq) &&
    (p.path.chain.head?.bind d.field?).any Field.isUniqueKey

/-- The search with its paths linked. -/
def link (s : Search) : Except Error Search := do
  let params ← s.params.mapM fun p => return { p with path := ← p.path.linkCompared d owner p.op }
  let orders ← s.orders.mapM fun o => return { o with path := ← o.path.link d owner .value }
  let aggregate ← s.aggregate.mapM fun a => return { a with
    path := ← a.path.link d owner .value
    group := ← a.group.link d owner .value }
  let distinct ← s.distinct.mapM fun x => return { x with path := ← x.path.link d owner .entity }
  return { s with
    params, orders, aggregate, distinct
    returnsUnique := s.kind == .search && params.any (asksForKey d) }

end Search

/-- The mutation with its paths linked. -/
def Mutation.link (m : Mutation) : Except Error Mutation := do
  if m.kind = .delete ∧ !m.modify.isEmpty then failFlaw .deleteModifies
  let modify ← m.modify.mapM fun f =>
    return { f with path := ← f.path.linkModified d owner f.modifier }
  let constrain ← m.constrain.mapM fun c =>
    return { c with path := ← c.path.linkCompared d owner c.op }
  return { m with modify, constrain }

/-- The unique constraint with its paths linked. -/
def Unique.link (u : Unique) : Except Error Unique := do
  return ⟨← u.fields.mapM fun p => p.linkLocal d owner⟩

/-- The entity with its specifications linked. -/
def Entity.bindSpecs (e : Entity) : Except Error Entity := do
  let within {α : Type} (label : String) (r : Except Error α) : Except Error α :=
    placed { entity := some e.name, spec := some label } r
  let searches ← e.searches.mapM fun s => within s.label (s.link d e)
  let updates ← e.updates.mapM fun u => within u.label (u.link d e)
  let deletes ← e.deletes.mapM fun u => within u.label (u.link d e)
  let uniques ← e.uniques.mapM fun u => within u.key (u.link d e)
  return { e with searches, updates, deletes, uniques }

/-- **The document with its specifications linked.** -/
def Document.bindSpecs : Except Error Document := do
  let entities ← d.entities.mapM fun e => e.bindSpecs d
  return { d with entities }

end DataModel
