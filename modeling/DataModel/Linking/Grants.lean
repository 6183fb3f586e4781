import DataModel.Linking.Fields

/-!
# Binding grants

The role tree has to be a forest that holds the implicit roles, with names that no two roles share.
Every granted role name then stands for one role, and the target of a grant for one specification of
the kind that the operation performs, or for a field where the operation hides one. A declared role
that no grant names is *unused*.
-/

namespace DataModel

namespace RoleTree

/-- Admits the names of some roles: only an implicit role may be reserved, and no name repeats.
`seen` holds the names before, folded. -/
def checkNames (seen : List String) : List Role → Except Error Unit
  | [] => .ok ()
  | r :: roles =>
    if !r.implicit && Ident.isReserved r.name then
      placed { spec := some r.name } (fail (.reservedName r.name))
    else if seen.contains (Ident.fold r.name) then
      placed { spec := some r.name } (fail (.duplicateName r.name .role))
    else checkNames (Ident.fold r.name :: seen) roles

/-- The role of a name is there, implicit and a root. -/
def hasImplicit (t : RoleTree) (name : String) : Bool :=
  ((t.find? name).bind t.get?).any fun r => r.implicit && r.parent.isNone

/-- **Admits a role tree.** -/
def check (t : RoleTree) : Except Error Unit := do
  implicitNames.forM fun name =>
    if t.hasImplicit name then .ok () else failFlaw (.implicitRoleMissing name)
  t.checkForest
  checkNames [] t.roles

/-- The declared roles that are not among the given ones. -/
def unused (t : RoleTree) (granted : List (Handle .role)) : List (Handle .role) :=
  (handles t.roles.length).filter fun id =>
    (t.get? id).any (!·.implicit) && !granted.contains id

end RoleTree

/-- The place of a grant's target in its list. -/
def Entity.target? (e : Entity) (op : Operation) (target : String) : Except Error Nat :=
  let named (name : Option String) : Bool := name.any (Ident.same · target)
  let unknown : Cause := .unknownSpec e.name target
  match op, op.searchKind? with
  | _, some kind => orFail (e.searches.findIdx? fun s => s.kind == kind && named s.name) unknown
  | .update, none => orFail (e.updates.findIdx? fun u => named u.name) unknown
  | .delete, none => orFail (e.deletes.findIdx? fun u => named u.name) unknown
  | .noExport, none =>
    orFail (e.fields.findIdx? fun f => Ident.same f.name target) (.unknownField e.name target)
  | _, none => fail unknown

namespace Grant

/-- What messages call the grant. -/
def label (g : Grant) : String :=
  match g.target with
  | some target => g.op.noun ++ " " ++ target
  | none => g.op.noun

/-- The place of the target, which the grant has exactly when its operation takes one. -/
def bindTarget (e : Entity) (g : Grant) : Except Error (Option Nat) :=
  match g.op.takesTarget, g.target with
  | false, none => .ok none
  | false, some target => failFlaw (.targetNotAllowed g.op target)
  | true, none => failFlaw (.targetMissing g.op)
  | true, some target => some <$> e.target? g.op target

/-- The grant with its roles and its target bound. -/
def bind (t : RoleTree) (e : Entity) (g : Grant) : Except Error Grant := do
  let boundRoles ← g.roles.mapM fun name => orFail (t.find? name) (.unknownRole name)
  let boundTarget ← g.bindTarget e
  return { g with boundRoles, boundTarget }

end Grant

/-- The entity with its grants bound. -/
def Entity.bindGrants (t : RoleTree) (e : Entity) : Except Error Entity := do
  let grants ← e.rolemap.grants.mapM fun g =>
    placed { entity := some e.name, spec := some g.label } (g.bind t e)
  return { e with rolemap := ⟨grants⟩ }

namespace Document

/-- **The document with its grants bound.** -/
def bindGrants (d : Document) : Except Error Document := do
  let entities ← d.entities.mapM fun e => e.bindGrants d.roles
  return { d with entities }

/-- The roles that some bound grant names. -/
def grantedRoles (d : Document) : List (Handle .role) :=
  d.entities.flatMap fun e => e.rolemap.grants.flatMap Grant.boundRoles

/-- The declared roles that no bound grant names, in the order of their handles. -/
def unusedRoles (d : Document) : List (Handle .role) := d.roles.unused d.grantedRoles

end Document

end DataModel
