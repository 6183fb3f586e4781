import DataModel.Error

/-!
# Grants

The roles that may perform the operations of an entity. A grant is explicit: it covers one
operation, on one target where the operation takes one, and implies nothing for other operations or
for other roles of the role tree. The one shorthand is the operation `all`.
-/

namespace DataModel

/-- The roles granted one operation, on one named specification or field where the operation takes
one. -/
structure Grant where
  op : Operation
  target : Option String
  roles : List String
  /-- The roles that the names stand for; empty before linking. -/
  boundRoles : List (Handle .role) := []
  /-- The place of the target in the list that it belongs to; absent before linking. -/
  boundTarget : Option Nat := none
  deriving DecidableEq

namespace Grant

/-- Two targets are the same: both absent, or the same name. -/
def sameTarget : Option String → Option String → Bool
  | none, none => true
  | some a, some b => Ident.same a b
  | _, _ => false

/-- The grant covers exactly this operation on this target. -/
def covers (g : Grant) (op : Operation) (target : Option String) : Bool :=
  g.op == op && sameTarget g.target target

/-- The role is among those granted. -/
def names (g : Grant) (role : String) : Bool := g.roles.any (Ident.same · role)

end Grant

/-- The grants of one entity, in the order of their first role. -/
structure Rolemap where
  grants : List Grant := []
  deriving DecidableEq

namespace Rolemap

/-- Grants a role an operation. A first grant of the operation on the target opens an entry; a later
one joins it, and may not repeat a role. -/
def grantIn (op : Operation) (target : Option String) (role : String) :
    List Grant → Except Error (List Grant)
  | [] => .ok [{ op, target, roles := [role] }]
  | g :: gs =>
    if g.covers op target then do
      Scope.grant.checkUnused role g.roles
      return { g with roles := g.roles ++ [role] } :: gs
    else return g :: (← grantIn op target role gs)

/-- Grants a role an operation, on a target if one is given. -/
def grant (m : Rolemap) (op : Operation) (target : Option String) (role : String) :
    Except Error Rolemap := do
  return ⟨← grantIn op target role m.grants⟩

/-- The role was granted the operation on the target, by name or through the operation `all`. -/
def permits (m : Rolemap) (op : Operation) (target : Option String) (role : String) : Bool :=
  m.grants.any fun g => (g.covers op target || g.op == .all) && g.names role

end Rolemap

end DataModel
