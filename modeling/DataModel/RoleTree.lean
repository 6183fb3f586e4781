import DataModel.Error

/-!
# The role tree

Roles are kept in one list, in the order of their handles, and each records its parent and its
children. A tree that is built by `RoleTree.allocate` is a forest under its roots. One that was read
from a snapshot may be anything, and `RoleTree.checkForest` says whether it is a forest: it visits
the roles from the roots on, each before its children, and every visit uses up one role not seen
before, which is why it ends on any list of children.

Three roles are always present at the root: `all`, `none` and `default`.
-/

namespace DataModel

/-- A role. -/
structure Role where
  name : String
  doc : Option String := none
  parent : Option (Handle .role) := none
  children : List (Handle .role) := []
  /-- The role is one of the three that are always present. -/
  implicit : Bool := false
  deriving DecidableEq

/-- The roles of a document. -/
structure RoleTree where
  roles : List Role
  roots : List (Handle .role)
  deriving DecidableEq

namespace RoleTree

/-- The names of the roles that are always present. -/
def implicitNames : List String := ["all", "none", "default"]

/-- The handles of the first `n` positions. -/
def handles (n : Nat) : List (Handle .role) := (List.range n).filterMap Handle.ofIndex?

/-- The tree with the implicit roles alone. -/
def initial : RoleTree where
  roles := implicitNames.map fun name => { name, implicit := true }
  roots := handles implicitNames.length

variable (t : RoleTree)

/-- The role of a handle. -/
def get? (id : Handle .role) : Option Role := t.roles[id.index]?

/-- The first role of a name. -/
def find? (name : String) : Option (Handle .role) :=
  (t.roles.findIdx? fun r => Ident.same r.name name).bind Handle.ofIndex?

/-- Adds a role to the children of its parent, or to the roots. -/
def attach (parent : Option (Handle .role)) (id : Handle .role) : RoleTree :=
  match parent with
  | none => { t with roots := t.roots ++ [id] }
  | some p =>
    { t with roles := t.roles.modify p.index fun r => { r with children := r.children ++ [id] } }

/-- Declares a role under a parent or at the root. Its name has to be new in the whole tree. -/
def allocate (parent : Option (Handle .role)) (name : String) :
    Except Error (Handle .role × RoleTree) := do
  Scope.role.checkNew name (t.roles.map Role.name)
  if parent.any fun p => t.roles.length ≤ p.index then failFlaw (.unknownParent name)
  let id ← Handle.allocate t.roles.length
  let grown := { t with roles := t.roles ++ [({ name, parent } : Role)] }
  return (id, grown.attach parent id)

/-- The parents on the way from `current` to a root, at most `steps` of them. -/
def climb : (steps : Nat) → (current : Option (Handle .role)) → List (Handle .role)
  | 0, _ | _, none => []
  | steps + 1, some p => p :: climb steps ((t.get? p).bind Role.parent)

/-- **The ancestors of a role, nearest first.** In a forest no path to a root is longer than the
number of roles. -/
def ancestors (id : Handle .role) : List (Handle .role) :=
  t.climb t.roles.length ((t.get? id).bind Role.parent)

/-- What is wrong at a role, placed at the role. -/
def broken (id : Handle .role) (flaw : ForestFlaw) : Error :=
  let name := (t.get? id).elim "?" Role.name
  { cause := .invalidDeclaration (.brokenRole name flaw), context := some { spec := some name } }

/-- Visits the roles that are still `pending`, each with the role that lists it, and returns the
roles that were not reached. -/
def visit (unreached : List (Handle .role)) :
    (pending : List (Option (Handle .role) × Handle .role)) → Except Error (List (Handle .role))
  | [] => .ok unreached
  | (lister, id) :: pending =>
    match t.get? id with
    | none => failFlaw (.unknownRoleListed id.index)
    | some role =>
      if role.parent ≠ lister then .error (t.broken id .wrongParent)
      else if id ∈ unreached then
        visit (unreached.erase id) (role.children.map (some id, ·) ++ pending)
      else .error (t.broken id .repeated)
termination_by unreached.length
decreasing_by
  rw [List.length_erase_of_mem (by assumption)]
  have := List.length_pos_of_mem (by assumption : id ∈ unreached)
  omega

/-- **Checks that parents and children describe one forest**: a root has no parent, a listed child
names the role that lists it, and every role is reached from the roots once. A role without a handle
is reached by none. -/
def checkForest : Except Error Unit := do
  match ← t.visit (handles t.roles.length) (t.roots.map (none, ·)) with
  | [] => if Handle.bound < t.roles.length then fail (.exhausted Handle.Kind.role.noun)
  | id :: _ => throw (t.broken id .detached)

/-- The number of declared roles met from the `pending` ones on, when the children of a role are
followed at the first meeting only. -/
def release (unopened : List (Handle .role)) : (pending : List (Handle .role)) → Nat
  | [] => 0
  | id :: pending =>
    match t.get? id with
    | none => release unopened pending
    | some role =>
      (if role.implicit then 0 else 1) +
        if id ∈ unopened then release (unopened.erase id) (role.children ++ pending)
        else release unopened pending
termination_by pending => (unopened.length, pending.length)
decreasing_by
  · exact Prod.Lex.right _ (Nat.lt_succ_self _)
  · refine Prod.Lex.left _ _ ?_
    rw [List.length_erase_of_mem (by assumption)]
    have := List.length_pos_of_mem (by assumption : id ∈ unopened)
    omega
  · exact Prod.Lex.right _ (Nat.lt_succ_self _)

/-- The number of declared roles released with the tree. -/
def released : Nat := t.release (handles t.roles.length) t.roots

end RoleTree

end DataModel
