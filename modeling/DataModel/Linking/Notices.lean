import DataModel.Linked

/-!
# Notices of a link

What a link remarks on its way, whether or not it succeeds in the end: the passes that it completed,
and two warnings. An entity that grants insertion although rows cannot be inserted is noticed while
its grants are bound, so before an error of a later entity. Unused roles are noticed once everything
is bound, and only if the options ask for it.
-/

namespace DataModel

/-- A remark of a link. -/
inductive Notice
  | passCompleted (pass : LinkPass)
  /-- The entity grants insertion but rows cannot be inserted. -/
  | insertUndeclared (entity : String)
  /-- Nothing is granted to the role. -/
  | roleUnused (role : String)
  deriving DecidableEq

namespace Notice

/-- The notice is a warning. -/
def isWarning : Notice → Bool
  | .passCompleted _ => false
  | .insertUndeclared _ | .roleUnused _ => true

/-- The words of a notice. -/
def describe : Notice → String
  | .passCompleted pass => s!"pass {pass.noun} complete"
  | .insertUndeclared entity => s!"insert granted but never declared: entity {entity}"
  | .roleUnused role => s!"role is never granted: role {role}"

end Notice

/-- The entity grants insertion although rows cannot be inserted. -/
def Entity.insertUndeclared (e : Entity) : Bool :=
  !e.insert && e.rolemap.grants.any (·.op == .insert)

namespace Document

/-- The entities whose grants are bound before the first that fails. -/
def grantsBound (d : Document) : List Entity :=
  d.entities.takeWhile fun e => (e.bindGrants d.roles).isOk

/-- The warnings on entities that grant insertion although rows cannot be inserted. -/
def insertWarnings (d : Document) : List Notice :=
  (d.grantsBound.filter Entity.insertUndeclared).map fun e => .insertUndeclared e.name

/-- The passes that a link completes. -/
def passesCompleted (options : LinkOptions) (d : Document) : List LinkPass :=
  match d.link options with
  | .ok _ => Vocabulary.all
  | .error e => Vocabulary.all.takeWhile fun p => (e.context.bind Context.pass) ≠ some p

end Document

/-- The warnings on roles that nothing is granted to. -/
def LinkedDocument.roleWarnings (l : LinkedDocument) : List Notice :=
  (l.unusedRoles.filterMap l.roleName?).map .roleUnused

/-- **The notices of a link**, in the order in which they arise. -/
def Document.notices (options : LinkOptions) (d : Document) : List Notice :=
  let (early, late) := (d.passesCompleted options).span fun p => p ≠ .rolemaps
  let insertions := (d.bindUpToRoles options).toOption.elim [] insertWarnings
  let unused :=
    if options.warnUnusedRoles then
      (d.link options).toOption.elim [] LinkedDocument.roleWarnings
    else []
  early.map .passCompleted ++ insertions ++ late.map .passCompleted ++ unused

end DataModel
