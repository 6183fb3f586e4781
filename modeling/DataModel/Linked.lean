import DataModel.Linking.Grants
import DataModel.Linking.Heights
import DataModel.Linking.Options
import DataModel.Linking.Placement
import DataModel.Linking.Recheck
import DataModel.Linking.Specs

/-!
# Linked documents

Linking runs six passes over a document, each on the result of the one before: placement and names,
fields, heights, the role tree, grants, specifications. The first error ends it, and nothing of the
document is kept. A linked document lists its entities by height, so that an entity comes after all
that it refers to, and the declared roles to which nothing is granted.
-/

namespace DataModel

/-- A document with every name bound. -/
structure LinkedDocument where
  document : Document
  /-- The entities by height, those of equal height in declaration order. -/
  order : List (Handle .entity)
  unusedRoles : List (Handle .role)
  deriving DecidableEq

namespace Document

/-- The entities by height, those of equal height in declaration order. -/
def byHeight (d : Document) : List (Handle .entity) :=
  let height (id : Handle .entity) : Nat := (d.entity? id).elim 0 Entity.height
  (d.entities.map Entity.id).mergeSort fun a b => height a ≤ height b

/-- The passes before the grants. -/
def bindUpToRoles (options : LinkOptions) (d : Document) : Except Error Document := do
  inPass .declarations do
    d.checkPlacement
    if options.recheck then d.checkDeclared
  let d ← inPass .references d.bindFields
  let d ← inPass .heights d.setHeights
  inPass .roles d.roles.check
  return d

/-- **Links a document.** -/
def link (options : LinkOptions) (d : Document) : Except Error LinkedDocument := do
  let d ← d.bindUpToRoles options
  let d ← inPass .rolemaps d.bindGrants
  let unusedRoles := d.unusedRoles
  let d ← inPass .specs d.bindSpecs
  return { document := d, order := d.byHeight, unusedRoles }

end Document

namespace LinkedDocument

variable (l : LinkedDocument)

/-- The entities by height. -/
def entitiesByHeight : List Entity := l.order.filterMap l.document.entity?

/-- The field that a reference points to. -/
def referenceTarget? (f : Field) : Option Field :=
  ((f.reference.bind Reference.binding).map (·.target)).bind l.document.field?

/-- The entity that a `struct` field embeds. -/
def structEntity? (f : Field) : Option Entity :=
  (f.structSource.bind StructSource.entity?).bind l.document.entity?

/-- The enumeration that an `enum` field draws from. -/
def fieldEnumeration? (f : Field) : Option Enumeration :=
  (f.enumeration.bind Link.handle).bind l.document.enumeration?

/-- The bit-field set that a `bitfield` field draws from. -/
def fieldBitfield? (f : Field) : Option Bitfield :=
  (f.bitfield.bind Link.handle).bind l.document.bitfield?

/-- The role was granted the operation of the entity. -/
def permits (entity : String) (op : Operation) (target : Option String) (role : String) : Bool :=
  l.document.permits entity op target role

/-- The name of a role. -/
def roleName? (id : Handle .role) : Option String := (l.document.roles.get? id).map Role.name

/-- The document has a role of the name. -/
def hasRole (name : String) : Bool :=
  l.document.roles.roles.any fun r => Ident.same r.name name

end LinkedDocument

end DataModel
