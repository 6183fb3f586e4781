import DataModel.Bitfield
import DataModel.Entity
import DataModel.Enumeration
import DataModel.RoleTree

/-!
# Documents

A document holds all declarations of one compilation: entities, enumerations, bit-field sets and the
role tree, and two tables that only grow, the output languages and the names of the source files.
The first language is always the default one, the empty text.

Entities, enumerations and bit-field sets share one scope. Every declaration is appended, so a
handle that was once returned stays right, and look-up by name returns the first match.
-/

namespace DataModel

/-- All declarations of one compilation. -/
structure Document where
  entities : List Entity := []
  enums : List Enumeration := []
  bitfields : List Bitfield := []
  roles : RoleTree := RoleTree.initial
  languages : List String := [""]
  sourceFiles : List String := []
  deriving DecidableEq

namespace Document

variable (d : Document)

/-- The names of the shared scope. -/
def topLevelNames : List String :=
  d.entities.map Entity.name ++ d.enums.map Enumeration.name ++ d.bitfields.map Bitfield.name

/-! ### Declaring -/

/-- Declares an entity. -/
def addEntity (name : String) : Except Error (Handle .entity × Document) := do
  Scope.topLevel.checkNew name d.topLevelNames
  let id ← Handle.allocate d.entities.length
  return (id, { d with entities := d.entities ++ [Entity.declare id name] })

/-- Declares an enumeration. -/
def addEnumeration (name : String) : Except Error (Handle .enumeration × Document) := do
  Scope.topLevel.checkNew name d.topLevelNames
  let id ← Handle.allocate d.enums.length
  return (id, { d with enums := d.enums ++ [Enumeration.declare id name] })

/-- Declares a bit-field set. -/
def addBitfield (name : String) : Except Error (Handle .bitfield × Document) := do
  Scope.topLevel.checkNew name d.topLevelNames
  let id ← Handle.allocate d.bitfields.length
  return (id, { d with bitfields := d.bitfields ++ [Bitfield.declare id name] })

/-- Declares a role. -/
def addRole (parent : Option (Handle .role)) (name : String) :
    Except Error (Handle .role × Document) := do
  let (id, roles) ← d.roles.allocate parent name
  return (id, { d with roles })

/-- Enters a text into a table, once, and returns its place. -/
def enter (table : List String) (text : String) : Nat × List String :=
  match table.findIdx? (· == text) with
  | some i => (i, table)
  | none => (table.length, table ++ [text])

/-- Enters an output language. -/
def addLanguage (name : String) : Nat × Document :=
  let (i, languages) := enter d.languages name
  (i, { d with languages })

/-- Enters the name of a source file. -/
def addSourceFile (name : String) : Nat × Document :=
  let (i, sourceFiles) := enter d.sourceFiles name
  (i, { d with sourceFiles })

/-! ### Looking up -/

/-- The entity of a handle. -/
def entity? (id : Handle .entity) : Option Entity := d.entities[id.index]?

/-- The enumeration of a handle. -/
def enumeration? (id : Handle .enumeration) : Option Enumeration := d.enums[id.index]?

/-- The bit-field set of a handle. -/
def bitfield? (id : Handle .bitfield) : Option Bitfield := d.bitfields[id.index]?

/-- The field of a handle. -/
def field? (id : FieldId) : Option Field := (d.entity? id.entity).bind fun e => e.fields[id.index]?

/-- The first entity of a name. -/
def findEntity? (name : String) : Option Entity :=
  d.entities.find? fun e => Ident.same e.name name

/-- The first enumeration of a name. -/
def findEnumeration? (name : String) : Option Enumeration :=
  d.enums.find? fun e => Ident.same e.name name

/-- The first bit-field set of a name. -/
def findBitfield? (name : String) : Option Bitfield :=
  d.bitfields.find? fun b => Ident.same b.name name

/-- The role was granted the operation of the entity. -/
def permits (entity : String) (op : Operation) (target : Option String) (role : String) : Bool :=
  (d.findEntity? entity).any fun e => e.rolemap.permits op target role

/-! ### Comparing -/

/-- The reals among the defaults and the limits of a document. -/
def reals : List Real64 :=
  d.entities.flatMap fun e => e.fields.flatMap fun f =>
    (f.defaultValue.toList ++ f.validations.map Validation.limit).filterMap DefaultValue.real?

/-- A document with the signs of zeros forgotten. -/
def unsignedZeros : Document :=
  { d with
    entities := d.entities.map fun e => { e with fields := e.fields.map Field.unsignedZeros } }

/-- The documents agree in every part, reals as numbers: the two zeros are equal, and a document
that holds a NaN differs from every document, itself included. -/
def eqv (e : Document) : Bool :=
  !d.reals.any Real64.isNaN && decide (d.unsignedZeros = e.unsignedZeros)

end Document

end DataModel
