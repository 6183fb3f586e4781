import DataModel.Error.Flaw

/-!
# Errors

An error is a cause and, where it is known, the place: the link pass and the names of the entity,
field and specification that were being processed. Causes belong to one of three phases. An error
that a link pass raises belongs to linking whatever its cause, because linking raises again some of
the causes of allocation, and by then the document is gone.
-/

namespace DataModel

/-- The stage that an error belongs to. -/
inductive Phase
  /-- Declarations are being made; the document stays usable. -/
  | allocation
  /-- The document is being linked and is discarded. -/
  | link
  /-- Snapshots and files. -/
  | runtime
  deriving DecidableEq

instance : Vocabulary Phase where
  all := [.allocation, .link, .runtime]
  word
    | .allocation => "Allocation"
    | .link => "Link"
    | .runtime => "Runtime"
  mem_all p := by cases p <;> decide
  nodup_words := by decide

/-- The passes of a link, in the order in which they run. -/
inductive LinkPass
  | declarations
  | references
  | heights
  | roles
  | rolemaps
  | specs
  deriving DecidableEq

instance : Vocabulary LinkPass where
  all := [.declarations, .references, .heights, .roles, .rolemaps, .specs]
  word
    | .declarations => "Declarations"
    | .references => "References"
    | .heights => "Heights"
    | .roles => "Roles"
    | .rolemaps => "Rolemaps"
    | .specs => "Specs"
  mem_all p := by cases p <;> decide
  nodup_words := by decide

/-- The pass as messages write it. -/
def LinkPass.noun (p : LinkPass) : String := Ident.fold (Vocabulary.word p)

/-- What went wrong. -/
inductive Cause
  | reservedName (name : String)
  | duplicateName (name : String) (scope : Scope)
  /-- A position no longer fits in a handle. -/
  | exhausted (what : String)
  | invalidDeclaration (flaw : Flaw)
  | invalidDefault (flaw : DefaultFlaw)
  | unknownTargetEntity (field entity : String)
  | unknownTargetField (entity field : String)
  /-- The field that a reference points to cannot be a key for it. -/
  | invalidTarget (source target : String)
  /-- The references lead from an entity back to itself; the names begin and end with it. -/
  | referenceCycle (names : List String)
  | unknownRole (role : String)
  | unknownField (entity field : String)
  | unknownSpec (entity spec : String)
  | unknownEnumeration (name : String)
  | unknownBitfield (name : String)
  /-- Two items of one set share a value. -/
  | duplicateValue (item : String) (value : Int64)
  | multipleRowIds (entity : String)
  | serialization (flaw : SnapshotFlaw)
  | file (flaw : FileFlaw)
  deriving DecidableEq

namespace Cause

/-- The message of a cause. -/
def message : Cause → String
  | reservedName name => s!"reserved name: {name}"
  | duplicateName name scope => s!"duplicate name: {name} ({scope.describe})"
  | exhausted what => s!"storage exhausted while allocating {what}"
  | invalidDeclaration flaw => s!"invalid declaration: {flaw.describe}"
  | invalidDefault flaw => s!"invalid default: {flaw.describe}"
  | unknownTargetEntity field entity => s!"unknown target entity: {entity} (referenced by {field})"
  | unknownTargetField entity field => s!"unknown target field: {qualified entity field}"
  | invalidTarget source target => s!"invalid reference target: {source} -> {target}"
  | referenceCycle names => "reference cycle: " ++ " -> ".intercalate names
  | unknownRole role => s!"unknown role: {role}"
  | unknownField entity field => s!"unknown field: {qualified entity field}"
  | unknownSpec entity spec => s!"unknown spec: {qualified entity spec}"
  | unknownEnumeration name => s!"unknown enumeration: {name}"
  | unknownBitfield name => s!"unknown bitfield: {name}"
  | duplicateValue item value => s!"duplicate value {value.toInt} for {item}"
  | multipleRowIds entity => s!"multiple row identifiers in {entity}"
  | serialization flaw => s!"serialization error: {flaw.describe}"
  | file flaw => s!"I/O error: {flaw.describe}"

/-- The phase in which a cause first arises. -/
def phase : Cause → Phase
  | reservedName _ | duplicateName _ _ | exhausted _ | invalidDeclaration _ | invalidDefault _ =>
    .allocation
  | serialization _ | file _ => .runtime
  | _ => .link

end Cause

/-- Where an error arose, as far as it is known. -/
structure Context where
  pass : Option LinkPass := none
  /-- The entity, enumeration or bit-field set. -/
  entity : Option String := none
  field : Option String := none
  /-- The search, mutation, constraint, grant or role. -/
  spec : Option String := none
  deriving DecidableEq

/-- The known parts of a context, from the pass inwards. -/
def Context.describe (c : Context) : String :=
  ", ".intercalate
    ((c.pass.map fun p => s!"pass {p.noun}").toList ++
      (c.entity.map fun e => s!"entity {e}").toList ++
      (c.field.map fun f => s!"field {f}").toList ++
      (c.spec.map fun s => s!"spec {s}").toList)

/-- A cause and the place where it arose. -/
structure Error where
  cause : Cause
  context : Option Context := none
  deriving DecidableEq

namespace Error

/-- The error with its place replaced. -/
def withContext (e : Error) (c : Context) : Error := { e with context := some c }

/-- The error as raised by a pass; the rest of its place is kept. -/
def inPass (e : Error) (p : LinkPass) : Error :=
  { e with context := some { e.context.getD {} with pass := some p } }

/-- The message without the place. -/
def message (e : Error) : String := e.cause.message

/-- The message followed by the place. -/
def describe (e : Error) : String :=
  match e.context with
  | some c => s!"{e.message} ({c.describe})"
  | none => e.message

/-- The phase of an error: linking, if a pass raised it, and else that of its cause. -/
def phase (e : Error) : Phase :=
  if (e.context.bind Context.pass).isSome then .link else e.cause.phase

end Error

/-- Fails with a cause and no place. -/
def fail {α : Type} (cause : Cause) : Except Error α := .error { cause }

/-- Fails on a flaw of a declaration. -/
def failFlaw {α : Type} (flaw : Flaw) : Except Error α := fail (.invalidDeclaration flaw)

/-- Places every error of a computation. -/
def placed {α : Type} (c : Context) (r : Except Error α) : Except Error α :=
  r.mapError (·.withContext c)

/-- Runs a computation as a pass. -/
def inPass {α : Type} (p : LinkPass) (r : Except Error α) : Except Error α :=
  r.mapError (·.inPass p)

/-- The handle of a position, or exhaustion. -/
def Handle.allocate {k : Handle.Kind} (n : Nat) : Except Error (Handle k) :=
  match Handle.ofIndex? n with
  | some h => .ok h
  | none => fail (.exhausted k.noun)

/-- The handle of a field, or exhaustion. -/
def FieldId.allocate (entity : Handle .entity) (n : Nat) : Except Error FieldId :=
  match FieldId.ofIndex? entity n with
  | some f => .ok f
  | none => fail (.exhausted "field")

namespace Scope

/-- Refuses a name that is in use. -/
def checkUnused (scope : Scope) (name : String) (used : List String) : Except Error Unit :=
  if used.any (Ident.same · name) then fail (.duplicateName name scope) else .ok ()

/-- **Admits a new name**: it is not empty, not reserved and not in use, in this order. -/
def checkNew (scope : Scope) (name : String) (used : List String) : Except Error Unit :=
  if name.isEmpty then failFlaw (.emptyName scope)
  else if Ident.isReserved name then fail (.reservedName name)
  else scope.checkUnused name used

/-- Admits a list of names that were declared earlier: none is reserved and none repeats. `seen`
holds the names before the list, folded. -/
def checkDeclared (scope : Scope) (seen : List String) : List String → Except Error Unit
  | [] => .ok ()
  | name :: names =>
    if Ident.isReserved name then fail (.reservedName name)
    else if seen.contains (Ident.fold name) then fail (.duplicateName name scope)
    else scope.checkDeclared (Ident.fold name :: seen) names

end Scope

end DataModel
