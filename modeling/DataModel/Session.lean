import DataModel.Edit.Field
import DataModel.Linked

/-!
# Compile sessions

A session applies declarations to a document one after the other. A declaration that fails is
recorded as a *diagnostic*, with the source file that was being read, and the session goes on. At
the end a document without diagnostics is linked; one with diagnostics is not, whatever it holds.

What a declaration has changed before it fails stays changed. So a field whose configuration fails
remains declared, and later declarations that name it still find it.
-/

namespace DataModel

/-- An error recorded against a declaration. -/
structure Diagnostic where
  /-- The source file being read, if one was begun. -/
  file : Option String
  /-- What was being declared. -/
  declaration : String
  error : Error
  deriving DecidableEq

/-- The diagnostic on one line. -/
def Diagnostic.describe (d : Diagnostic) : String :=
  d.file.elim "" (· ++ ": ") ++ d.declaration ++ ": " ++ d.error.describe

/-- A compilation that gave no linked document. -/
structure CompileError where
  diagnostics : List Diagnostic
  deriving DecidableEq

def CompileError.message (e : CompileError) : String :=
  s!"compilation failed with {e.diagnostics.length} diagnostic(s)"

/-- A change of a document that answers or fails. -/
abbrev Declaration (α : Type) := Document → Except Error α × Document

namespace Declaration

/-- A declaration that changes the document only if it succeeds. -/
def ofAllocation {α : Type} (allocate : Document → Except Error (α × Document)) : Declaration α :=
  fun d =>
    match allocate d with
    | .ok (a, d) => (.ok a, d)
    | .error e => (.error e, d)

/-- Declares a field and configures it. -/
def field (entity : Handle .entity) (name : String)
    (configure : Field → Except Error Unit × Field) : Declaration Unit := fun d =>
  match d.entity? entity with
  | none => (failFlaw (.noSuchEntity entity), d)
  | some e =>
    match e.addField name with
    | .error flaw => (.error flaw, d)
    | .ok (id, _) =>
      let (result, f) := configure { id, name }
      (result, { d with
        entities := d.entities.set entity.index { e with fields := e.fields ++ [f] } })

end Declaration

/-- A document under declaration and the diagnostics so far. -/
structure Session where
  document : Document := {}
  options : LinkOptions := {}
  /-- The source file being read, if one was begun. -/
  file : Option String := none
  diagnostics : List Diagnostic := []
  deriving DecidableEq

namespace Session

variable (s : Session)

/-- Some declaration failed. -/
def hasErrors : Bool := !s.diagnostics.isEmpty

/-- **Applies a declaration**, or records why it failed. -/
def declare {α : Type} (what : String) (declaration : Declaration α) : Option α × Session :=
  match declaration s.document with
  | (.ok a, document) => (some a, { s with document })
  | (.error error, document) =>
    (none, { s with
      document
      diagnostics := s.diagnostics ++ [{ file := s.file, declaration := what, error }] })

/-- Begins a source file: it is entered in the document, and later diagnostics name it. -/
def beginFile (name : String) : Session :=
  { s with document := (s.document.addSourceFile name).2, file := some name }

/-- Declares an entity. -/
def entity (name : String) : Option (Handle .entity) × Session :=
  s.declare s!"entity {name}" (.ofAllocation fun d => d.addEntity name)

/-- Declares a role. -/
def role (parent : Option (Handle .role)) (name : String) : Option (Handle .role) × Session :=
  s.declare s!"role {name}" (.ofAllocation fun d => d.addRole parent name)

/-- Declares a field and configures it. -/
def field (entity : Handle .entity) (name : String)
    (configure : Field → Except Error Unit × Field) : Option Unit × Session :=
  let what := (s.document.entity? entity).elim name fun e => qualified e.name name
  s.declare s!"field {what}" (.field entity name configure)

/-- **Ends the session**: links the document, unless some declaration failed. -/
def finish : Except CompileError LinkedDocument :=
  if s.hasErrors then .error ⟨s.diagnostics⟩
  else
    (s.document.link s.options).mapError fun error =>
      ⟨[{ file := s.file, declaration := "link", error }]⟩

end Session

end DataModel
