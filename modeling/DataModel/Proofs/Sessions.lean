import DataModel.Proofs.Editing
import DataModel.Session
import Mathlib.Data.List.Induction

/-!
# Runs of a session

A session is driven by calls.  A call is accepted, or its error is recorded and the session goes on,
from the document as the call has left it.  What a run of calls comes to is written down for the
calls alone: the document that they lead to (`Session.documentOf`), the file that was begun last
(`Session.fileOf`) and the diagnostics of the calls that are not accepted, each behind the calls
before it (`Session.diagnosticsOf`).

`Session.call_eq` is the step: every call is one change of the document, and the diagnostic of its
error if it has one.  By induction a session holds what is written down for its calls
(`Session.run_eq`), and `Session.run_recorded` reads off how a session ends and what its calls leave
behind where they fail.
-/

namespace DataModel

/-! ### Configurations -/

/-- **A configuration that errs stops at an edit.**  The edits before it are carried out, those
behind it are not. -/
theorem Field.configure_eq_error {f g : Field} {edits : List FieldEdit} {error : Error}
    (h : f.configure edits = (.error error, g)) :
    ∃ done edit rest, edits = done ++ edit :: rest ∧ f.configure done = (.ok (), g) ∧
      g.perform edit = .error (.error error) := by
  induction edits generalizing f with
  | nil => cases h
  | cons edit edits ih =>
    rw [configure] at h
    cases hedit : f.perform edit with
    | ok f' =>
      rw [hedit] at h
      obtain ⟨done, failed, rest, rfl, hdone, hfailed⟩ := ih h
      refine ⟨edit :: done, failed, rest, rfl, ?_, hfailed⟩
      rw [configure, hedit]
      exact hdone
    | error refusal =>
      rw [hedit] at h
      cases refusal with
      | missing what =>
        obtain ⟨done, failed, rest, rfl, hdone, hfailed⟩ := ih h
        refine ⟨edit :: done, failed, rest, rfl, ?_, hfailed⟩
        rw [configure, hedit]
        exact hdone
      | error e =>
        obtain ⟨he, rfl⟩ := Prod.mk.inj h
        exact ⟨[], edit, edits, rfl, rfl, by rw [hedit, Except.error.inj he]⟩

namespace Declaration

variable {α : Type} {d d' : Document} {error : Error}

/-- A declaration without its answer. -/
def quiet (declaration : Declaration α) : Declaration Unit := fun d =>
  let (result, d) := declaration d
  ((fun _ => ()) <$> result, d)

/-- An allocation that fails leaves the document as it was. -/
theorem eq_of_ofAllocation {allocate : Document → Except Error (α × Document)}
    (h : (ofAllocation allocate).quiet d = (.error error, d')) : d' = d := by
  rw [quiet, ofAllocation] at h
  cases hallocate : allocate d with
  | ok result =>
    rw [hallocate] at h
    cases h
  | error e =>
    rw [hallocate] at h
    exact (Prod.mk.inj h).2.symm

/-- What is left behind of a field whose declaration fails: nothing if it could not be allocated,
and else the field as far as it was configured. -/
inductive LeftOfField (entity : Handle .entity) (name : String)
    (configure : Field → Except Error Unit × Field) (d : Document) : Document → Prop
  | unallocated (refused : ∀ e, d.entity? entity = some e → ∀ r, e.addField name ≠ .ok r) :
      LeftOfField entity name configure d d
  | configured {e e' : Entity} {id : FieldId} {error : Error} {f : Field}
      (found : d.entity? entity = some e) (allocated : e.addField name = .ok (id, e'))
      (failed : configure { id, name } = (.error error, f)) :
      LeftOfField entity name configure d
        { d with entities := d.entities.set entity.index { e with fields := e.fields ++ [f] } }

/-- **A field that is not declared as it was asked to be** is not allocated, or its configuration
fails. -/
theorem leftOfField {entity : Handle .entity} {name : String}
    {configure : Field → Except Error Unit × Field}
    (h : field entity name configure d = (.error error, d')) :
    LeftOfField entity name configure d d' := by
  cases he : d.entity? entity with
  | none =>
    simp only [field, he] at h
    obtain ⟨_, rfl⟩ := Prod.mk.inj h
    refine .unallocated fun e hfound => ?_
    rw [he] at hfound
    cases hfound
  | some e =>
    cases hadd : e.addField name with
    | error flaw =>
      simp only [field, he, hadd] at h
      obtain ⟨_, rfl⟩ := Prod.mk.inj h
      refine .unallocated fun e' hfound r hr => ?_
      obtain rfl := Option.some.inj (he.symm.trans hfound)
      rw [hadd] at hr
      cases hr
    | ok added =>
      simp only [field, he, hadd] at h
      obtain ⟨herror, rfl⟩ := Prod.mk.inj h
      exact .configured he hadd (Prod.ext herror rfl)

end Declaration

namespace Session

/-! ### Calls -/

/-- A call of a session. -/
inductive Call : Type 1
  | beginFile (name : String)
  | entity (name : String)
  | role (parent : Option (Handle .role)) (name : String)
  | field (entity : Handle .entity) (name : String)
      (configure : Field → Except Error Unit × Field)
  | declare {α : Type} (what : String) (declaration : Declaration α)

namespace Call

/-- What the call declares, as its diagnostic says it. -/
def what (d : Document) : Call → String
  | .beginFile name => s!"file {name}"
  | .entity name => s!"entity {name}"
  | .role _ name => s!"role {name}"
  | .field owner name _ =>
    let what := (d.entity? owner).elim name fun e => qualified e.name name
    s!"field {what}"
  | .declare what _ => what

/-- What the call does to a document. -/
def change : Call → Declaration Unit
  | .beginFile name => fun d => (.ok (), (d.addSourceFile name).2)
  | .entity name => (Declaration.ofAllocation fun d => d.addEntity name).quiet
  | .role parent name => (Declaration.ofAllocation fun d => d.addRole parent name).quiet
  | .field owner name configure => .field owner name configure
  | .declare _ declaration => declaration.quiet

/-- The file that the call begins. -/
def file? : Call → Option String
  | .beginFile name => some name
  | _ => none

/-- The call declares an entity or a role. -/
def allocates : Call → Bool
  | .entity _ | .role _ _ => true
  | _ => false

end Call

/-- The session after a call, and whether the call was accepted. -/
def call (s : Session) : Call → Bool × Session
  | .beginFile name => (true, s.beginFile name)
  | .entity name =>
    let (id, s) := s.entity name
    (id.isSome, s)
  | .role parent name =>
    let (id, s) := s.role parent name
    (id.isSome, s)
  | .field entity name configure =>
    let (done, s) := s.field entity name configure
    (done.isSome, s)
  | .declare what declaration =>
    let (answer, s) := s.declare what declaration
    (answer.isSome, s)

/-- The session after some calls. -/
def run (options : LinkOptions) (calls : List Call) : Session :=
  calls.foldl (fun s c => (s.call c).2) { options }

theorem run_concat (options : LinkOptions) (calls : List Call) (c : Call) :
    run options (calls ++ [c]) = ((run options calls).call c).2 := by
  rw [run, List.foldl_append]
  rfl

/-! ### What is written down -/

/-- The document that calls lead to. -/
def documentOf (calls : List Call) : Document := calls.foldl (fun d c => (c.change d).2) {}

/-- The file that was begun last. -/
def fileOf (calls : List Call) : Option String := (calls.filterMap Call.file?).getLast?

/-- The diagnostic of a call behind others, unless it is accepted. -/
def diagnostic? (before : List Call) (c : Call) : Option Diagnostic :=
  match (c.change (documentOf before)).1 with
  | .ok () => none
  | .error error =>
    some { file := fileOf before, declaration := c.what (documentOf before), error }

/-- The diagnostics of calls behind others. -/
def diagnosticsBehind (before : List Call) : List Call → List Diagnostic
  | [] => []
  | c :: calls => (diagnostic? before c).toList ++ diagnosticsBehind (before ++ [c]) calls

/-- **The diagnostics of a run of calls**: one for each call that is not accepted, in order. -/
def diagnosticsOf (calls : List Call) : List Diagnostic := diagnosticsBehind [] calls

section

variable {before calls : List Call} {c : Call}

theorem documentOf_concat : documentOf (calls ++ [c]) = (c.change (documentOf calls)).2 := by
  rw [documentOf, List.foldl_append]
  rfl

theorem fileOf_concat : fileOf (calls ++ [c]) = c.file?.or (fileOf calls) := by
  rw [fileOf, List.filterMap_append, List.getLast?_append, fileOf]
  cases h : c.file? with
  | none => simp [h]
  | some file => simp [h]

theorem diagnosticsBehind_concat : diagnosticsBehind before (calls ++ [c]) =
    diagnosticsBehind before calls ++ (diagnostic? (before ++ calls) c).toList := by
  induction calls generalizing before with
  | nil => simp [diagnosticsBehind]
  | cons first calls ih =>
    rw [List.cons_append, diagnosticsBehind, ih, diagnosticsBehind, List.append_assoc,
      List.append_assoc, List.singleton_append]

theorem diagnosticsOf_concat :
    diagnosticsOf (calls ++ [c]) = diagnosticsOf calls ++ (diagnostic? calls c).toList :=
  diagnosticsBehind_concat

end

/-! ### Runs -/

/-- **A call is one change of the document.**  Where the change fails, the error is recorded with
the file that was begun last. -/
theorem call_eq (s : Session) (c : Call) :
    s.call c =
      match c.change s.document with
      | (.ok (), document) => (true, { s with document, file := c.file?.or s.file })
      | (.error error, document) =>
        (false, { s with
          document
          diagnostics := s.diagnostics ++
            [{ file := s.file, declaration := c.what s.document, error }] }) := by
  -- All calls but the first are declarations, with their answers left out.
  have hdeclare {α : Type} (what : String) (declaration : Declaration α) :
      ((s.declare what declaration).1.isSome, (s.declare what declaration).2) =
        match declaration.quiet s.document with
        | (.ok (), document) => (true, { s with document })
        | (.error error, document) =>
          (false, { s with
            document
            diagnostics := s.diagnostics ++
              [{ file := s.file, declaration := what, error }] }) := by
    rw [declare, Declaration.quiet]
    rcases declaration s.document with ⟨_ | _, document⟩
    · rfl
    · rfl
  cases c with
  | beginFile name => rfl
  | entity name => exact hdeclare _ _
  | role parent name => exact hdeclare _ _
  | field entity name configure =>
    refine (hdeclare _ _).trans ?_
    have hquiet : (Declaration.field entity name configure).quiet =
        Declaration.field entity name configure := by
      funext d
      exact Prod.ext (id_map _) rfl
    rw [hquiet]
    rfl
  | declare what declaration => exact hdeclare _ _

/-- **A session holds what is written down for its calls.** -/
theorem run_eq (options : LinkOptions) (calls : List Call) :
    run options calls =
      { document := documentOf calls
        options
        file := fileOf calls
        diagnostics := diagnosticsOf calls } := by
  induction calls using List.reverseRecOn with
  | nil => rfl
  | append_singleton calls c ih =>
    rw [run_concat, ih, call_eq, documentOf_concat, fileOf_concat, diagnosticsOf_concat,
      diagnostic?]
    rcases hchange : c.change (documentOf calls) with ⟨error | _, document⟩
    · -- Beginning a file does not fail.
      have hfile : c.file? = none := by
        cases c with
        | beginFile name => cases hchange
        | entity | role | field | declare => rfl
      simp only [hfile, Option.none_or, Option.toList_some]
    · simp only [Option.toList_none, List.append_nil]

section

variable {s : Session} {c : Call}

/-- The answer to a call is that of its change, and so is the document behind it. -/
theorem call_fst_eq_false_iff :
    (s.call c).1 = false ↔ ∃ error, (c.change s.document).1 = .error error := by
  rw [call_eq]
  rcases c.change s.document with ⟨_ | _, document⟩
  · simp
  · simp

theorem document_call : (s.call c).2.document = (c.change s.document).2 := by
  rw [call_eq]
  rcases c.change s.document with ⟨_ | _, document⟩
  · rfl
  · rfl

/-- **A refused entity or role leaves the document as it was.** -/
theorem document_call_of_allocates (hc : c.allocates) (h : (s.call c).1 = false) :
    (s.call c).2.document = s.document := by
  obtain ⟨error, herror⟩ := call_fst_eq_false_iff.mp h
  rw [document_call]
  cases c with
  | entity name | role parent name => exact Declaration.eq_of_ofAllocation (Prod.ext herror rfl)
  | beginFile | field | declare => cases hc

/-- **A refused field** is not allocated, or it stays as it was configured. -/
theorem leftOfField_call {owner : Handle .entity} {name : String}
    {configure : Field → Except Error Unit × Field}
    (h : (s.call (.field owner name configure)).1 = false) :
    Declaration.LeftOfField owner name configure s.document
      (s.call (.field owner name configure)).2.document := by
  obtain ⟨error, herror⟩ := call_fst_eq_false_iff.mp h
  rw [document_call]
  exact Declaration.leftOfField (Prod.ext herror rfl)

end

/-- **What a run of calls records.**  A session holds the document, the file and the diagnostics
that are written down for its calls, and it accepts a call exactly if the call has no diagnostic.
It links the document only without diagnostics, and then the error of linking is the only one.  A
refused entity or role changes nothing, and a refused field stays as far as it was configured. -/
theorem run_recorded (options : LinkOptions) (calls : List Call) :
    run options calls =
        { document := documentOf calls
          options
          file := fileOf calls
          diagnostics := diagnosticsOf calls } ∧
      (∀ c, ((run options calls).call c).1 = (diagnostic? calls c).isNone) ∧
      (run options calls).finish =
        (if diagnosticsOf calls = [] then
          match (documentOf calls).link options with
          | .ok linked => .ok linked
          | .error error => .error ⟨[{ file := fileOf calls, declaration := "link", error }]⟩
        else .error ⟨diagnosticsOf calls⟩) ∧
      (∀ c, c.allocates → ((run options calls).call c).1 = false →
        ((run options calls).call c).2.document = documentOf calls) ∧
      (∀ owner name configure,
        ((run options calls).call (.field owner name configure)).1 = false →
        Declaration.LeftOfField owner name configure (documentOf calls)
          ((run options calls).call (.field owner name configure)).2.document) ∧
      ∀ (f g : Field) edits error, f.configure edits = (.error error, g) →
        ∃ done edit rest, edits = done ++ edit :: rest ∧ f.configure done = (.ok (), g) ∧
          g.perform edit = .error (.error error) := by
  have hdocument : (run options calls).document = documentOf calls := by rw [run_eq]
  refine ⟨run_eq options calls, fun c => ?_, ?_, fun c hc h => ?_, fun owner name configure h => ?_,
    fun f g edits error h => Field.configure_eq_error h⟩
  · rw [call_eq, hdocument, diagnostic?]
    rcases c.change (documentOf calls) with ⟨_ | _, document⟩
    · rfl
    · rfl
  · rw [run_eq, finish, hasErrors]
    by_cases hnone : diagnosticsOf calls = []
    · rw [if_pos hnone, hnone]
      cases hlink : (documentOf calls).link options with
      | ok linked => simp [Except.mapError]
      | error error => simp [Except.mapError]
    · rw [if_neg hnone, if_pos (by simpa using hnone)]
  · rw [document_call_of_allocates hc h, hdocument]
  · have hleft := leftOfField_call h
    rwa [hdocument] at hleft

/-- Two files: in the first an entity is declared twice, in the second a field gets a default that
does not fit the type it was given before. -/
def twoFiles : List Call :=
  [.beginFile "people", .entity "person", .entity "PERSON", .beginFile "ages",
    .field ⟨0, Handle.bound_pos⟩ "age" fun f =>
      f.configure [.setType .text, .setDefault (.integer 3), .setFlag .null true]]

/-- A session over the two files is not linked, and it is the two refusals that it ends with, each
with its file.  The field remains, as a text that has no default and cannot be null. -/
theorem run_recorded_twoFiles :
    (run {} twoFiles).finish = .error ⟨diagnosticsOf twoFiles⟩ ∧
      (diagnosticsOf twoFiles).map (fun d => (d.file, d.declaration)) =
        [(some "people", "entity PERSON"), (some "ages", "field person.age")] ∧
      ((documentOf twoFiles).entities.flatMap Entity.fields).map
          (fun f => (f.name, f.type, f.defaultValue, f.flags.null)) =
        [("age", .text, none, false)] := by
  obtain ⟨hrun, -, hfinish, -⟩ := run_recorded {} twoFiles
  have hends : ((run {} twoFiles).diagnostics.map (fun d => (d.file, d.declaration)),
      ((run {} twoFiles).document.entities.flatMap Entity.fields).map
        (fun f => (f.name, f.type, f.defaultValue, f.flags.null))) =
      ([(some "people", "entity PERSON"), (some "ages", "field person.age")],
        [("age", .text, none, false)]) := by decide +kernel
  rw [hrun] at hends
  obtain ⟨hdiagnostics, hfields⟩ := Prod.mk.inj hends
  refine ⟨?_, hdiagnostics, hfields⟩
  rw [hfinish, if_neg]
  intro hnone
  rw [hnone] at hdiagnostics
  cases hdiagnostics

end Session

end DataModel
