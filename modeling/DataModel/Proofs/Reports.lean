import DataModel.CommandLine
import DataModel.Proofs.Linking.Authorisation
import DataModel.Proofs.Linking.HeightOrder
import DataModel.Proofs.Roles.Outline

/-!
# Reports of linked documents

The command line prints a report on each document that it links: the entities by height with their
fields, the role tree as an outline, and the unused roles.  `Document.link_reported` says that the
report of every linked document ends and is complete.

It puts together what linking has checked.  The role tree passed the check of forests, so it has an
outline that shows every role once (`LinkSteps.exists_outlined`).  The heights fall along the
references, so an entity is listed behind those that it refers to, and the references are bound, so
a field shows both names of its target (`LinkSteps.fieldLine_of_reference`).  The unused roles are
roles of the tree, so each of them has a name to show (`LinkSteps.exists_names`).
-/

namespace DataModel

open Report

/-- **What the report of a linked document shows.**

The lines of the roles are an outline of the role tree (`report`, `roles`).  They are followed by a
line for each unused role, in the order of their handles (`unusedLines`, `ascending`, `unused`).
The entities are shown once each, with all their fields in order (`entityReport`, `perm`, `nodup`).
A field with a reference shows the names of the entity and of the field that the reference is bound
to, and the entity was shown before (`reference`), like an entity that a field embeds (`struct`). -/
structure LinkedDocument.Reported (l : LinkedDocument) (outline : List RoleTree.Entry) : Prop where
  report : ∀ file, l.report file = heading file :: l.entityReport ++
    bold "Roles:" :: outline.map l.document.roles.line ++ l.unusedLines ++ [""]
  roles : l.document.roles.Outlined outline
  unusedLines : ∃ names : List String, l.unusedRoles.map l.roleName? = names.map some ∧
    l.unusedLines = names.map fun name => indented 1 s!"(unused: {name})"
  ascending : l.unusedRoles.Pairwise (·.index < ·.index)
  unused : ∀ id, id ∈ l.unusedRoles ↔
    ∃ r, l.document.roles.get? id = some r ∧ r.implicit = false ∧
      ∀ e ∈ l.document.entities, ∀ g ∈ e.rolemap.grants, id ∉ g.boundRoles
  entityReport : l.entityReport = (bold "Entities" ++ " (emission order):") ::
    l.entitiesByHeight.flatMap fun e =>
      indented 1 s!"{e.name} [height {e.height}]" :: e.fields.map l.fieldLine
  perm : l.entitiesByHeight.Perm l.document.entities
  nodup : l.entitiesByHeight.Nodup
  plain : ∀ f : Field, f.reference = none →
    l.fieldLine f = indented 2 s!"{f.name}: {f.type.noun}"
  reference : ∀ e ∈ l.document.entities, ∀ f ∈ e.fields, ∀ r ∈ f.reference,
    ∃ b target key, r.binding = some b ∧ l.document.entity? b.target.entity = some target ∧
      l.document.field? b.target = some key ∧ l.Precedes target e ∧
      l.fieldLine f = indented 2 s!"{f.name}: {f.type.noun} -> {target.name}.{key.name}"
  struct : ∀ e ∈ l.document.entities, ∀ f ∈ e.fields, f.structSource.isSome = true →
    ∃ target, l.structEntity? f = some target ∧ l.Precedes target e

namespace Document

variable {options : LinkOptions} {d bound high granted : Document} {l : LinkedDocument}

/-- A field of a document belongs to the entity that its handle leads to. -/
theorem Placed.entity?_of_field? (hd : d.Placed) {id : FieldId} {f : Field}
    (hf : d.field? id = some f) :
    ∃ e, d.entity? id.entity = some e ∧ d.entity? f.id.entity = some e := by
  rw [field?, Option.bind_eq_some_iff] at hf
  obtain ⟨e, he, hf⟩ := hf
  have hmem : e ∈ d.entities := List.mem_of_getElem? he
  refine ⟨e, he, ?_⟩
  rw [(hd.field e hmem id.index f hf).1]
  exact hd.entity?_id hmem

namespace LinkSteps

/-- The role tree of a linked document is a single forest. -/
theorem singleForest (s : LinkSteps options d bound high granted l) :
    l.document.roles.SingleForest := by
  have hroles := s.roles
  rw [← s.roles_high] at hroles
  simp only [RoleTree.check, bind_eq_ok, forM_eq_ok] at hroles
  obtain ⟨_, _, _, hforest, _⟩ := hroles
  exact RoleTree.singleForest_of_checkForest hforest

/-- **A bound reference shows the names of its target**, and the entity is listed in front. -/
theorem fieldLine_of_reference (s : LinkSteps options d bound high granted l) {e : Entity}
    (he : e ∈ l.document.entities) {f : Field} (hf : f ∈ e.fields) {r : Reference}
    (hr : f.reference = some r) :
    ∃ b target key, r.binding = some b ∧ l.document.entity? b.target.entity = some target ∧
      l.document.field? b.target = some key ∧ l.Precedes target e ∧
      l.fieldLine f = indented 2 s!"{f.name}: {f.type.noun} -> {target.name}.{key.name}" := by
  obtain ⟨b, _, key, hb, _, _, _, hkey, _⟩ := s.referenceBound he hf hr
  obtain ⟨target, htarget, howner⟩ := s.placed.entity?_of_field? hkey
  obtain ⟨target', hfound, hprecedes⟩ := s.reference_precedes he hf hr
  have hentity : r.entity?.bind l.document.entity? = some target := by
    rw [Reference.entity?, hb]
    exact htarget
  obtain rfl : target = target' := Option.some.inj (hentity.symm.trans hfound)
  have hreferenced : l.referenceTarget? f = some key := by
    rw [LinkedDocument.referenceTarget?, hr, Option.bind_some, hb]
    exact hkey
  refine ⟨b, target, key, hb, htarget, hkey, hprecedes, ?_⟩
  rw [LinkedDocument.fieldLine, hreferenced]
  dsimp only
  rw [howner, Option.elim_some, qualified]
  simp only [String.append_assoc]
  rfl

/-- **Every unused role has a name.** -/
theorem exists_names (s : LinkSteps options d bound high granted l) :
    ∃ names : List String, l.unusedRoles.map l.roleName? = names.map some ∧
      l.unusedLines = names.map fun name => indented 1 s!"(unused: {name})" := by
  refine ⟨l.unusedRoles.filterMap l.roleName?, ?_, rfl⟩
  rw [List.map_filterMap, eq_comm, List.filterMap_eq_map_iff_forall_eq_some]
  intro id hid
  obtain ⟨r, hr, _⟩ := s.mem_unusedRoles_iff.1 hid
  rw [LinkedDocument.roleName?, hr]
  rfl

end LinkSteps

/-- **The report of a linked document ends and is complete**, and it is what the command line prints
for a file that holds the document. -/
theorem link_reported (h : d.link options = .ok l) :
    (∃ outline, l.Reported outline) ∧
      ∀ file bytes, Snapshot.decode bytes = .ok d →
        CommandLine.linkFile options file (.ok bytes) =
          { lines := l.report file, notices := d.notices options } := by
  obtain ⟨bound, high, granted, s⟩ := link_eq_ok_iff.1 h
  have hsorted := LinkedDocument.entitiesByHeight_eq s.placed s.order
  obtain ⟨outline, houtline⟩ := s.singleForest.exists_outlined
  refine ⟨⟨outline, ?_⟩, fun file bytes hbytes => ?_⟩
  · constructor
    case report =>
      intro file
      rw [LinkedDocument.report, RoleTree.report, houtline.lines _ le_rfl]
    case roles => exact houtline
    case unusedLines => exact s.exists_names
    case ascending =>
      rw [s.unused]
      exact RoleTree.pairwise_unused _ _
    case unused => exact fun id => s.mem_unusedRoles_iff
    case entityReport => rfl
    case perm =>
      rw [hsorted]
      exact sortedBy_perm
    case nodup =>
      rw [hsorted, sortedBy_perm.nodup_iff]
      exact s.placed.nodup_entities
    case plain =>
      intro f hf
      rw [LinkedDocument.fieldLine, LinkedDocument.referenceTarget?, hf]
      exact congrArg (indented 2) String.append_empty
    case reference => exact fun e he f hf r hr => s.fieldLine_of_reference he hf hr
    case struct =>
      intro e he f hf hsource
      obtain ⟨source, hsource⟩ := Option.isSome_iff_exists.1 hsource
      exact s.struct_precedes he hf hsource
  · have hdecoded : ((.ok bytes : Except FileFlaw (List UInt8)).mapError
        fun flaw => { cause := .file flaw : Error }) >>= Snapshot.decode = .ok d := hbytes
    rw [CommandLine.linkFile, hdecoded]
    dsimp only
    rw [h]

/-- The staff of the sessions is shown with its trainees, who are unused, among five roles. -/
theorem link_reported_staffed :
    ∃ l, staffedSessions.link .trusted = .ok l ∧ l.unusedRoles.length = 1 ∧
      (∃ e ∈ l.document.entities, ∃ f ∈ e.fields, f.reference.isSome = true) ∧
      ∃ outline, l.Reported outline ∧ outline.length = 5 := by
  obtain ⟨l, h, hparts⟩ := exists_ok_of_any (r := staffedSessions.link .trusted)
    (p := fun l => decide (l.document.roles.roles.length = 5 ∧ l.unusedRoles.length = 1 ∧
      ∃ e ∈ l.document.entities, ∃ f ∈ e.fields, f.reference.isSome = true)) (by decide +kernel)
  obtain ⟨hroles, hunused, hreference⟩ := of_decide_eq_true hparts
  obtain ⟨outline, houtline⟩ := (link_reported h).1
  exact ⟨l, h, hunused, hreference, outline, houtline, houtline.roles.length.trans hroles⟩

end Document

end DataModel
