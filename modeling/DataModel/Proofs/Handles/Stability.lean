import DataModel.Proofs.Handles.Retained
import DataModel.Proofs.Linking.EntityOrder

/-!
# Handles are stable

A request that declares something is answered with a handle, and one that enters a text into a table
with the place of the text.  `Document.stable_of_run` says that these answers stay right whatever is
done afterwards, as long as no declarations and no fields are exchanged.

An answer denotes what was asked for in the document that the request leads to
(`Document.denotes_of_act`), and whatever retains the document retains what the answer denotes
(`Document.Denotes.retained`).  Handles are places, and the names of a scope differ in more than
case, so looking up a name in any spelling leads back to the handle (`find?_spelling`).  A text is
entered where it is not found, so that no table holds a text twice (`Document.nodup_tables`).
-/

namespace DataModel

/-- **A name leads to what it is the name of**, in any spelling. -/
theorem find?_spelling {α : Type} {nameOf : α → String} {as : List α} {a : α} {spelling : String}
    (hnames : ((as.map nameOf).map Ident.fold).Nodup) (ha : a ∈ as)
    (hspelling : Ident.fold spelling = Ident.fold (nameOf a)) :
    as.find? (fun a => Ident.same (nameOf a) spelling) = some a := by
  rw [List.map_map] at hnames
  exact (find?_eq_some_iff_of_nodup hnames fun _ => Ident.same_iff).2 ⟨ha, hspelling.symm⟩

/-- What is kept of the members of a list is found at their places. -/
theorem exists_of_map_prefix {α β : Type} {see : α → β} {as bs : List α} {i : Nat} {a : α}
    (h : as.map see <+: bs.map see) (ha : as[i]? = some a) :
    ∃ b, bs[i]? = some b ∧ see b = see a := by
  have hat : (as.map see)[i]? = some (see a) := by rw [List.getElem?_map, ha, Option.map_some]
  obtain ⟨b, hb, hsee⟩ := extendedBy_eq_iff.2 h i _ hat
  rw [List.getElem?_map, Option.map_eq_some_iff] at hb
  obtain ⟨b, hb, rfl⟩ := hb
  exact ⟨b, hb, hsee.symm⟩

namespace Document

variable {before d d' : Document} {act : Act} {r : Receipt}

/-! ### Tables -/

/-- A text is found at the place that entering it gives. -/
theorem getElem?_enter (table : List String) (text : String) :
    (enter table text).2[(enter table text).1]? = some text := by
  rw [enter]
  split
  · next i hi =>
    obtain ⟨hlt, htext, _⟩ := List.findIdx?_eq_some_iff_getElem.1 hi
    rw [List.getElem?_eq_getElem hlt, beq_iff_eq.1 htext]
  · rw [List.getElem?_concat_length]

theorem nodup_enter {table : List String} (h : table.Nodup) (text : String) :
    (enter table text).2.Nodup := by
  rw [enter]
  split
  · exact h
  · next hnone =>
    rw [List.findIdx?_eq_none_iff] at hnone
    rw [List.nodup_append_comm, List.singleton_append, List.nodup_cons]
    refine ⟨fun hmem => ?_, h⟩
    simpa using hnone text hmem

/-- **No table holds a text twice**, after any acts. -/
theorem nodup_tables (acts : List Act) :
    (run {} acts).languages.Nodup ∧ (run {} acts).sourceFiles.Nodup := by
  induction acts using List.reverseRecOn with
  | nil => exact ⟨List.nodup_singleton _, List.nodup_nil⟩
  | append_singleton acts act ih =>
    rw [run_concat]
    refine after_of_outcomes (p := fun d => d.languages.Nodup ∧ d.sourceFiles.Nodup) ih ?_ ?_
    · intro edit d' _ hchange
      cases hchange with
      | addLanguage => exact ⟨nodup_enter ih.1 _, ih.2⟩
      | addSourceFile => exact ⟨ih.1, nodup_enter ih.2 _⟩
      | addEntity | addEnumeration | addBitfield | addRole | addEnumItem | addBitItem | setEnumDoc
      | setEnumValue | setBitfieldTexts | setRoleDoc | swapEntities | swapEnumerations
      | swapBitfields | swapEnumItems | onEntity =>
        -- These write other parts of the document.
        exact ih
    · intro options l _ hlink
      rw [(link_keeps hlink).languages, (link_keeps hlink).sourceFiles]
      exact ih

/-! ### Answers -/

/-- **What the answer to an act stands for** in a document `d`, where the act was done to `before`.
Only acts that declare something or enter a text are answered with something that stands for it. -/
def Denotes (before d : Document) : Act → Receipt → Prop
  | .edit (.addEntity name), r => ∃ id e, r = .position id.index ∧ d.entity? id = some e ∧
      e.id = id ∧ e.name = name
  | .edit (.addEnumeration name), r => ∃ id e, r = .position id.index ∧
      d.enumeration? id = some e ∧ e.id = id ∧ e.name = name
  | .edit (.addBitfield name), r => ∃ id b, r = .position id.index ∧ d.bitfield? id = some b ∧
      b.id = id ∧ b.name = name
  | .edit (.addRole parent name), r => ∃ id role, r = .position id.index ∧
      d.roles.get? id = some role ∧ role.name = name ∧ role.parent = parent ∧ role.implicit = false
  | .edit (.addLanguage text), r => ∃ n, r = .position n ∧ d.languages[n]? = some text
  | .edit (.addSourceFile text), r => ∃ n, r = .position n ∧ d.sourceFiles[n]? = some text
  | .edit (.onEntity ref (.addField name)), r => ∃ id e f, r = .field id ∧
      before.entityIndex? ref = some id.entity.index ∧ d.entity? id.entity = some e ∧
      e.fields[id.index]? = some f ∧ f.id = id ∧ f.name = name
  | _, _ => True

/-- **An answer denotes what was asked for.** -/
theorem denotes_of_act (hd : d.Placed) (h : d.act act = .ok (r, d')) : Denotes d d' act r := by
  cases act with
  | relink options => trivial
  | edit edit =>
    replace h : d.perform edit = .ok (r, d') := h
    cases edit with
    -- A declaration stands behind those that were there, at the place that it was allocated for.
    | addEntity name =>
      simp only [perform, addEntity, bind_eq_ok, attempt_eq_ok, pure_eq_ok, Prod.mk.injEq,
        Prod.exists] at h
      obtain ⟨_, _, ⟨_, _, id, hid, rfl, rfl⟩, rfl, rfl⟩ := h
      refine ⟨id, Entity.declare id name, rfl, ?_, rfl, rfl⟩
      rw [entity?, Handle.allocate_eq_ok.1 hid, List.getElem?_concat_length]
    | addEnumeration name =>
      simp only [perform, addEnumeration, bind_eq_ok, attempt_eq_ok, pure_eq_ok, Prod.mk.injEq,
        Prod.exists] at h
      obtain ⟨_, _, ⟨_, _, id, hid, rfl, rfl⟩, rfl, rfl⟩ := h
      refine ⟨id, Enumeration.declare id name, rfl, ?_, rfl, rfl⟩
      rw [enumeration?, Handle.allocate_eq_ok.1 hid, List.getElem?_concat_length]
    | addBitfield name =>
      simp only [perform, addBitfield, bind_eq_ok, attempt_eq_ok, pure_eq_ok, Prod.mk.injEq,
        Prod.exists] at h
      obtain ⟨_, _, ⟨_, _, id, hid, rfl, rfl⟩, rfl, rfl⟩ := h
      refine ⟨id, Bitfield.declare id name, rfl, ?_, rfl, rfl⟩
      rw [bitfield?, Handle.allocate_eq_ok.1 hid, List.getElem?_concat_length]
    | addRole parent name =>
      simp only [perform, addRole, bind_eq_ok, attempt_eq_ok, pure_eq_ok, Prod.mk.injEq,
        Prod.exists] at h
      obtain ⟨id, _, ⟨_, _, hallocate, rfl, rfl⟩, rfl, rfl⟩ := h
      obtain ⟨_, hknown, hid, rfl⟩ := RoleTree.allocate_eq_ok.1 hallocate
      exact ⟨_, _, rfl, RoleTree.get?_declare_self hid hknown, rfl, rfl, rfl⟩
    | addLanguage text =>
      obtain ⟨rfl, rfl⟩ := Prod.mk.inj (pure_eq_ok.1 h)
      exact ⟨_, rfl, getElem?_enter _ _⟩
    | addSourceFile text =>
      obtain ⟨rfl, rfl⟩ := Prod.mk.inj (pure_eq_ok.1 h)
      exact ⟨_, rfl, getElem?_enter _ _⟩
    -- The entity that is addressed stands at its place, and the new field is the last one in it.
    | onEntity ref edit =>
      cases edit with
      | addField name =>
        obtain ⟨i, hi, e, he, e', hedit, rfl⟩ := perform_onEntity_eq_ok.1 h
        simp only [Entity.perform, bind_eq_ok, attempt_eq_ok, pure_eq_ok, Prod.mk.injEq,
          Prod.exists] at hedit
        obtain ⟨id, _, hadd, rfl, rfl⟩ := hedit
        obtain ⟨_, hid, rfl⟩ := Entity.addField_eq_ok.1 hadd
        obtain ⟨hentity, hindex⟩ := FieldId.allocate_eq_ok.1 hid
        have hplace : id.entity.index = i := by
          rw [hentity]
          exact hd.entity i e he
        refine ⟨id, { e with fields := e.fields ++ [({ id, name } : Field)] }, { id, name }, rfl,
          ?_, ?_, ?_, rfl, rfl⟩
        · rw [hi, hplace]
        · rw [entity?, hplace]
          exact List.getElem?_set_self (List.getElem?_eq_some_iff.1 he).1
        · rw [hindex, List.getElem?_concat_length]
      | _ => trivial
    | _ => trivial

/-- **Whatever retains a document retains what an answer denotes** in it. -/
theorem Denotes.retained (h : Denotes before d act r) (hd : d.RetainedBy d') :
    Denotes before d' act r := by
  cases act with
  | relink options => trivial
  | edit edit =>
    cases edit with
    | addEntity name =>
      obtain ⟨id, e, rfl, he, rfl, rfl⟩ := h
      obtain ⟨e', he', hretained⟩ := hd.entities _ e he
      obtain ⟨hid, hname, -⟩ := And.imp_right Prod.mk.inj (Prod.mk.inj hretained.identity)
      exact ⟨_, e', rfl, he', hid, hname⟩
    | addEnumeration name =>
      obtain ⟨id, e, rfl, he, rfl, rfl⟩ := h
      obtain ⟨e', he', hidentity⟩ := exists_of_map_prefix hd.enums he
      obtain ⟨hid, hname, -⟩ := And.imp_right Prod.mk.inj (Prod.mk.inj hidentity)
      exact ⟨_, e', rfl, he', hid, hname⟩
    | addBitfield name =>
      obtain ⟨id, b, rfl, hb, rfl, rfl⟩ := h
      obtain ⟨b', hb', hidentity⟩ := exists_of_map_prefix hd.bitfields hb
      obtain ⟨hid, hname, -⟩ := And.imp_right Prod.mk.inj (Prod.mk.inj hidentity)
      exact ⟨_, b', rfl, hb', hid, hname⟩
    | addRole parent name =>
      obtain ⟨id, role, rfl, hrole, rfl, rfl, himplicit⟩ := h
      obtain ⟨role', hrole', hidentity⟩ := exists_of_map_prefix hd.roles hrole
      obtain ⟨hname, hparent, himplicit'⟩ := And.imp_right Prod.mk.inj (Prod.mk.inj hidentity)
      exact ⟨id, role', rfl, hrole', hname, hparent, himplicit'.trans himplicit⟩
    | addLanguage text =>
      obtain ⟨n, rfl, htext⟩ := h
      obtain ⟨_, htext', rfl⟩ := extendedBy_eq_iff.2 hd.languages n text htext
      exact ⟨n, rfl, htext'⟩
    | addSourceFile text =>
      obtain ⟨n, rfl, htext⟩ := h
      obtain ⟨_, htext', rfl⟩ := extendedBy_eq_iff.2 hd.sourceFiles n text htext
      exact ⟨n, rfl, htext'⟩
    | onEntity ref edit =>
      cases edit with
      | addField name =>
        obtain ⟨id, e, f, rfl, haddressed, he, hf, hid, rfl⟩ := h
        obtain ⟨e', he', hretained⟩ := hd.entities _ e he
        obtain ⟨f', hf', hidentity⟩ := exists_of_map_prefix hretained.fields hf
        obtain ⟨hid', hname⟩ := Prod.mk.inj hidentity
        exact ⟨id, e', f', rfl, haddressed, he', hf', hid'.trans hid, hname⟩
      | _ => trivial
    | _ => trivial

/-! ### Stability -/

/-- The act is one of some acts on a new document, is done to `d`, and is answered with `r`. -/
def Answered (acts : List Act) (d : Document) (act : Act) (r : Receipt) : Prop :=
  ∃ before after d', acts = before ++ act :: after ∧ d = run {} before ∧ d.act act = .ok (r, d')

/-- **What handles and places are worth** after some acts on a new document. -/
structure Stable (acts : List Act) : Prop where
  /-- What an answer was given for, it denotes in the end. -/
  denotes : ∀ d act r, Answered acts d act r → Denotes d (run {} acts) act r
  /-- What was declared at any time is where it was. -/
  retained : ∀ before after, acts = before ++ after → (run {} before).RetainedBy (run {} acts)
  /-- Handles are places. -/
  placed : (run {} acts).Placed
  entity : ∀ id e spelling, (run {} acts).entity? id = some e →
    Ident.fold spelling = Ident.fold e.name →
      (run {} acts).findEntity? spelling = some e ∧ e.id = id
  enumeration : ∀ id e spelling, (run {} acts).enumeration? id = some e →
    Ident.fold spelling = Ident.fold e.name →
      (run {} acts).findEnumeration? spelling = some e ∧ e.id = id
  bitfield : ∀ id b spelling, (run {} acts).bitfield? id = some b →
    Ident.fold spelling = Ident.fold b.name →
      (run {} acts).findBitfield? spelling = some b ∧ b.id = id
  role : ∀ id role spelling, (run {} acts).roles.get? id = some role →
    Ident.fold spelling = Ident.fold role.name → (run {} acts).roles.find? spelling = some id
  field : ∀ e ∈ (run {} acts).entities, ∀ i f spelling, e.fields[i]? = some f →
    Ident.fold spelling = Ident.fold f.name →
      e.field? spelling = some f ∧ f.id.entity = e.id ∧ f.id.index = i
  /-- Languages are told apart by their places. -/
  languages : ∀ d d' text text' i j,
    Answered acts d (.edit (.addLanguage text)) (.position i) →
      Answered acts d' (.edit (.addLanguage text')) (.position j) → (i = j ↔ text = text')
  /-- Source files are told apart by their places. -/
  sourceFiles : ∀ d d' text text' i j,
    Answered acts d (.edit (.addSourceFile text)) (.position i) →
      Answered acts d' (.edit (.addSourceFile text')) (.position j) → (i = j ↔ text = text')
  default : (run {} acts).languages[0]? = some ""

/-- Where no text stands twice, texts and places tell each other apart. -/
theorem place_eq_iff {table : List String} {i j : Nat} {text text' : String} (h : table.Nodup)
    (hi : table[i]? = some text) (hj : table[j]? = some text') : i = j ↔ text = text' := by
  obtain ⟨hi, rfl⟩ := List.getElem?_eq_some_iff.1 hi
  obtain ⟨hj, rfl⟩ := List.getElem?_eq_some_iff.1 hj
  exact h.getElem_inj_iff.symm

section

variable {acts : List Act} (hplaces : acts.all Act.keepsPlaces = true)

include hplaces

theorem retained_run {before after : List Act} (hsplit : acts = before ++ after) :
    (run {} before).RetainedBy (run {} acts) := by
  rw [hsplit, List.all_append, Bool.and_eq_true] at hplaces
  rw [hsplit, run_append]
  exact .run hplaces.2

/-- **An answer denotes what was asked for in the end**, because the document that the act led to is
retained. -/
theorem denotes_run (h : Answered acts d act r) : Denotes d (run {} acts) act r := by
  obtain ⟨before, after, d', hsplit, rfl, hact⟩ := h
  have hbefore : before.all Act.keepsPlaces = true := by
    rw [hsplit, List.all_append, Bool.and_eq_true] at hplaces
    exact hplaces.1
  refine (denotes_of_act (placed_run hbefore) hact).retained ?_
  have hafter : (run {} before).after act = d' := by rw [Document.after, hact]
  rw [← hafter, ← run_concat]
  have hsplit' : acts = before ++ [act] ++ after := by
    rw [hsplit, List.append_assoc, List.singleton_append]
  exact retained_run hplaces hsplit'

end

/-- The names of declarations differ in more than case, after any acts. -/
theorem nodup_names_run (acts : List Act) :
    (((run {} acts).entities.map Entity.name).map Ident.fold).Nodup ∧
      (((run {} acts).enums.map Enumeration.name).map Ident.fold).Nodup ∧
      (((run {} acts).bitfields.map Bitfield.name).map Ident.fold).Nodup := by
  have hnames : ((run {} acts).topLevelNames.map Ident.fold).Nodup :=
    (Scope.replays_iff.1 ((orderly_run acts).replays (.entity .top))).2.2
  rw [topLevelNames, List.map_append, List.map_append] at hnames
  exact ⟨hnames.of_append_left.of_append_left, hnames.of_append_left.of_append_right,
    hnames.of_append_right⟩

/-- The names of the fields of an entity differ in more than case, after any acts. -/
theorem nodup_fields_run (acts : List Act) {e : Entity} (he : e ∈ (run {} acts).entities) :
    ((e.fields.map Field.name).map Ident.fold).Nodup := by
  have horderly := orderly_run acts
  have hscope := horderly.replays (.entity (.within e.id .fields))
  rw [(names_within_entity horderly.registered he .fields).2] at hscope
  exact (Scope.replays_iff.1 hscope).2.2

/-- **Handles are stable.**  Whatever is done to a new document, if no declarations and no fields
are exchanged, every handle and every place that was returned stands for what it was returned for;
handles are places; names lead to their handles in any spelling; and texts are told apart by their
places in the tables. -/
theorem stable_of_run (acts : List Act) (hplaces : acts.all Act.keepsPlaces = true) :
    Stable acts := by
  have hplaced := placed_run hplaces
  obtain ⟨hentities, henums, hbitfields⟩ := nodup_names_run acts
  obtain ⟨hlanguages, hsourceFiles⟩ := nodup_tables acts
  constructor
  case denotes => exact fun d act r => denotes_run hplaces
  case retained => exact fun before after => retained_run hplaces
  case placed => exact hplaced
  case entity =>
    intro id e spelling he hspelling
    exact ⟨find?_spelling hentities (List.mem_of_getElem? he) hspelling,
      Handle.ext (hplaced.entity id.index e he)⟩
  case enumeration =>
    intro id e spelling he hspelling
    exact ⟨find?_spelling henums (List.mem_of_getElem? he) hspelling,
      Handle.ext (hplaced.enumeration id.index e he)⟩
  case bitfield =>
    intro id b spelling hb hspelling
    exact ⟨find?_spelling hbitfields (List.mem_of_getElem? hb) hspelling,
      Handle.ext (hplaced.bitfield id.index b hb)⟩
  case role => exact fun id role spelling hrole hspelling => (grown_run acts).find? hrole hspelling
  case field =>
    intro e he i f spelling hf hspelling
    have hfields := nodup_fields_run acts he
    exact ⟨find?_spelling hfields (List.mem_of_getElem? hf) hspelling, hplaced.field e he i f hf⟩
  case languages =>
    intro d d' text text' i j hi hj
    obtain ⟨_, hi, htext⟩ := denotes_run hplaces hi
    obtain ⟨_, hj, htext'⟩ := denotes_run hplaces hj
    obtain rfl := Receipt.position.inj hi
    obtain rfl := Receipt.position.inj hj
    exact place_eq_iff hlanguages htext htext'
  case sourceFiles =>
    intro d d' text text' i j hi hj
    obtain ⟨_, hi, htext⟩ := denotes_run hplaces hi
    obtain ⟨_, hj, htext'⟩ := denotes_run hplaces hj
    obtain rfl := Receipt.position.inj hi
    obtain rfl := Receipt.position.inj hj
    exact place_eq_iff hsourceFiles htext htext'
  case default =>
    have hgrown := (retained_run hplaces (List.nil_append acts).symm).languages
    obtain ⟨_, hdefault, rfl⟩ := extendedBy_eq_iff.2 hgrown 0 "" rfl
    exact hdefault

/-- Behind a link and a language, an entity is found under the handle of its declaration. -/
theorem stable_of_run_school :
    let acts := school ++ [.relink .trusted, .edit (.addLanguage "de")]
    acts.all Act.keepsPlaces = true ∧ Stable acts ∧
      (run {} acts).languages = ["", "de"] ∧
      (run {} acts).findEntity? "PUPIL" = some (.declare ⟨0, Handle.bound_pos⟩ "pupil") := by
  intro acts
  have hstable : Stable acts := stable_of_run acts rfl
  have hrun : run {} acts = schoolDocument.run [.relink .trusted, .edit (.addLanguage "de")] := by
    rw [run_append, run_school]
  have hpupil : (run {} acts).entity? ⟨0, Handle.bound_pos⟩ =
      some (.declare ⟨0, Handle.bound_pos⟩ "pupil") := by
    rw [hrun]
    decide +kernel
  have hlanguages : (run {} acts).languages = ["", "de"] := by
    rw [hrun]
    decide +kernel
  have hfold : Ident.fold "PUPIL" = "pupil" ∧ Ident.fold "pupil" = "pupil" := by decide +kernel
  have hspelling : Ident.fold "PUPIL" = Ident.fold "pupil" := hfold.1.trans hfold.2.symm
  exact ⟨rfl, hstable, hlanguages, (hstable.entity _ _ _ hpupil hspelling).1⟩

end Document

end DataModel
