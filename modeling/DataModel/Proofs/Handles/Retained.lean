import DataModel.Proofs.Extension.Documents
import DataModel.Proofs.Linking.KeptDeclarations

/-!
# Declarations that stay in place

Every declaration that a document holds stays where it is, with its handle and its name, through all
acts that exchange no declarations and no fields: it is *retained* (`Document.RetainedBy`).
Declarations and fields are only ever added at the end of their lists, and an edit or a link that
writes to one of them writes neither its handle nor its name.

What new declarations have and no such act takes from them, the declarations of a document have
after any run.  Their handles are their places (`Document.placed_run`), since each was allocated for
the next one.  Roles cannot change places at all, and no act but a request for a role writes more of
one than its documentation, so the role tree is grown after any acts (`Document.grown_run`).
-/

namespace DataModel

/-! ### Members that say their places -/

section

variable {α : Type} {see : α → Nat} {l l' : List α} {a a' : α}

/-- Every member stands at the place that it says. -/
def Positioned (see : α → Nat) (l : List α) : Prop :=
  ∀ (i : Nat) (a : α), l[i]? = some a → see a = i

theorem positioned_iff : Positioned see l ↔ l.map see = List.range l.length := by
  constructor
  · intro h
    refine List.ext_getElem (by simp) fun i hi hi' => ?_
    rw [List.getElem_map, List.getElem_range]
    exact h i _ (List.getElem?_eq_getElem _)
  · intro h i a ha
    have hi : (l.map see)[i]? = some (see a) := by rw [List.getElem?_map, ha, Option.map_some]
    rw [h] at hi
    obtain ⟨_, hrange⟩ := List.getElem?_eq_some_iff.1 hi
    rw [← hrange, List.getElem_range]

namespace Positioned

variable (h : Positioned see l)

include h

theorem concat (ha : see a = l.length) : Positioned see (l ++ [a]) := by
  rw [positioned_iff] at *
  rw [List.map_append, List.map_singleton, h, ha, List.length_append, List.length_singleton,
    List.range_succ]

theorem set {i : Nat} (ha : l[i]? = some a) (hsee : see a' = see a) :
    Positioned see (l.set i a') := by
  rw [positioned_iff] at *
  rw [map_set_of_eq ha hsee, h, List.length_set]

theorem getElem?_see (ha : a ∈ l) : l[see a]? = some a := by
  obtain ⟨i, hi⟩ := List.getElem?_of_mem ha
  rwa [h i a hi]

/-- **Members in place make up one list only.** -/
theorem eq_of_mem (h' : Positioned see l') (hlength : l'.length = l.length)
    (hmem : ∀ a ∈ l', a ∈ l) : l' = l := by
  refine List.ext_getElem hlength fun i hi' hi => ?_
  have hat := h.getElem?_see (hmem _ (List.getElem_mem hi'))
  rw [h' i _ (List.getElem?_eq_getElem hi'), List.getElem?_eq_getElem hi] at hat
  exact (Option.some.inj hat).symm

end Positioned

/-- What a member keeps that is written to, the list keeps. -/
theorem map_prefix_set {β : Type} {see : α → β} {i : Nat} (ha : l[i]? = some a)
    (hsee : see a' = see a) : l.map see <+: (l.set i a').map see := by
  rw [map_set_of_eq ha hsee]

end

/-! ### Acts that keep places -/

/-- The edit exchanges no declarations and no fields. -/
def Edit.keepsPlaces : Edit → Bool
  | .swapEntities _ _ | .swapEnumerations _ _ | .swapBitfields _ _ => false
  | .onEntity _ edit => edit.keepsOrder
  | _ => true

/-- The act exchanges no declarations and no fields. -/
def Act.keepsPlaces : Act → Bool
  | .edit e => e.keepsPlaces
  | .relink _ => true

/-! ### Retained declarations -/

/-- What is never written of a field. -/
def Field.identity (f : Field) : FieldId × String := (f.id, f.name)

/-- What is never written of an enumeration. -/
def Enumeration.identity (e : Enumeration) : Handle .enumeration × String × String :=
  (e.id, e.name, e.canonical)

/-- What is never written of a bit-field set. -/
def Bitfield.identity (b : Bitfield) : Handle .bitfield × String × String :=
  (b.id, b.name, b.canonical)

/-- What is never written of a role. -/
def Role.identity (r : Role) : String × Option (Handle .role) × Bool :=
  (r.name, r.parent, r.implicit)

/-- What is never written of an entity. -/
def Entity.identity (e : Entity) : Handle .entity × String × String := (e.id, e.name, e.canonical)

/-- The second entity is what the first one became: it has the same handle and the same name, and
its fields are those of the first one, perhaps with more behind them. -/
structure Entity.RetainedBy (e e' : Entity) : Prop where
  identity : e'.identity = e.identity
  fields : e.fields.map Field.identity <+: e'.fields.map Field.identity

/-- **The second document holds every declaration of the first one** where it was, with its handle
and its name. -/
structure Document.RetainedBy (d d' : Document) : Prop where
  entities : ExtendedBy Entity.RetainedBy d.entities d'.entities
  enums : d.enums.map Enumeration.identity <+: d'.enums.map Enumeration.identity
  bitfields : d.bitfields.map Bitfield.identity <+: d'.bitfields.map Bitfield.identity
  roles : d.roles.roles.map Role.identity <+: d'.roles.roles.map Role.identity
  languages : d.languages <+: d'.languages
  sourceFiles : d.sourceFiles <+: d'.sourceFiles

namespace Entity

variable {e e' e'' : Entity} {edit : EntityEdit} {r : Receipt}

@[refl]
theorem RetainedBy.refl (e : Entity) : e.RetainedBy e := ⟨rfl, List.prefix_rfl⟩

theorem RetainedBy.trans (h : e.RetainedBy e') (h' : e'.RetainedBy e'') : e.RetainedBy e'' :=
  ⟨h'.identity.trans h.identity, h.fields.trans h'.fields⟩

/-- **An edit of an entity retains it.** -/
theorem RetainedBy.perform (horder : edit.keepsOrder = true) (h : e.perform edit = .ok (r, e')) :
    e.RetainedBy e' := by
  cases change_of_perform h with
  | addField => exact ⟨rfl, (List.prefix_append _ _).map _⟩
  | onField addressed found edited =>
    obtain ⟨hid, hname⟩ := Field.identity_of_perform edited
    exact ⟨rfl, map_prefix_set found (Prod.ext hid hname)⟩
  | swapFields => cases horder
  | addSearch | addUpdate | addDelete | addUnique | grant | onSearch | onUpdate | onDelete
  | setUniqueFields | setInsert | setDoc | setHeight =>
    -- These write other parts of the entity.
    exact ⟨rfl, List.prefix_rfl⟩

end Entity

namespace Document

variable {d d' d'' : Document}

@[refl]
theorem RetainedBy.refl (d : Document) : d.RetainedBy d :=
  ⟨.refl Entity.RetainedBy.refl, List.prefix_rfl, List.prefix_rfl, List.prefix_rfl,
    List.prefix_rfl, List.prefix_rfl⟩

theorem RetainedBy.trans (h : d.RetainedBy d') (h' : d'.RetainedBy d'') : d.RetainedBy d'' where
  entities i e he := by
    obtain ⟨e', he', hretained⟩ := h.entities i e he
    obtain ⟨e'', he'', hretained'⟩ := h'.entities i e' he'
    exact ⟨e'', he'', hretained.trans hretained'⟩
  enums := h.enums.trans h'.enums
  bitfields := h.bitfields.trans h'.bitfields
  roles := h.roles.trans h'.roles
  languages := h.languages.trans h'.languages
  sourceFiles := h.sourceFiles.trans h'.sourceFiles

/-- **A change that exchanges nothing retains the document.** -/
theorem RetainedBy.change {edit : Edit} (hplaces : edit.keepsPlaces = true)
    (h : d.Change edit d') : d.RetainedBy d' := by
  have hd : d.RetainedBy d := .refl d
  cases h with
  -- What is declared stands behind what was there.
  | addEntity => exact { hd with entities := hd.entities.append _ }
  | addEnumeration => exact { hd with enums := (List.prefix_append _ _).map _ }
  | addBitfield => exact { hd with bitfields := (List.prefix_append _ _).map _ }
  | addRole allocated =>
    obtain ⟨_, _, _, rfl⟩ := RoleTree.allocate_eq_ok.1 allocated
    refine { hd with roles := ?_ }
    rw [RoleTree.map_declare fun _ => rfl]
    exact List.prefix_append _ _
  | addLanguage => exact { hd with languages := prefix_enter hd.languages _ }
  | addSourceFile => exact { hd with sourceFiles := prefix_enter hd.sourceFiles _ }
  -- What is written to has its handle and its name.
  | addEnumItem found | setEnumDoc found | setEnumValue found | swapEnumItems found =>
    exact { hd with enums := map_prefix_set found rfl }
  | addBitItem found | setBitfieldTexts found =>
    exact { hd with bitfields := map_prefix_set found rfl }
  | setRoleDoc found =>
    exact { hd with roles := map_prefix_set found rfl }
  | onEntity addressed found edited =>
    refine { hd with entities := hd.entities.set found fun e₀ he₀ hretained => ?_ }
    exact hretained.trans (.perform hplaces edited)
  | swapEntities | swapEnumerations | swapBitfields => cases hplaces

/-- **Linking retains the document.** -/
theorem RetainedBy.link {options : LinkOptions} {l : LinkedDocument}
    (h : d.link options = .ok l) : d.RetainedBy l.document := by
  have hkept := link_keeps h
  obtain ⟨_, henums, _⟩ := headings_of_link h
  constructor
  case entities =>
    intro i e he
    have hat := congrArg (fun es : List Entity => es[i]?) hkept.entities
    simp only [List.getElem?_map, he, Option.map_some] at hat
    obtain ⟨e', he', hsame⟩ := Option.map_eq_some_iff.1 hat
    have hidentity : e'.unlinked.identity = e.unlinked.identity := congrArg Entity.identity hsame
    have hfields : e'.unlinked.fields.map Field.identity = e.unlinked.fields.map Field.identity :=
      congrArg (List.map Field.identity ∘ Entity.fields) hsame
    rw [Entity.unlinked_fields, Entity.unlinked_fields, List.map_map, List.map_map] at hfields
    have hretained : e.fields.map Field.identity = e'.fields.map Field.identity := hfields.symm
    exact ⟨e', he', hidentity, hretained ▸ List.prefix_rfl⟩
  case enums =>
    let identity (h : Heading .enumeration Unit) := (h.id, h.name, h.canonical)
    have hmap := congrArg (List.map identity) henums
    rw [List.map_map, List.map_map] at hmap
    have hretained : l.document.enums.map Enumeration.identity =
        d.enums.map Enumeration.identity := hmap
    exact hretained ▸ List.prefix_rfl
  case bitfields => exact hkept.bitfields ▸ List.prefix_rfl
  case roles => exact hkept.roles ▸ List.prefix_rfl
  case languages => exact hkept.languages ▸ List.prefix_rfl
  case sourceFiles => exact hkept.sourceFiles ▸ List.prefix_rfl

/-! ### Acts -/

/-- **An act is refused and changes nothing, or it is a change or a link.** -/
theorem after_of_outcomes {p : Document → Prop} {act : Act} (hrefused : p d)
    (hedit : ∀ edit d', act = .edit edit → d.Change edit d' → p d')
    (hlink : ∀ options l, act = .relink options → d.link options = .ok l → p l.document) :
    p (d.after act) := by
  rw [after]
  split
  · next r d' hact =>
    cases act with
    | edit edit => exact hedit edit d' rfl (change_of_perform hact)
    | relink options =>
      simp only [Document.act, bind_eq_ok, attempt_eq_ok, pure_eq_ok] at hact
      obtain ⟨l, hl, hd'⟩ := hact
      obtain ⟨_, rfl⟩ := Prod.mk.inj hd'
      exact hlink options l rfl hl
  · exact hrefused

theorem RetainedBy.after {act : Act} (hplaces : act.keepsPlaces = true) :
    d.RetainedBy (d.after act) := by
  refine after_of_outcomes (.refl d) ?_ ?_
  · rintro edit d' rfl hchange
    exact .change hplaces hchange
  · rintro options l rfl hlink
    exact .link hlink

/-- **A run that exchanges nothing retains the document.** -/
theorem RetainedBy.run {acts : List Act} (hplaces : acts.all Act.keepsPlaces = true) :
    d.RetainedBy (d.run acts) := by
  induction acts using List.reverseRecOn with
  | nil => exact .refl d
  | append_singleton acts act ih =>
    rw [List.all_append, List.all_cons, List.all_nil, Bool.and_true, Bool.and_eq_true] at hplaces
    rw [run_concat]
    exact (ih hplaces.1).trans (.after hplaces.2)

theorem run_append (d : Document) (before after : List Act) :
    d.run (before ++ after) = (d.run before).run after := List.foldl_append

end Document

/-! ### Places -/

namespace Entity

variable {e e' : Entity} {edit : EntityEdit} {r : Receipt}

/-- The fields hold the handles of their places. -/
def FieldsPlaced (e : Entity) : Prop :=
  ∀ (i : Nat) (f : Field), e.fields[i]? = some f → f.id.entity = e.id ∧ f.id.index = i

theorem fieldsPlaced_iff :
    e.FieldsPlaced ↔ (∀ f ∈ e.fields, f.id.entity = e.id) ∧ Positioned (·.id.index) e.fields := by
  constructor
  · intro h
    refine ⟨fun f hf => ?_, fun i f hf => (h i f hf).2⟩
    obtain ⟨i, hi⟩ := List.getElem?_of_mem hf
    exact (h i f hi).1
  · rintro ⟨hentity, hplace⟩ i f hf
    exact ⟨hentity f (List.mem_of_getElem? hf), hplace i f hf⟩

theorem fieldsPlaced_declare (id : Handle .entity) (name : String) :
    (declare id name).FieldsPlaced := by
  intro i f hf
  rw [declare, List.getElem?_nil] at hf
  cases hf

/-- **A new field is allocated for the next place**, and no other edit writes the handle of a
field. -/
theorem FieldsPlaced.perform (he : e.FieldsPlaced) (horder : edit.keepsOrder = true)
    (h : e.perform edit = .ok (r, e')) : e'.FieldsPlaced := by
  obtain ⟨hentity, hplace⟩ := fieldsPlaced_iff.1 he
  cases change_of_perform h with
  | @addField name id fresh allocated =>
    obtain ⟨hid, hindex⟩ := FieldId.allocate_eq_ok.1 allocated
    refine fieldsPlaced_iff.2 ⟨?_, hplace.concat hindex⟩
    rw [List.forall_mem_append, List.forall_mem_singleton]
    exact ⟨hentity, hid⟩
  | onField addressed found edited =>
    obtain ⟨hid, _⟩ := Field.identity_of_perform edited
    have hfound := hentity _ (List.mem_of_getElem? found)
    refine fieldsPlaced_iff.2 ⟨forall_mem_set hentity ?_, hplace.set found ?_⟩
    · rw [hid, hfound]
    · rw [hid]
  | swapFields => cases horder
  | addSearch | addUpdate | addDelete | addUnique | grant | onSearch | onUpdate | onDelete
  | setUniqueFields | setInsert | setDoc | setHeight =>
    -- These write other parts of the entity.
    exact he

end Entity

namespace Document

variable {d d' : Document}

theorem placed_empty : Placed {} := ⟨nofun, nofun, nofun, nofun⟩

namespace Placed

variable (hd : d.Placed)

include hd

theorem entities : Positioned (fun e : Entity => e.id.index) d.entities := hd.entity

theorem enums : Positioned (fun e : Enumeration => e.id.index) d.enums := hd.enumeration

theorem bitfields : Positioned (fun b : Bitfield => b.id.index) d.bitfields := hd.bitfield

theorem fields {e : Entity} (he : e ∈ d.entities) :
    Positioned (fun f : Field => f.id.index) e.fields :=
  fun i f hf => (hd.field e he i f hf).2

end Placed

/-- **A new declaration is allocated for the next place**, and no edit writes the handle of a
declaration. -/
theorem Placed.change {edit : Edit} (hd : d.Placed) (hplaces : edit.keepsPlaces = true)
    (h : d.Change edit d') : d'.Placed := by
  have hfields : ∀ e ∈ d.entities, e.FieldsPlaced := hd.field
  cases h with
  | addEntity fresh allocated =>
    have hindex := Handle.allocate_eq_ok.1 allocated
    refine { hd with entity := hd.entities.concat hindex, field := ?_ }
    rw [List.forall_mem_append, List.forall_mem_singleton]
    exact ⟨hfields, Entity.fieldsPlaced_declare _ _⟩
  | addEnumeration fresh allocated =>
    have hindex := Handle.allocate_eq_ok.1 allocated
    exact { hd with enumeration := hd.enums.concat hindex }
  | addBitfield fresh allocated =>
    have hindex := Handle.allocate_eq_ok.1 allocated
    exact { hd with bitfield := hd.bitfields.concat hindex }
  | addEnumItem found | setEnumDoc found | setEnumValue found | swapEnumItems found =>
    exact { hd with enumeration := hd.enums.set found rfl }
  | addBitItem found | setBitfieldTexts found =>
    exact { hd with bitfield := hd.bitfields.set found rfl }
  | onEntity addressed found edited =>
    have hidentity := (Entity.RetainedBy.perform hplaces edited).identity
    have hid := congrArg Prod.fst hidentity
    refine { hd with entity := hd.entities.set found (congrArg Handle.index hid), field := ?_ }
    exact forall_mem_set hfields ((hfields _ (List.mem_of_getElem? found)).perform hplaces edited)
  | addRole | addLanguage | addSourceFile | setRoleDoc =>
    -- These write other parts of the document.
    exact { hd with }
  | swapEntities | swapEnumerations | swapBitfields => cases hplaces

/-- **Handles are places** after any run that exchanges nothing. -/
theorem placed_run {acts : List Act} (hplaces : acts.all Act.keepsPlaces = true) :
    (run {} acts).Placed := by
  induction acts using List.reverseRecOn with
  | nil => exact placed_empty
  | append_singleton acts act ih =>
    rw [List.all_append, List.all_cons, List.all_nil, Bool.and_true, Bool.and_eq_true] at hplaces
    rw [run_concat]
    refine after_of_outcomes (ih hplaces.1) ?_ ?_
    · rintro edit d' rfl hchange
      exact (ih hplaces.1).change hplaces.2 hchange
    · rintro options l rfl hlink
      obtain ⟨bound, high, granted, s⟩ := link_eq_ok_iff.1 hlink
      exact s.placed

end Document

/-! ### Role trees -/

/-- The role without its documentation. -/
def Role.undocumented (r : Role) : Role := { r with doc := none }

namespace RoleTree

variable {t t' : RoleTree}

/-- **Documentation is nothing to a tree**: it is grown if a tree is that differs in documentation
only. -/
theorem Grown.congr (h : t.Grown) (hroots : t'.roots = t.roots)
    (hroles : t'.roles.map Role.undocumented = t.roles.map Role.undocumented) : t'.Grown := by
  have hlength : t'.roles.length = t.roles.length := by
    simpa using congrArg List.length hroles
  have hget (id : Handle .role) :
      (t'.get? id).map Role.undocumented = (t.get? id).map Role.undocumented := by
    rw [get?, get?, ← List.getElem?_map, ← List.getElem?_map, hroles]
  have hparent : t'.parent? = t.parent? := by
    funext id
    have hbind := congrArg (Option.bind · Role.parent) (hget id)
    rwa [Option.bind_map, Option.bind_map] at hbind
  have hlistedBy : t'.listedBy = t.listedBy := by
    funext id
    have hchildren := congrArg (Option.elim · [] Role.children) (hget id)
    rw [Option.elim_map, Option.elim_map] at hchildren
    exact congrArg (List.map _) hchildren
  have hmem : ∀ r ∈ t'.roles, ∃ r₀ ∈ t.roles, r₀.undocumented = r.undocumented := by
    intro r hr
    have hmap := List.mem_map_of_mem (f := Role.undocumented) hr
    rw [hroles] at hmap
    exact List.mem_map.1 hmap
  constructor
  case length_le =>
    rw [hlength]
    exact h.length_le
  case listed =>
    rw [listings, records, hroots, hlength, hlistedBy, hparent]
    exact h.listed
  case older =>
    rw [hparent]
    exact h.older
  case roots_sorted =>
    rw [hroots]
    exact h.roots_sorted
  case children_sorted =>
    intro id role hrole
    have hsame := hget id
    rw [hrole, Option.map_some, eq_comm, Option.map_eq_some_iff] at hsame
    obtain ⟨r₀, hr₀, heq⟩ := hsame
    have hchildren := congrArg Role.children heq
    exact hchildren ▸ h.children_sorted id r₀ hr₀
  case distinct =>
    have hnames := congrArg (List.map fun r : Role => Ident.fold r.name) hroles
    rw [List.map_map, List.map_map] at hnames
    exact (congrArg List.Nodup hnames).mpr h.distinct
  case implicits =>
    have hnames (roles : List Role) : (roles.filter Role.implicit).map Role.name =
        ((roles.map Role.undocumented).filter Role.implicit).map Role.name := by
      rw [List.filter_map, List.map_map]
      rfl
    rw [hnames, hroles, ← hnames, h.implicits]
  case implicit_root =>
    intro role hrole himplicit
    obtain ⟨r₀, hr₀, heq⟩ := hmem role hrole
    have hparent₀ := congrArg Role.parent heq
    have himplicit₀ := congrArg Role.implicit heq
    exact hparent₀.symm.trans (h.implicit_root r₀ hr₀ (himplicit₀.trans himplicit))
  case declared =>
    intro role hrole himplicit
    obtain ⟨r₀, hr₀, heq⟩ := hmem role hrole
    have hname₀ := congrArg Role.name heq
    have himplicit₀ := congrArg Role.implicit heq
    exact hname₀ ▸ h.declared r₀ hr₀ (himplicit₀.trans himplicit)

end RoleTree

/-- **The role tree is grown** after any run. -/
theorem Document.grown_run (acts : List Act) : (run {} acts).roles.Grown := by
  induction acts using List.reverseRecOn with
  | nil => exact RoleTree.grown_initial
  | append_singleton acts act ih =>
    rw [run_concat]
    refine after_of_outcomes (p := fun d => d.roles.Grown) ih ?_ ?_
    · intro edit d' _ hchange
      cases hchange with
      | addRole allocated => exact ih.allocate allocated
      | setRoleDoc found => exact ih.congr rfl (map_set_of_eq found rfl)
      | addEntity | addEnumeration | addBitfield | addLanguage | addSourceFile | addEnumItem
      | addBitItem | setEnumDoc | setEnumValue | setBitfieldTexts | swapEntities | swapEnumerations
      | swapBitfields | swapEnumItems | onEntity =>
        -- These write other parts of the document.
        exact ih
    · intro options l _ hlink
      rw [(link_keeps hlink).roles]
      exact ih

/-! ### An example -/

namespace Document

variable {d : Document}

/-- An entity with a new name is declared at the next place. -/
theorem after_addEntity {name : String} {id : Handle .entity}
    (hempty : name ≠ "") (hfree : Ident.fold name ∉ Ident.reservedWords)
    (hnew : ∀ used ∈ d.topLevelNames, Ident.fold used ≠ Ident.fold name)
    (hid : id.index = d.entities.length) :
    d.after (.edit (.addEntity name)) =
      { d with entities := d.entities ++ [Entity.declare id name] } := by
  have hunreserved : Ident.isReserved name = false := by
    rwa [Bool.eq_false_iff, Ne, Ident.isReserved_iff]
  have hfresh : Scope.topLevel.checkNew name d.topLevelNames = .ok () :=
    Scope.checkNew_eq_ok_iff.2 ⟨hempty, hunreserved, hnew⟩
  rw [after, act, perform, addEntity, hfresh, ok_bind, Handle.allocate_eq_ok.2 hid]
  rfl

/-- Two entities are declared. -/
def school : List Act := [.edit (.addEntity "pupil"), .edit (.addEntity "teacher")]

/-- The document of the two entities. -/
def schoolDocument : Document where
  entities := [.declare ⟨0, Handle.bound_pos⟩ "pupil", .declare ⟨1, Handle.one_lt_bound⟩ "teacher"]

theorem run_school : run {} school = schoolDocument := by
  have hfold : Ident.fold "pupil" = "pupil" ∧ Ident.fold "teacher" = "teacher" := by
    decide +kernel
  have hfree : "pupil" ∉ Ident.reservedWords ∧ "teacher" ∉ Ident.reservedWords := by
    simp only [Ident.reservedWords, List.mem_eraseDups]
    decide +kernel
  have hpupil : after {} (.edit (.addEntity "pupil")) =
      { entities := [.declare ⟨0, Handle.bound_pos⟩ "pupil"] } :=
    after_addEntity (by decide) (hfold.1.symm ▸ hfree.1)
      (fun _ hused => absurd hused List.not_mem_nil) rfl
  rw [school, run, List.foldl_cons, List.foldl_cons, List.foldl_nil, hpupil]
  refine after_addEntity (by decide) (hfold.2.symm ▸ hfree.2) (fun used hused => ?_) rfl
  obtain rfl : used = "pupil" := List.mem_singleton.1 hused
  rw [hfold.1, hfold.2]
  decide

end Document

end DataModel
