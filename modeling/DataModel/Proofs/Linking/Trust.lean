import DataModel.Proofs.Identifiers
import DataModel.Proofs.Linking.Preservation
import DataModel.Proofs.Naming.Scopes

/-!
# Trusted linking

A link can take the naming rules on trust.  `Document.link_recheck` says when that is safe: a
document that was declared step by step links with the rules checked again exactly as it links
without, unless some entity has two row identifiers, which nothing refuses when it is declared.
Then the first such entity is reported.

The document is *declared* (`Document.Declared`) if edits lead to it from a new one, none of which
exchanges members of a list or replaces the fields of a unique constraint.  Such a document is
*sound* (`Document.Declared.sound`): its handles are places, the names of every scope replay, its
unique constraints differ, and its bits are in range.  A sound document is checked in vain, row
identifiers apart (`Document.Sound.checkDeclared_eq`).
-/

namespace DataModel

/-! ### Unique constraints -/

namespace Unique

variable {u : Unique} {us : List Unique} {seen : List String}

/-- The constraint is over two fields at least and names none of them twice. -/
def WellFormed (u : Unique) : Prop := 2 ≤ u.fields.length ∧ u.repeatedField? = none

/-- **Constraints are admitted** if each is well formed and their keys differ. -/
theorem checkDeclared_eq_ok_iff : checkDeclared seen us = .ok () ↔
    (∀ u ∈ us, u.WellFormed) ∧ (us.map key).Nodup ∧ ∀ u ∈ us, u.key ∉ seen := by
  induction us generalizing seen with
  | nil => simp [checkDeclared]
  | cons u us ih =>
    rw [checkDeclared, List.map_cons, List.nodup_cons, List.forall_mem_cons, List.forall_mem_cons,
      WellFormed]
    cases hrepeated : u.repeatedField? with
    | some field =>
      split_ifs <;> simp
    | none =>
      simp only [and_true]
      split_ifs with hlength hseen
      · have hshort : ¬2 ≤ u.fields.length := by omega
        simp [hshort]
      · have hmem : u.key ∈ seen := List.elem_iff.1 hseen
        simp [hmem]
      · have hmem : u.key ∉ seen := fun hmem => hseen (List.elem_iff.2 hmem)
        have hlong : 2 ≤ u.fields.length := by omega
        rw [ih]
        constructor
        · rintro ⟨hformed, hnodup, hnew⟩
          refine ⟨⟨hlong, hformed⟩, ⟨fun hold => ?_, hnodup⟩, hmem, fun v hv hold => ?_⟩
          · obtain ⟨v, hv, hsame⟩ := List.mem_map.1 hold
            exact hnew v hv (List.mem_append_right _ (List.mem_singleton.2 hsame))
          · exact hnew v hv (List.mem_append_left _ hold)
        · rintro ⟨⟨-, hformed⟩, ⟨hnew, hnodup⟩, -, hold⟩
          refine ⟨hformed, hnodup, fun v hv hmem' => ?_⟩
          rcases List.mem_append.1 hmem' with hseen | hsame
          · exact hold v hv hseen
          · exact hnew (List.mem_singleton.1 hsame ▸ List.mem_map_of_mem hv)

/-- **A constraint that is declared is admitted later** behind those that were declared before. -/
theorem checkDeclared_concat {scope : Scope} (hus : checkDeclared [] us = .ok ())
    (hu : u.WellFormed) (hunused : scope.checkUnused u.key (us.map key) = .ok ()) :
    checkDeclared [] (us ++ [u]) = .ok () := by
  obtain ⟨hformed, hnodup, -⟩ := checkDeclared_eq_ok_iff.1 hus
  refine checkDeclared_eq_ok_iff.2 ⟨?_, ?_, fun _ _ => List.not_mem_nil⟩
  · rw [List.forall_mem_append, List.forall_mem_singleton]
    exact ⟨hformed, hu⟩
  · rw [List.map_append, List.map_singleton, List.nodup_append_comm, List.singleton_append,
      List.nodup_cons]
    refine ⟨fun hold => ?_, hnodup⟩
    exact Scope.checkUnused_eq_ok_iff.1 hunused _ hold rfl

end Unique

/-! ### Declared documents -/

/-- The edit does not replace the fields of a unique constraint. -/
def EntityEdit.keepsKeys : EntityEdit → Bool
  | .setUniqueFields _ _ => false
  | _ => true

/-- The edit does not replace the fields of a unique constraint. -/
def Edit.keepsKeys : Edit → Bool
  | .onEntity _ edit => edit.keepsKeys
  | _ => true

/-- Edits lead to the document from a new one, none of which exchanges members of a list or replaces
the fields of a unique constraint. -/
inductive Document.Declared : Document → Prop
  | new : Declared {}
  | edit {d d' : Document} {edit : Edit} {r : Receipt} (declared : Declared d)
      (keepsOrder : edit.keepsOrder = true) (keepsKeys : edit.keepsKeys = true)
      (performed : d.perform edit = .ok (r, d')) : Declared d'

/-! ### Entities -/

namespace Entity

variable {e e' : Entity} {edit : EntityEdit} {r : Receipt}

/-- The fields of the entity hold the handles of their places, and its unique constraints are
admitted. -/
structure Sound (e : Entity) : Prop where
  field : ∀ (i : Nat) (f : Field), e.fields[i]? = some f → f.id.entity = e.id ∧ f.id.index = i
  uniques : Unique.checkDeclared [] e.uniques = .ok ()

theorem sound_declare (id : Handle .entity) (name : String) : (declare id name).Sound := by
  constructor
  · intro i f hf
    rw [declare, List.getElem?_nil] at hf
    cases hf
  · rw [declare, Unique.checkDeclared]

/-- **No edit of a declared entity makes it unsound.** -/
theorem Sound.perform (he : e.Sound) (horder : edit.keepsOrder = true)
    (hkeys : edit.keepsKeys = true) (h : e.perform edit = .ok (r, e')) : e'.Sound := by
  cases change_of_perform h with
  | @addField name id fresh allocated =>
    obtain ⟨hentity, hindex⟩ := FieldId.allocate_eq_ok.1 allocated
    refine { he with field := fun i f hf => ?_ }
    rcases Nat.lt_or_ge i e.fields.length with hi | hi
    · rw [List.getElem?_append_left hi] at hf
      exact he.field i f hf
    · rw [List.getElem?_append_right hi, List.getElem?_singleton] at hf
      split_ifs at hf with hlast
      obtain rfl := Option.some.inj hf
      refine ⟨hentity, ?_⟩
      show id.index = i
      omega
  | @addUnique fields u isOf long once fresh =>
    have hlong : 2 ≤ u.fields.length := by
      rwa [← isOf, Unique.ofTexts, List.length_map]
    exact { he with uniques := Unique.checkDeclared_concat he.uniques ⟨hlong, once⟩ fresh }
  | @onField ref edit n f f' addressed found edited =>
    have hids : (e.fields.set n f').map Field.id = e.fields.map Field.id :=
      map_set_of_eq found (Field.identity_of_perform edited).1
    refine { he with field := fun i g hg => ?_ }
    have hold : (e.fields.map Field.id)[i]? = some g.id := by
      rw [← hids, List.getElem?_map, hg, Option.map_some]
    rw [List.getElem?_map] at hold
    obtain ⟨g', hg', hid⟩ := Option.map_eq_some_iff.1 hold
    rw [← hid]
    exact he.field i g' hg'
  | swapFields => cases horder
  | setUniqueFields => cases hkeys
  | addSearch | addUpdate | addDelete | grant | onSearch | onUpdate | onDelete | setInsert | setDoc
  | setHeight =>
    -- These write neither the fields nor the unique constraints.
    exact { he with }

end Entity

/-! ### Documents -/

namespace Document

variable {d d' : Document}

/-- The bits of the document are in range. -/
def BitsInRange (d : Document) : Prop :=
  ∀ b ∈ d.bitfields, ∀ i ∈ b.items, i.index.toNat ≤ maxBitIndex

/-- **Every edit keeps the bits in range.** -/
theorem BitsInRange.perform {edit : Edit} {r : Receipt} (hd : d.BitsInRange)
    (h : d.perform edit = .ok (r, d')) : d'.BitsInRange := by
  cases change_of_perform h with
  | addBitfield fresh allocated =>
    rw [BitsInRange, List.forall_mem_append, List.forall_mem_singleton]
    exact ⟨hd, nofun⟩
  | @addBitItem n name index doc labels b found fresh inRange =>
    have hindex : (UInt8.ofNat index.toNat).toNat ≤ maxBitIndex := by
      unfold maxBitIndex at *
      rw [UInt8.toNat_ofNat']
      omega
    refine forall_mem_set hd ?_
    rw [List.forall_mem_append, List.forall_mem_singleton]
    exact ⟨hd b (List.mem_of_getElem? found), hindex⟩
  | setBitfieldTexts found =>
    have hold := hd _ (List.mem_of_getElem? found)
    exact forall_mem_set hd hold
  | swapBitfields swapped =>
    intro b hb
    exact hd b ((perm_of_swapAt swapped).mem_iff.2 hb)
  | addEntity | addEnumeration | addRole | addLanguage | addSourceFile | addEnumItem | setEnumDoc
  | setEnumValue | setRoleDoc | swapEntities | swapEnumerations | swapEnumItems | onEntity =>
    -- These write other parts of the document.
    exact hd

/-- What a check of the declarations looks for is not in the document, row identifiers apart. -/
structure Sound (d : Document) : Prop where
  orderly : d.Orderly true
  entities : ∀ e ∈ d.entities, e.Sound
  bits : d.BitsInRange

/-- **Declared documents are sound.** -/
theorem Declared.sound (h : d.Declared) : d.Sound := by
  induction h with
  | new => exact ⟨orderly_empty, nofun, nofun⟩
  | @edit d d' edit r _ horder hkeys performed ih =>
    refine ⟨?_, ?_, ih.bits.perform performed⟩
    · have horderly := ih.orderly.perform performed
      rwa [horder] at horderly
    · refine forall_entities_of_perform Entity.sound_declare ?_ ih.entities performed
      rintro ref edit rfl e e' r he hedit
      exact he.perform horder hkeys hedit

namespace Sound

variable (hd : d.Sound)

include hd

/-- Handles of a sound document are places. -/
theorem places : d.Placed := by
  have hregistered := hd.orderly.registered
  constructor
  · intro i e he
    exact hregistered.entities.index_eq he
  · intro e he
    exact (hd.entities e he).field
  · intro i e he
    exact hregistered.enums.index_eq he
  · intro i b hb
    exact hregistered.bitfields.index_eq hb

/-- The names of every scope of a sound document are admitted together. -/
theorem checkDeclared_names (listing : Listing) :
    listing.scope.checkDeclared [] (d.namesInScope listing) = .ok () :=
  (Scope.replays_iff_checkDeclared.1 (hd.orderly.replays listing)).2

/-- **An entity of a sound document is admitted**, unless it has two row identifiers. -/
theorem checkDeclared_entity {e : Entity} (he : e ∈ d.entities) :
    e.checkDeclared =
      if 1 < e.fields.countP (·.flags.rowid) then fail (.multipleRowIds e.name) else .ok () := by
  have hpart (part : Entity.Part) : part.scope.checkDeclared [] (e.names part) = .ok () := by
    have hnames := hd.checkDeclared_names (.entity (.within e.id part))
    rwa [(names_within_entity hd.orderly.registered he part).2] at hnames
  have hfields : Scope.field.checkDeclared [] (e.fields.map Field.name) = .ok () := hpart .fields
  have hsearches : Scope.search.checkDeclared [] (e.searches.filterMap Search.name) = .ok () :=
    hpart .searches
  have hupdates : Scope.update.checkDeclared [] (e.updates.filterMap Mutation.name) = .ok () :=
    hpart .updates
  have hdeletes : Scope.delete.checkDeclared [] (e.deletes.filterMap Mutation.name) = .ok () :=
    hpart .deletes
  rw [Entity.checkDeclared, hfields, hsearches, hupdates, hdeletes, (hd.entities e he).uniques]
  rfl

theorem checkDeclared_enumeration {e : Enumeration} (he : e ∈ d.enums) :
    e.checkDeclared = .ok () := by
  have hnames := hd.checkDeclared_names (.enumeration (.within e.id ()))
  rwa [names_within_enumeration hd.orderly.registered he] at hnames

theorem checkDeclared_bitfield {b : Bitfield} (hb : b ∈ d.bitfields) :
    b.checkDeclared = .ok () := by
  have hnames : Scope.bitItem.checkDeclared [] (b.items.map BitItem.name) = .ok () := by
    rw [← names_within_bitfield hd.orderly.registered hb]
    exact hd.checkDeclared_names (.bitfield (.within b.id ()))
  have hbits : (b.items.find? fun i => maxBitIndex < i.index.toNat) = none := by
    rw [List.find?_eq_none]
    intro i hi
    simpa using hd.bits b hb i hi
  rw [Bitfield.checkDeclared, hnames, ok_bind, hbits]
  rfl

/-- **A sound document is admitted**, unless an entity has two row identifiers.  The first such
entity is reported. -/
theorem checkDeclared_eq : d.checkDeclared =
    match d.entities.find? fun e => 1 < e.fields.countP (·.flags.rowid) with
    | some e => placed { entity := some e.name } (fail (.multipleRowIds e.name))
    | none => .ok () := by
  have htop : Scope.topLevel.checkDeclared [] d.topLevelNames = .ok () :=
    hd.checkDeclared_names (.entity .top)
  have hentity (e : Entity) (he : e ∈ d.entities) (hone : ¬1 < e.fields.countP (·.flags.rowid)) :
      placed { entity := some e.name } e.checkDeclared = .ok () := by
    rw [hd.checkDeclared_entity he, if_neg hone]
    rfl
  split
  · next e hfind =>
    obtain ⟨htwo, before, after, hsplit, hbefore⟩ := List.find?_eq_some_iff_append.1 hfind
    have he : e ∈ d.entities := List.mem_of_find?_eq_some hfind
    have hfirst : d.entities.forM (fun e => placed { entity := some e.name } e.checkDeclared) =
        placed { entity := some e.name } (fail (.multipleRowIds e.name)) := by
      rw [hsplit]
      refine forM_eq_error (fun b hb => ?_) ?_
      · have hmem : b ∈ d.entities := hsplit ▸ List.mem_append_left _ hb
        exact hentity b hmem (by simpa using hbefore b hb)
      · rw [hd.checkDeclared_entity he, if_pos (of_decide_eq_true htwo)]
        rfl
    rw [checkDeclared, htop, ok_bind, hfirst]
    rfl
  · next hfind =>
    rw [List.find?_eq_none] at hfind
    refine checkDeclared_eq_ok_iff.2 ⟨htop, fun e he => ?_,
      fun e he => hd.checkDeclared_enumeration he, fun b hb => hd.checkDeclared_bitfield hb⟩
    exact placed_eq_ok.1 (hentity e he (by simpa using hfind e he))

end Sound

/-- **The rules need not be checked again** for a document that was declared step by step: with the
check it links as it links without, unless an entity has two row identifiers.  Then the check
reports the first such entity. -/
theorem link_recheck (hd : d.Declared) (options : LinkOptions) :
    d.link { options with recheck := true } =
      match d.entities.find? fun e => 1 < e.fields.countP (·.flags.rowid) with
      | some e => .error {
          cause := .multipleRowIds e.name
          context := some { pass := some .declarations, entity := some e.name } }
      | none => d.link { options with recheck := false } := by
  have hplaced : d.checkPlacement = .ok () := checkPlacement_eq_ok_iff.2 hd.sound.places
  have hdeclared := hd.sound.checkDeclared_eq
  split
  · next e hfind =>
    rw [hfind] at hdeclared
    rw [link, bindUpToRoles, hplaced, ok_bind, if_pos rfl, hdeclared]
    rfl
  · next hfind =>
    rw [hfind] at hdeclared
    rw [link, link, bindUpToRoles, bindUpToRoles, hplaced, ok_bind, ok_bind, if_pos rfl, hdeclared]
    rfl

/-! ### An example -/

/-- A document of one entity. -/
def person (fields : List Field) : Document :=
  { entities := [{ Entity.declare ⟨0, Handle.bound_pos⟩ "person" with fields }] }

/-- A field of the entity, at the place `i`. -/
def personField (i : Fin 2) (name : String) (rowid : Bool) : Field :=
  { id := ⟨⟨0, Handle.bound_pos⟩, i, Nat.lt_trans i.isLt (by decide)⟩, name, flags := { rowid } }

/-- The entity, its two fields and their attributes are declared one after the other. -/
theorem declared_person :
    Declared (person [personField 0 "id" true, personField 1 "code" true]) := by
  have hfold : Ident.fold "person" = "person" ∧ Ident.fold "id" = "id" ∧
      Ident.fold "code" = "code" := by
    decide +kernel
  have hwords : "person" ∉ Ident.reservedWords ∧ "id" ∉ Ident.reservedWords ∧
      "code" ∉ Ident.reservedWords := by
    simp only [Ident.reservedWords, List.mem_eraseDups]
    decide +kernel
  have hfree (name : String) (h : Ident.fold name ∉ Ident.reservedWords) :
      Ident.isReserved name = false := by
    rwa [← Bool.not_eq_true, Ident.isReserved_iff]
  have hperson : ({} : Document).perform (.addEntity "person") = .ok (.position 0, person []) := by
    have hcheck : Scope.topLevel.checkNew "person" [] = .ok () :=
      Scope.checkNew_eq_ok_iff.2 ⟨by decide, hfree _ (by simp [hfold, hwords]), List.forall_mem_nil _⟩
    rw [perform, addEntity, show topLevelNames {} = [] from rfl, hcheck]
    rfl
  have hfield (fields : List Field) (i : Fin 2) (name : String) (hi : fields.length = i)
      (hcheck : Scope.field.checkNew name (fields.map Field.name) = .ok ()) :
      (person fields).perform (.onEntity (.handle ⟨0, by decide⟩) (.addField name)) =
        .ok (.field (personField i name false).id,
          person (fields ++ [personField i name false])) := by
    have hid : FieldId.allocate ⟨0, by decide⟩ fields.length =
        .ok (personField i name false).id :=
      FieldId.allocate_eq_ok.2 ⟨rfl, hi.symm⟩
    refine perform_onEntity_eq_ok.2 ⟨0, rfl, _, rfl, _, ?_, rfl⟩
    rw [Entity.perform, Entity.addField_eq_ok.2 ⟨hcheck, hid, rfl⟩]
    rfl
  have hid := hfield [] 0 "id" rfl
    (Scope.checkNew_eq_ok_iff.2 ⟨by decide, hfree _ (by simp [hfold, hwords]), List.forall_mem_nil _⟩)
  have hcode := hfield [personField 0 "id" false] 1 "code" rfl
    (Scope.checkNew_eq_ok_iff.2
      ⟨by decide, hfree _ (by simp [hfold, hwords]), by simp [personField, hfold]⟩)
  have hfirst : (person [personField 0 "id" false, personField 1 "code" false]).perform
      (.onEntity (.handle ⟨0, by decide⟩) (.onField (.position 0) (.setFlag .rowid true))) =
        .ok (.nothing, person [personField 0 "id" true, personField 1 "code" false]) := rfl
  have hsecond : (person [personField 0 "id" true, personField 1 "code" false]).perform
      (.onEntity (.handle ⟨0, by decide⟩) (.onField (.position 1) (.setFlag .rowid true))) =
        .ok (.nothing, person [personField 0 "id" true, personField 1 "code" true]) := rfl
  have hdeclared := ((Declared.new.edit rfl rfl hperson).edit rfl rfl hid).edit rfl rfl hcode
  exact (hdeclared.edit rfl rfl hfirst).edit rfl rfl hsecond

/-- With two row identifiers the check makes the difference. -/
theorem link_recheck_person :
    let d := person [personField 0 "id" true, personField 1 "code" true]
    d.Declared ∧
      d.link .strict = .error {
        cause := .multipleRowIds "person"
        context := some { pass := some .declarations, entity := some "person" } } ∧
      ∃ l, d.link .trusted = .ok l := by
  obtain ⟨l, hl, -⟩ := exists_ok_of_any
    (r := (person [personField 0 "id" true, personField 1 "code" true]).link .trusted)
    (p := fun _ => true) (by decide +kernel)
  exact ⟨declared_person, link_recheck declared_person .strict, l, hl⟩

end Document

end DataModel
