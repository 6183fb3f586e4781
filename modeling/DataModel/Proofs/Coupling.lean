import DataModel.Proofs.Editing
import DataModel.Proofs.Unlinked

/-!
# Coupled fields

The parts of a field say several things about one another: a field has a link to an enumeration
exactly if its type is `enum`, its default fits the type, and so on.  `Field.Coupled` puts these
conditions together.

They are kept by the edits of a field.  A new field is coupled (`Field.coupled_new`), no edit
uncouples a field (`Field.Coupled.perform`), and so every field of a document is coupled that was
built by edits (`Document.Built.coupled`).  Linked state has no part in it
(`Field.coupled_unlinked`, `Document.uncoupled_unlinked`).
-/

namespace DataModel

namespace Field

/-- The links, the source, the reference and the default of a field are those of its type. -/
structure Coupled (f : Field) : Prop where
  enumeration : f.enumeration.isSome = true ↔ f.type = .enum
  bitfield : f.bitfield.isSome = true ↔ f.type = .bitfield
  structSource : f.structSource.isSome = true ↔ f.type = .struct
  reference : f.type = .struct → f.reference = none
  default : ∀ v ∈ f.defaultValue, v.fits f.type = true

theorem coupled_iff {f : Field} : f.Coupled ↔
    ((f.enumeration.isSome = true ↔ f.type = .enum) ∧
      (f.bitfield.isSome = true ↔ f.type = .bitfield) ∧
      (f.structSource.isSome = true ↔ f.type = .struct)) ∧
    (f.type = .struct → f.reference = none) ∧ ∀ v ∈ f.defaultValue, v.fits f.type = true :=
  ⟨fun h => ⟨⟨h.enumeration, h.bitfield, h.structSource⟩, h.reference, h.default⟩,
    fun ⟨⟨he, hb, hs⟩, hr, hd⟩ => ⟨he, hb, hs, hr, hd⟩⟩

instance (f : Field) : Decidable f.Coupled := decidable_of_iff' _ coupled_iff

/-- **Linked state has no part in the coupling.** -/
theorem coupled_unlinked {f : Field} : f.unlinked.Coupled ↔ f.Coupled := by
  simp only [coupled_iff, unlinked, Option.isSome_map, Option.map_eq_none_iff]

/-- A new field is coupled. -/
theorem coupled_new (id : FieldId) (name : String) : Coupled { id, name } := by
  constructor
  all_goals simp

/-! ### Setters -/

variable {f f' : Field}

/-- A default that is left after a change of the type fits. -/
theorem fits_of_mem_retype {t : FieldType} {v : DefaultValue}
    (hv : v ∈ (f.retype t).defaultValue) : v.fits t = true :=
  (Option.mem_filter_iff.1 hv).2

/-- A field of a type that needs no name is coupled after the change to it. -/
theorem coupled_retype {t : FieldType} (ht : t.needsName = false) : (f.retype t).Coupled := by
  have hne (t' : FieldType) (ht' : t'.needsName = true) : t ≠ t' := by
    rintro rfl
    rw [ht] at ht'
    cases ht'
  constructor
  · simp [retype, hne .enum rfl]
  · simp [retype, hne .bitfield rfl]
  · simp [retype, hne .struct rfl]
  · exact fun h => absurd h (hne .struct rfl)
  · exact fun v hv => fits_of_mem_retype hv

theorem coupled_setType {t : FieldType} (h : f.setType t = .ok f') : f'.Coupled := by
  rw [setType] at h
  split_ifs at h with ht
  · exact absurd h failFlaw_ne_ok
  · obtain rfl := Except.ok.inj h
    exact coupled_retype (by simpa using ht)

theorem coupled_setEnumeration (f : Field) (name : String) : (f.setEnumeration name).Coupled := by
  refine ⟨?_, ?_, ?_, (fun h => nomatch h), fun v hv => fits_of_mem_retype hv⟩
  all_goals simp [setEnumeration, retype]

theorem coupled_setBitfield (f : Field) (name : String) : (f.setBitfield name).Coupled := by
  refine ⟨?_, ?_, ?_, (fun h => nomatch h), fun v hv => fits_of_mem_retype hv⟩
  all_goals simp [setBitfield, retype]

theorem coupled_setStruct {source : String} (h : f.setStruct source = .ok f') : f'.Coupled := by
  rw [setStruct] at h
  split_ifs at h with hr
  · exact absurd h failFlaw_ne_ok
  · obtain rfl := Except.ok.inj h
    have hnone : f.reference = none := by simpa using hr
    refine ⟨?_, ?_, ?_, fun _ => hnone, fun v hv => fits_of_mem_retype hv⟩
    all_goals simp [retype]

theorem Coupled.setReference {entity field : String} (hf : f.Coupled)
    (h : f.setReference entity field = .ok f') : f'.Coupled := by
  rw [Field.setReference] at h
  split_ifs at h with hstruct
  · exact absurd h failFlaw_ne_ok
  · obtain rfl := Except.ok.inj h
    exact { hf with reference := fun h => absurd h hstruct }

theorem Coupled.setDefault {value : DefaultValue} (hf : f.Coupled)
    (h : f.setDefault value = .ok f') : f'.Coupled := by
  rw [Field.setDefault] at h
  split_ifs at h with hfits
  · obtain rfl := Except.ok.inj h
    refine { hf with default := fun v hv => ?_ }
    obtain rfl := Option.some.inj hv
    exact hfits
  · exact absurd h fail_ne_ok

theorem Coupled.renameLink {name : String} (hf : f.Coupled)
    (h : f.renameLink name = .ok f') : f'.Coupled := by
  unfold Field.renameLink at h
  split at h
  case h_1 l hl =>
    obtain rfl := Except.ok.inj h
    exact { hf with enumeration := by simpa [hl] using hf.enumeration }
  case h_2 l _ hl =>
    obtain rfl := Except.ok.inj h
    exact { hf with bitfield := by simpa [hl] using hf.bitfield }
  case h_3 => cases h

/-! ### Edits -/

/-- **No edit uncouples a field.** -/
theorem Coupled.perform {edit : FieldEdit} (hf : f.Coupled) (h : f.perform edit = .ok f') :
    f'.Coupled := by
  cases edit with
  | setType t => exact coupled_setType (attempt_eq_ok.1 h)
  | setEnumeration name =>
    obtain rfl := Except.ok.inj h
    exact coupled_setEnumeration f name
  | setBitfield name =>
    obtain rfl := Except.ok.inj h
    exact coupled_setBitfield f name
  | setStruct source => exact coupled_setStruct (attempt_eq_ok.1 h)
  | setReference entity field => exact hf.setReference (attempt_eq_ok.1 h)
  | setDefault value => exact hf.setDefault (attempt_eq_ok.1 h)
  | renameSource name =>
    simp only [Field.perform, bind_eq_ok, orMissing_eq_ok, pure_eq_ok] at h
    obtain ⟨r, hr, rfl⟩ := h
    refine { hf with reference := fun hstruct => ?_ }
    rw [hf.reference hstruct] at hr
    cases hr
  | renameStructSource name =>
    simp only [Field.perform, bind_eq_ok, orMissing_eq_ok, pure_eq_ok] at h
    obtain ⟨s, hs, rfl⟩ := h
    exact { hf with structSource := by simpa [hs] using hf.structSource }
  | renameLink name => exact hf.renameLink h
  | addValidation | setFlag | setOnUpdate | setOnDelete | setDoc =>
    -- The parts that these edits write are not coupled to others.
    obtain rfl := Except.ok.inj h
    exact { hf with }

end Field

/-! ### Entities -/

namespace Entity

variable {e e' : Entity}

/-- Every field of the entity is coupled. -/
def Coupled (e : Entity) : Prop := ∀ f ∈ e.fields, f.Coupled

/-- **No edit uncouples a field of an entity.** -/
theorem Coupled.perform {edit : EntityEdit} {r : Receipt} (he : e.Coupled)
    (h : e.perform edit = .ok (r, e')) : e'.Coupled :=
  forall_fields_of_perform Field.coupled_new (fun _ _ _ hf h => hf.perform h) he h

end Entity

/-! ### Documents -/

namespace Document

variable {d : Document}

/-- Every field is coupled. -/
def Coupled (d : Document) : Prop := ∀ e ∈ d.entities, e.Coupled

/-- The names of the fields that are not coupled. -/
def uncoupled (d : Document) : List String :=
  ((d.entities.flatMap Entity.fields).filter fun f => !decide f.Coupled).map Field.name

theorem coupled_iff_uncoupled : d.Coupled ↔ d.uncoupled = [] := by
  simp only [Coupled, Entity.Coupled, uncoupled, List.map_eq_nil_iff, List.filter_eq_nil_iff,
    List.mem_flatMap, Bool.not_eq_true', decide_eq_false_iff_not, not_not, forall_exists_index,
    and_imp]
  exact ⟨fun h f e he hf => h e he f hf, fun h e he f hf => h f e he hf⟩

/-- **No edit uncouples a field of a document.** -/
theorem Coupled.perform {edit : Edit} {r : Receipt} {d' : Document} (hd : d.Coupled)
    (h : d.perform edit = .ok (r, d')) : d'.Coupled :=
  forall_entities_of_perform (fun _ _ _ hf => nomatch hf)
    (fun _ _ _ _ _ _ he h => he.perform h) hd h

/-- **The fields of a document that was built by edits are coupled.** -/
theorem Built.coupled (h : d.Built) : d.Coupled := by
  induction h with
  | new => exact fun e he => nomatch he
  | edit _ performed ih => exact ih.perform performed

/-- **Linked state has no part in what is coupled.** -/
theorem uncoupled_unlinked : d.unlinked.uncoupled = d.uncoupled := by
  have hfields : d.unlinked.entities.flatMap Entity.fields =
      (d.entities.flatMap Entity.fields).map Field.unlinked := by
    rw [unlinked, mapEntities_entities, List.flatMap_map, List.map_flatMap]
    rfl
  have hsame : ((fun f => !decide f.Coupled) ∘ Field.unlinked) = fun f => !decide f.Coupled := by
    funext f
    rw [Function.comp_apply, decide_eq_decide.2 Field.coupled_unlinked]
  rw [uncoupled, hfields, List.filter_map, hsame, List.map_map]
  rfl

theorem coupled_unlinked : d.unlinked.Coupled ↔ d.Coupled := by
  rw [coupled_iff_uncoupled, uncoupled_unlinked, ← coupled_iff_uncoupled]

end Document

/-! ### An example -/

/-- Tickets that persons own, and persons that live in cities.  When `apart` is set, seven fields of
the tickets are uncoupled, each in its own way: a link, a reference or a default too many, or a link
too few. -/
def Document.tickets (apart : Bool) : Document :=
  let needed {α : Type} (a : α) : Option α := if apart then none else some a
  let excess {α : Type} (a : α) : Option α := if apart then some a else none
  let handle {k : Handle.Kind} (i : Fin 9) : Handle k := ⟨i, Nat.lt_trans i.isLt (by decide)⟩
  let field (i k : Fin 9) : FieldId := ⟨handle i, k, Nat.lt_trans k.isLt (by decide)⟩
  let key (i : Fin 9) : Field := { id := field i 0, name := "id", flags := { rowid := true } }
  let refer (sourceField targetEntity targetField : String) : Reference :=
    { sourceField, targetEntity, targetField }
  { entities :=
      [{ Entity.declare (handle 0) "city" with fields := [key 0] },
        { Entity.declare (handle 1) "person" with
          fields :=
            [key 1,
              { id := field 1 1, name := "home", reference := some (refer "home" "city" "id") },
              { id := field 1 2, name := "place", type := .struct, flags := { unique := true },
                structSource := some { field := "home" } }] },
        { Entity.declare (handle 2) "ticket" with
          fields :=
            [key 2,
              { id := field 2 1, name := "state", type := .enum,
                enumeration := needed { name := "grades" } },
              { id := field 2 2, name := "rights", type := .bitfield,
                bitfield := needed { name := "badges" } },
              { id := field 2 3, name := "grade", enumeration := excess { name := "grades" } },
              { id := field 2 4, name := "marks", bitfield := excess { name := "badges" } },
              { id := field 2 5, name := "owner",
                reference := some (refer "owner" "person" "id") },
              { id := field 2 6, name := "copied", structSource := excess { field := "owner" } },
              { id := field 2 7, name := "origin", type := .struct,
                structSource := some { field := "owner" },
                reference := excess (refer "origin" "person" "place") },
              { id := field 2 8, name := "title", defaultValue := excess (.text "none") }] }]
    enums := [{ Enumeration.declare (handle 0) "grades" with items := [{ name := "low" }] }]
    bitfields :=
      [{ Bitfield.declare (handle 0) "badges" with
          items := [{ name := "gold", index := 0 }] }] }

example : (Document.tickets false).uncoupled = [] := by decide +kernel

end DataModel
