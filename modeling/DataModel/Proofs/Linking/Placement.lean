import DataModel.Linking.Placement
import DataModel.Proofs.Outcome

/-!
# Placement

`Document.checkPlacement_eq_ok_iff`: the first pass admits exactly the documents in which every
declaration holds the handle of its place (`Document.Placed`).  There the handle of a declaration
leads back to it: `Placed.entity?_id`, `Placed.field?_id`, `Placed.enumeration?_id` and
`Placed.bitfield?_id`.
-/

namespace DataModel

/-- Every declaration holds the handle of its place. -/
structure Document.Placed (d : Document) : Prop where
  entity : ∀ (i : Nat) (e : Entity), d.entities[i]? = some e → e.id.index = i
  field : ∀ e ∈ d.entities, ∀ (i : Nat) (f : Field), e.fields[i]? = some f →
    f.id.entity = e.id ∧ f.id.index = i
  enumeration : ∀ (i : Nat) (e : Enumeration), d.enums[i]? = some e → e.id.index = i
  bitfield : ∀ (i : Nat) (b : Bitfield), d.bitfields[i]? = some b → b.id.index = i

/-! ### The checks -/

/-- A check of the members at their places succeeds if it succeeds at every place. -/
theorem forM_zipIdx_eq_ok {α : Type} {check : α × Nat → Except Error Unit} {as : List α}
    {u : Unit} : as.zipIdx.forM check = .ok u ↔
      ∀ (i : Nat) (a : α), as[i]? = some a → check (a, i) = .ok () := by
  rw [forM_eq_ok]
  constructor
  · intro h i a ha
    exact h (a, i) (List.mk_mem_zipIdx_iff_getElem?.2 ha)
  · rintro h ⟨a, i⟩ ha
    exact h i a (List.mk_mem_zipIdx_iff_getElem?.1 ha)

theorem Handle.checkPlace_eq_ok {k : Handle.Kind} {id : Handle k} {name : String} {position : Nat}
    {u : Unit} : id.checkPlace name position = .ok u ↔ id.index = position := by
  rw [checkPlace]
  split_ifs with h
  · simpa using h
  · simpa using h

/-- A position with a handle has the handle of the position. -/
theorem FieldId.allocate_eq_ok {entity : Handle .entity} {n : Nat} {id : FieldId} :
    FieldId.allocate entity n = .ok id ↔ id.entity = entity ∧ id.index = n := by
  rw [allocate, ← ofIndex?_eq_some_iff]
  cases ofIndex? entity n with
  | none => simp
  | some id' => simp

theorem Field.checkPlace_eq_ok {e : Entity} {position : Nat} {f : Field} {u : Unit} :
    f.checkPlace e position = .ok u ↔ f.id.entity = e.id ∧ f.id.index = position := by
  rw [checkPlace, bind_eq_ok, ← FieldId.allocate_eq_ok]
  constructor
  · rintro ⟨id, hid, h⟩
    split_ifs at h with hne
    · simp at h
    · rwa [not_not.1 hne]
  · intro h
    refine ⟨f.id, h, ?_⟩
    rw [if_neg (not_not.2 rfl)]
    rfl

theorem Entity.checkPlace_eq_ok {position : Nat} {e : Entity} {u : Unit} :
    e.checkPlace position = .ok u ↔ e.id.index = position ∧
      ∀ (i : Nat) (f : Field), e.fields[i]? = some f → f.id.entity = e.id ∧ f.id.index = i := by
  simp only [checkPlace, bind_eq_ok, Handle.checkPlace_eq_ok, forM_zipIdx_eq_ok,
    Field.checkPlace_eq_ok, exists_and_left, exists_const]

/-- **The first pass admits the documents whose handles are places.** -/
theorem Document.checkPlacement_eq_ok_iff {d : Document} {u : Unit} :
    d.checkPlacement = .ok u ↔ d.Placed := by
  simp only [checkPlacement, bind_eq_ok, forM_zipIdx_eq_ok, Entity.checkPlace_eq_ok,
    Handle.checkPlace_eq_ok, exists_and_left, exists_const]
  constructor
  · rintro ⟨hentities, henums, hbitfields⟩
    refine ⟨fun i e he => (hentities i e he).1, fun e he => ?_, henums, hbitfields⟩
    obtain ⟨i, hi⟩ := List.mem_iff_getElem?.1 he
    exact (hentities i e hi).2
  · intro hd
    refine ⟨fun i e he => ⟨hd.entity i e he, ?_⟩, hd.enumeration, hd.bitfield⟩
    exact hd.field e (List.mem_of_getElem? he)

/-! ### Handles lead back -/

namespace Document.Placed

variable {d : Document} (hd : d.Placed)

include hd

theorem entity?_id {e : Entity} (he : e ∈ d.entities) : d.entity? e.id = some e := by
  obtain ⟨i, hi⟩ := List.mem_iff_getElem?.1 he
  rw [entity?, hd.entity i e hi, hi]

theorem field?_id {e : Entity} (he : e ∈ d.entities) {f : Field} (hf : f ∈ e.fields) :
    d.field? f.id = some f := by
  obtain ⟨i, hi⟩ := List.mem_iff_getElem?.1 hf
  obtain ⟨hentity, hindex⟩ := hd.field e he i f hi
  rw [field?, hentity, hd.entity?_id he, Option.bind_some, hindex, hi]

theorem enumeration?_id {e : Enumeration} (he : e ∈ d.enums) : d.enumeration? e.id = some e := by
  obtain ⟨i, hi⟩ := List.mem_iff_getElem?.1 he
  rw [enumeration?, hd.enumeration i e hi, hi]

theorem bitfield?_id {b : Bitfield} (hb : b ∈ d.bitfields) : d.bitfield? b.id = some b := by
  obtain ⟨i, hi⟩ := List.mem_iff_getElem?.1 hb
  rw [bitfield?, hd.bitfield i b hi, hi]

end Document.Placed

end DataModel
