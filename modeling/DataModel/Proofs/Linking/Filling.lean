import DataModel.Proofs.Linking.Fields
import DataModel.Proofs.Linking.Placement

/-!
# Filling in by handles

What was found for the fields of a document is collected under their handles, and filled in at the
places that these name.  Where every declaration holds the handle of its place, what was found for a
field comes to this field and to no other, so a document is bound field by field
(`Document.bindFields_eq`).

The induction is on what was found, entity by entity and field by field.  It goes through the
document from the front, with everything before the present place filled in.
-/

namespace DataModel

theorem modify_append_cons {α : Type} (before after : List α) (a : α) (g : α → α) :
    (before ++ a :: after).modify before.length g = before ++ g a :: after := by
  induction before with
  | nil => rfl
  | cons b before ih => rw [List.cons_append, List.length_cons, List.modify_succ_cons, ih]; rfl

/-- What was found for a field stands under its handle. -/
def Field.Found (f : Field) (bs : List (FieldId × Binding)) : Prop := ∀ b ∈ bs, b.1 = f.id

/-- The entity with what was found for its fields, one after the other. -/
def Entity.fillAll (e : Entity) (found : List (List (FieldId × Binding))) : Entity :=
  { e with fields := List.zipWith Field.fillAll e.fields found }

namespace Document

variable {d : Document} {e : Entity} {before after : List Entity}

/-- What stands under the handle of a place is filled in at the place. -/
theorem foldl_fill_field {f : Field} {done rest : List Field} {bs : List (FieldId × Binding)}
    (hbs : ∀ b ∈ bs, b.1.entity.index = before.length ∧ b.1.index = done.length) :
    bs.foldl fill
        { d with entities := before ++ { e with fields := done ++ f :: rest } :: after } =
      { d with
        entities := before ++ { e with fields := done ++ f.fillAll bs :: rest } :: after } := by
  induction bs generalizing f with
  | nil => rfl
  | cons b bs ih =>
    rw [List.forall_mem_cons] at hbs
    rw [List.foldl_cons, fill, hbs.1.1, hbs.1.2, modify_append_cons]
    simp only [modify_append_cons]
    exact ih hbs.2

/-- What was found for the fields of an entity is filled in at their places. -/
theorem foldl_fill_fields {done fs : List Field} {found : List (List (FieldId × Binding))}
    (he : e.id.index = before.length) (hfound : List.Forall₂ Field.Found fs found)
    (hfs : ∀ (i : Nat) (f : Field), fs[i]? = some f →
      f.id.entity = e.id ∧ f.id.index = done.length + i) :
    found.flatten.foldl fill
        { d with entities := before ++ { e with fields := done ++ fs } :: after } =
      { d with
        entities := before ++
          { e with fields := done ++ List.zipWith Field.fillAll fs found } :: after } := by
  induction hfound generalizing done with
  | nil => rfl
  | @cons f bs fs found hf _ ih =>
    have hplace : ∀ b ∈ bs, b.1.entity.index = before.length ∧ b.1.index = done.length := by
      intro b hb
      have hid := hfs 0 f rfl
      rw [hf b hb, hid.1, he, hid.2]
      exact ⟨rfl, rfl⟩
    have hrest : ∀ (i : Nat) (f' : Field), fs[i]? = some f' →
        f'.id.entity = e.id ∧ f'.id.index = (done ++ [f.fillAll bs]).length + i := by
      intro i f' hf'
      have hid := hfs (i + 1) f' hf'
      refine ⟨hid.1, ?_⟩
      rw [hid.2, List.length_append, List.length_singleton]
      omega
    have hfilled := ih hrest
    rw [List.append_assoc, List.append_assoc] at hfilled
    rw [List.flatten_cons, List.foldl_append, foldl_fill_field hplace]
    exact hfilled

/-- What was found for a document is filled in at the places of the fields. -/
theorem foldl_fill_entities {es : List Entity} {found : List (List (List (FieldId × Binding)))}
    (hfound : List.Forall₂ (fun e found => List.Forall₂ Field.Found e.fields found) es found)
    (hes : ∀ (i : Nat) (e : Entity), es[i]? = some e → e.id.index = before.length + i ∧
      ∀ (j : Nat) (f : Field), e.fields[j]? = some f → f.id.entity = e.id ∧ f.id.index = j) :
    found.flatten.flatten.foldl fill { d with entities := before ++ es } =
      { d with entities := before ++ List.zipWith Entity.fillAll es found } := by
  induction hfound generalizing before with
  | nil => rfl
  | @cons e bss es found he _ ih =>
    obtain ⟨hindex, hfields⟩ := hes 0 e rfl
    have hfs : ∀ (i : Nat) (f : Field), e.fields[i]? = some f →
        f.id.entity = e.id ∧ f.id.index = ([] : List Field).length + i := by
      intro i f hf
      rw [List.length_nil, Nat.zero_add]
      exact hfields i f hf
    have hrest : ∀ (i : Nat) (e' : Entity), es[i]? = some e' →
        e'.id.index = (before ++ [e.fillAll bss]).length + i ∧
        ∀ (j : Nat) (f : Field), e'.fields[j]? = some f →
          f.id.entity = e'.id ∧ f.id.index = j := by
      intro i e' he'
      have hid := hes (i + 1) e' he'
      refine ⟨?_, hid.2⟩
      rw [hid.1, List.length_append, List.length_singleton]
      omega
    have hfilled := ih hrest
    rw [List.append_assoc, List.append_assoc] at hfilled
    have hentity : bss.flatten.foldl fill { d with entities := before ++ e :: es } =
        { d with entities := before ++ e.fillAll bss :: es } :=
      @foldl_fill_fields d e before es [] e.fields bss hindex he hfs
    rw [List.flatten_cons, List.flatten_append, List.foldl_append, hentity]
    exact hfilled

end Document

/-! ### Field by field -/

/-- The entity with its fields bound. -/
def Entity.bindFields (d : Document) (e : Entity) : Except Error Entity := do
  let fields ← e.fields.mapM fun f =>
    placed { entity := some e.name, field := some f.name } (f.bind d e)
  return { e with fields }

/-- Binding an entity fills in what was found for it. -/
theorem Entity.bindFields_eq_map_resolve (d : Document) (e : Entity) :
    e.bindFields d = e.fillAll <$> e.fields.mapM fun f =>
      placed { entity := some e.name, field := some f.name } (f.resolve d e) := by
  simp only [bindFields, Field.bind_eq_map_resolve, placed_map, mapM_map_eq_zipWith, bind_map_left]
  rfl

/-- **A document whose handles are places is bound field by field.** -/
theorem Document.bindFields_eq {d : Document} (hd : d.Placed) :
    d.bindFields = (do
      let enums ← d.enums.mapM fun e => placed { entity := some e.name } e.number
      d.bitfields.forM fun b => placed { entity := some b.name } b.checkItems
      let entities ← d.entities.mapM fun e => e.bindFields { d with enums }
      return { d with enums, entities }) := by
  unfold bindFields
  refine bind_congr fun enums => bind_congr fun _ => ?_
  simp only [Entity.bindFields_eq_map_resolve, mapM_map_eq_zipWith, bind_map_left]
  cases hfound : d.entities.mapM fun e => e.fields.mapM fun f =>
      placed { entity := some e.name, field := some f.name } (f.resolve { d with enums } e) with
  | error err => rfl
  | ok found =>
    have hentities : List.Forall₂ (fun e bss => List.Forall₂ Field.Found e.fields bss)
        d.entities found := by
      refine (mapM_eq_ok.1 hfound).imp fun e bss h => ?_
      refine (mapM_eq_ok.1 h).imp fun f bs h => ?_
      exact Field.fst_of_mem_resolve (placed_eq_ok.1 h)
    have hplaced : ∀ (i : Nat) (e : Entity), d.entities[i]? = some e →
        e.id.index = ([] : List Entity).length + i ∧
        ∀ (j : Nat) (f : Field), e.fields[j]? = some f →
          f.id.entity = e.id ∧ f.id.index = j := by
      intro i e he
      rw [List.length_nil, Nat.zero_add]
      exact ⟨hd.entity i e he, hd.field e (List.mem_of_getElem? he)⟩
    exact congrArg Except.ok (@foldl_fill_entities { d with enums } [] _ found hentities hplaced)

end DataModel
