import DataModel.Proofs.Outcome
import DataModel.Proofs.Unlinked

/-!
# Binding one field

What it takes to find what a field names, part by part, and what is found:
`Field.resolveReference_some`, `Field.resolveStruct_some`, `Field.resolveEnumeration_some` and
`Field.resolveBitfield_some`.

`Field.bind` is the field with what its names stand for, in every part that it has
(`Field.bind_eq_map_resolve`).  `Field.bind_eq_ok_iff` puts the parts together, and nothing but the
bindings changes (`Field.unlinked_of_bind`).
-/

namespace DataModel

namespace Field

variable {d : Document} {e : Entity} {f f' : Field}

/-! ### The reference -/

/-- Without a reference nothing may be declared about changes of its target. -/
theorem resolveReference_none (hf : f.reference = none) {o : Option Reference.Binding} :
    f.resolveReference d e = .ok o ↔
      f.onUpdate = .undeclared ∧ f.onDelete = .undeclared ∧ o = none := by
  unfold resolveReference
  rw [hf]
  simp only [guardFlaw_eq_ok, pure_eq_ok, not_or, not_not, and_assoc, eq_comm (a := none)]

/-- A reference stands for the first field of the first entity of its names, which is a key of the
same type. -/
theorem resolveReference_some {r : Reference} (hf : f.reference = some r)
    {o : Option Reference.Binding} :
    f.resolveReference d e = .ok o ↔
      Ident.same r.sourceField f.name = true ∧
      ∃ target, d.findEntity? r.targetEntity = some target ∧
      ∃ key, target.field? r.targetField = some key ∧
        (key.isUniqueKey = true ∧ key.type = f.type) ∧
        (f.onUpdate = .nullify ∨ f.onDelete = .nullify → f.flags.null = true) ∧
        some ⟨key.id, f.id⟩ = o := by
  unfold resolveReference
  rw [hf]
  simp only [guardFlaw_eq_ok, guard_eq_ok, bind_eq_ok, orFail_eq_ok, pure_eq_ok, not_or, not_and,
    Bool.not_eq_true', Bool.not_eq_false, ne_eq, not_not]

/-! ### The struct source -/

theorem resolveStruct_none (hf : f.structSource = none) {o : Option StructSource.Binding} :
    f.resolveStruct d e = .ok o ↔ none = o := by
  unfold resolveStruct
  rw [hf]
  exact pure_eq_ok

/-- A struct source stands for the first local field of its name, which has a reference, and for the
entity that this reference names. -/
theorem resolveStruct_some {s : StructSource} (hf : f.structSource = some s)
    {o : Option StructSource.Binding} :
    f.resolveStruct d e = .ok o ↔
      ∃ carrier, e.field? s.field = some carrier ∧
      ∃ r, carrier.reference = some r ∧
      ∃ embedded, d.findEntity? r.targetEntity = some embedded ∧
        some ⟨carrier.id, embedded.id⟩ = o := by
  unfold resolveStruct
  rw [hf]
  simp only [bind_eq_ok, orFail_eq_ok, pure_eq_ok]

/-! ### The links -/

theorem resolveEnumeration_none (hf : f.enumeration = none) {o : Option (Handle .enumeration)} :
    f.resolveEnumeration d = .ok o ↔ none = o := by
  unfold resolveEnumeration
  rw [hf]
  exact pure_eq_ok

/-- A link to an enumeration stands for the first of its name, and the default is among the values
of the one that its handle names. -/
theorem resolveEnumeration_some {l : Link .enumeration} (hf : f.enumeration = some l)
    {o : Option (Handle .enumeration)} :
    f.resolveEnumeration d = .ok o ↔
      ∃ enumeration, d.findEnumeration? l.name = some enumeration ∧
        (∀ v, f.defaultValue = some (.integer v) →
          (d.enumeration? enumeration.id).any (·.hasValue v) = true) ∧
        some enumeration.id = o := by
  unfold resolveEnumeration
  rw [hf]
  simp only [bind_eq_ok, orFail_eq_ok]
  refine exists_congr fun enumeration => and_congr_right fun _ => ?_
  -- Only an integer default is checked.
  rcases f.defaultValue with _ | v | v | v
  case some.integer =>
    simp only [guard_eq_ok, pure_eq_ok]
    simp
  all_goals simp

theorem resolveBitfield_none (hf : f.bitfield = none) {o : Option (Handle .bitfield)} :
    f.resolveBitfield d = .ok o ↔ none = o := by
  unfold resolveBitfield
  rw [hf]
  exact pure_eq_ok

/-- A link to a bit-field set stands for the first of its name, whose items cover the default. -/
theorem resolveBitfield_some {l : Link .bitfield} (hf : f.bitfield = some l)
    {o : Option (Handle .bitfield)} :
    f.resolveBitfield d = .ok o ↔
      ∃ bitfield, d.findBitfield? l.name = some bitfield ∧
        (∀ v, f.defaultValue = some (.integer v) → v.toUInt64 &&& ~~~bitfield.mask = 0) ∧
        some bitfield.id = o := by
  unfold resolveBitfield
  rw [hf]
  simp only [bind_eq_ok, orFail_eq_ok]
  refine exists_congr fun bitfield => and_congr_right fun _ => ?_
  rcases f.defaultValue with _ | v | v | v
  case some.integer =>
    simp only [guard_eq_ok, pure_eq_ok]
    simp
  all_goals simp

/-! ### The field -/

/-- The field with bindings in every part that it has. -/
def withBindings (f : Field) (reference : Option Reference.Binding)
    (source : Option StructSource.Binding) (enumeration : Option (Handle .enumeration))
    (bitfield : Option (Handle .bitfield)) : Field :=
  { f with
    reference := f.reference.map fun r => { r with binding := reference }
    structSource := f.structSource.map fun s => { s with binding := source }
    enumeration := f.enumeration.map fun l => { l with handle := enumeration }
    bitfield := f.bitfield.map fun l => { l with handle := bitfield } }

/-- The field with everything that it names bound. -/
def bind (d : Document) (e : Entity) (f : Field) : Except Error Field := do
  let reference ← f.resolveReference d e
  let source ← f.resolveStruct d e
  let enumeration ← f.resolveEnumeration d
  let bitfield ← f.resolveBitfield d
  if f.type = .struct ∧ f.structSource.isNone then failFlaw (.structWithoutSource f.name)
  return f.withBindings reference source enumeration bitfield

/-- **A field is bound part by part**, and a `struct` field has to have a source. -/
theorem bind_eq_ok_iff :
    f.bind d e = .ok f' ↔
      ∃ reference, f.resolveReference d e = .ok reference ∧
      ∃ source, f.resolveStruct d e = .ok source ∧
      ∃ enumeration, f.resolveEnumeration d = .ok enumeration ∧
      ∃ bitfield, f.resolveBitfield d = .ok bitfield ∧
        (f.type = .struct → f.structSource.isSome = true) ∧
        f.withBindings reference source enumeration bitfield = f' := by
  unfold Field.bind
  simp only [bind_eq_ok, guardFlaw_eq_ok, pure_eq_ok, not_and, Bool.not_eq_true,
    Option.isNone_eq_false_iff]

theorem unlinked_withBindings (f : Field) (r : Option Reference.Binding)
    (s : Option StructSource.Binding) (l : Option (Handle .enumeration))
    (b : Option (Handle .bitfield)) : (f.withBindings r s l b).unlinked = f.unlinked := by
  simp only [unlinked, withBindings, Option.map_map]
  rfl

/-- **Binding a field changes its bindings only.** -/
theorem unlinked_of_bind (h : f.bind d e = .ok f') : f'.unlinked = f.unlinked := by
  obtain ⟨_, _, _, _, _, _, _, _, _, rfl⟩ := bind_eq_ok_iff.1 h
  exact unlinked_withBindings ..

/-! ### Filling in what was found -/

/-- A reference is found where one is declared, and nowhere else. -/
theorem isSome_of_resolveReference {o : Option Reference.Binding}
    (h : f.resolveReference d e = .ok o) : o.isSome = f.reference.isSome := by
  cases hf : f.reference with
  | none =>
    rw [((resolveReference_none hf).1 h).2.2]
    rfl
  | some r =>
    obtain ⟨_, _, _, _, _, _, _, rfl⟩ := (resolveReference_some hf).1 h
    rfl

theorem isSome_of_resolveStruct {o : Option StructSource.Binding}
    (h : f.resolveStruct d e = .ok o) : o.isSome = f.structSource.isSome := by
  cases hf : f.structSource with
  | none =>
    rw [← (resolveStruct_none hf).1 h]
    rfl
  | some s =>
    obtain ⟨_, _, _, _, _, _, rfl⟩ := (resolveStruct_some hf).1 h
    rfl

theorem isSome_of_resolveEnumeration {o : Option (Handle .enumeration)}
    (h : f.resolveEnumeration d = .ok o) : o.isSome = f.enumeration.isSome := by
  cases hf : f.enumeration with
  | none =>
    rw [← (resolveEnumeration_none hf).1 h]
    rfl
  | some l =>
    obtain ⟨_, _, _, rfl⟩ := (resolveEnumeration_some hf).1 h
    rfl

theorem isSome_of_resolveBitfield {o : Option (Handle .bitfield)}
    (h : f.resolveBitfield d = .ok o) : o.isSome = f.bitfield.isSome := by
  cases hf : f.bitfield with
  | none =>
    rw [← (resolveBitfield_none hf).1 h]
    rfl
  | some l =>
    obtain ⟨_, _, _, rfl⟩ := (resolveBitfield_some hf).1 h
    rfl

/-- The field with what was found for it. -/
def fillAll (f : Field) (bs : List (FieldId × Binding)) : Field :=
  bs.foldl (fun f b => f.fill b.2) f

/-- A part that is found exactly if the field has it is filled in by setting it. -/
theorem foldl_fill_part {α β : Type} {part : Option α} {o : Option β} (make : β → Binding)
    (set : Option β → α → α) (put : Option α → Field) (hpart : put part = f)
    (hfill : ∀ b, f.fill (make b) = put (part.map (set (some b)))) (h : o.isSome = part.isSome) :
    (o.map make).toList.foldl fill f = put (part.map (set o)) := by
  cases o with
  | some b => exact hfill b
  | none =>
    have hnone : part = none := by simpa using h.symm
    rw [← hpart, hnone]
    rfl

section

variable {r : Option Reference.Binding} {s : Option StructSource.Binding}
  {l : Option (Handle .enumeration)} {b : Option (Handle .bitfield)}

theorem foldl_fill_reference (h : r.isSome = f.reference.isSome) :
    (r.map Binding.reference).toList.foldl fill f =
      { f with reference := f.reference.map fun x => { x with binding := r } } :=
  foldl_fill_part .reference (fun o (x : Reference) => { x with binding := o })
    (fun x => { f with reference := x }) rfl (fun _ => rfl) h

theorem foldl_fill_structSource (h : s.isSome = f.structSource.isSome) :
    (s.map Binding.structSource).toList.foldl fill f =
      { f with structSource := f.structSource.map fun x => { x with binding := s } } :=
  foldl_fill_part .structSource (fun o (x : StructSource) => { x with binding := o })
    (fun x => { f with structSource := x }) rfl (fun _ => rfl) h

theorem foldl_fill_enumeration (h : l.isSome = f.enumeration.isSome) :
    (l.map Binding.enumeration).toList.foldl fill f =
      { f with enumeration := f.enumeration.map fun x => { x with handle := l } } :=
  foldl_fill_part .enumeration (fun o (x : Link .enumeration) => { x with handle := o })
    (fun x => { f with enumeration := x }) rfl (fun _ => rfl) h

theorem foldl_fill_bitfield (h : b.isSome = f.bitfield.isSome) :
    (b.map Binding.bitfield).toList.foldl fill f =
      { f with bitfield := f.bitfield.map fun x => { x with handle := b } } :=
  foldl_fill_part .bitfield (fun o (x : Link .bitfield) => { x with handle := o })
    (fun x => { f with bitfield := x }) rfl (fun _ => rfl) h

end

/-- **Binding a field fills in what was found for it.** -/
theorem bind_eq_map_resolve : f.bind d e = f.fillAll <$> f.resolve d e := by
  unfold Field.bind resolve
  cases hr : f.resolveReference d e with
  | error err => rfl
  | ok r =>
  cases hs : f.resolveStruct d e with
  | error err => rfl
  | ok s =>
  cases hl : f.resolveEnumeration d with
  | error err => rfl
  | ok l =>
  cases hb : f.resolveBitfield d with
  | error err => rfl
  | ok b =>
  by_cases hstruct : f.type = .struct ∧ f.structSource.isNone
  · simp only [hstruct]
    rfl
  · have hfill : f.withBindings r s l b = f.fillAll (((r.map Binding.reference).toList ++
        (s.map Binding.structSource).toList ++ (l.map Binding.enumeration).toList ++
        (b.map Binding.bitfield).toList).map fun b => (f.id, b)) := by
      rw [fillAll, List.foldl_map, List.foldl_append, List.foldl_append, List.foldl_append,
        foldl_fill_reference, foldl_fill_structSource, foldl_fill_enumeration, foldl_fill_bitfield]
      · rfl
      · exact isSome_of_resolveBitfield hb
      · exact isSome_of_resolveEnumeration hl
      · exact isSome_of_resolveStruct hs
      · exact isSome_of_resolveReference hr
    simp only [hstruct, if_false]
    exact congrArg Except.ok hfill

/-- Whatever is found for a field stands under its handle. -/
theorem fst_of_mem_resolve {bs : List (FieldId × Binding)} (h : f.resolve d e = .ok bs) :
    ∀ b ∈ bs, b.1 = f.id := by
  unfold resolve at h
  simp only [bind_eq_ok, guardFlaw_eq_ok, pure_eq_ok] at h
  obtain ⟨_, _, _, _, _, _, _, _, _, rfl⟩ := h
  intro b hb
  obtain ⟨_, _, rfl⟩ := List.mem_map.1 hb
  rfl

end Field

end DataModel
