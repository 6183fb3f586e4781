import DataModel.Proofs.Linking.Independence
import DataModel.Proofs.Linking.Preservation

/-!
# Bindings of a linked document

`Document.link_bound`: in a linked document every handle of a field is that of the first declaration
with the declared name, and the field satisfies what the declaration asks of it
(`LinkedDocument.FieldBound`).

Names are looked up in the document before its fields are bound, and handles are positions in the
document afterwards.  The two are brought together by a fixed point: linking keeps what binding a
field reads, so a field of the linked document, bound once more in the linked document, is itself
(`Document.LinkSteps.bind_self`).
-/

namespace DataModel

/-! ### First declarations of a name -/

/-- A member of a list is the first of a name, case aside. -/
def FirstNamed {α : Type} (nameOf : α → String) (name : String) (as : List α) (a : α) : Prop :=
  ∃ before after, as = before ++ a :: after ∧ Ident.fold (nameOf a) = Ident.fold name ∧
    ∀ b ∈ before, Ident.fold (nameOf b) ≠ Ident.fold name

namespace FirstNamed

variable {α : Type} {nameOf : α → String} {name : String} {as : List α} {a : α}

theorem mem (h : FirstNamed nameOf name as a) : a ∈ as := by
  obtain ⟨before, after, rfl, _⟩ := h
  simp

/-- Looking up a name finds the first of the name. -/
theorem of_find? (h : (as.find? fun a => Ident.same (nameOf a) name) = some a) :
    FirstNamed nameOf name as a := by
  rw [List.find?_eq_some_iff_append] at h
  obtain ⟨ha, before, after, rfl, hbefore⟩ := h
  refine ⟨before, after, rfl, Ident.same_iff.1 ha, ?_⟩
  intro b hb heq
  have hne := hbefore b hb
  rw [Ident.same_iff.2 heq] at hne
  cases hne

/-- The first of a name is what looking up the name finds. -/
theorem find?_eq_some_iff :
    (as.find? fun a => Ident.same (nameOf a) name) = some a ↔ FirstNamed nameOf name as a := by
  refine ⟨of_find?, ?_⟩
  rintro ⟨before, after, rfl, hname, hbefore⟩
  refine List.find?_eq_some_iff_append.2 ⟨Ident.same_iff.2 hname, before, after, rfl, ?_⟩
  intro b hb
  rw [Bool.not_eq_true', ← Bool.not_eq_true, Ident.same_iff]
  exact hbefore b hb

/-- Looking up a name finds nothing where nothing has it. -/
theorem find?_eq_none_iff :
    (as.find? fun a => Ident.same (nameOf a) name) = none ↔
      ∀ a ∈ as, Ident.fold (nameOf a) ≠ Ident.fold name := by
  simp only [List.find?_eq_none, Ident.same_iff, ne_eq]

end FirstNamed

/-! ### Bits -/

/-- An item sets the bit of its index. -/
theorem BitItem.getLsbD_mask {i : BitItem} (hi : i.index.toNat ≤ 63) {k : Nat} :
    i.mask.toBitVec.getLsbD k = true ↔ i.index.toNat = k := by
  -- Shifts by 64 and more would wrap around.
  have hshift : (i.index.toUInt64.toBitVec % 64).toNat = i.index.toNat := by
    rw [BitVec.toNat_umod]
    simp
    omega
  have hone : (1 : UInt64).toBitVec = 1#64 := rfl
  rw [mask, UInt64.toBitVec_shiftLeft, hone, BitVec.shiftLeft_eq', BitVec.getLsbD_shiftLeft,
    BitVec.getLsbD_one, hshift]
  simp
  omega

theorem getLsbD_foldl_mask {items : List BitItem} {m : UInt64} {k : Nat} :
    (items.foldl (fun m i => m ||| i.mask) m).toBitVec.getLsbD k = true ↔
      m.toBitVec.getLsbD k = true ∨ ∃ i ∈ items, i.mask.toBitVec.getLsbD k = true := by
  induction items generalizing m with
  | nil => simp
  | cons i items ih =>
    rw [List.foldl_cons, ih, UInt64.toBitVec_or, BitVec.getLsbD_or, Bool.or_eq_true,
      List.exists_mem_cons_iff, or_assoc]

/-- The mask of a set has the bits that are indices of items. -/
theorem Bitfield.getLsbD_mask {b : Bitfield} (hb : ∀ i ∈ b.items, i.index.toNat ≤ 63) {k : Nat} :
    b.mask.toBitVec.getLsbD k = true ↔ ∃ i ∈ b.items, i.index.toNat = k := by
  rw [mask, getLsbD_foldl_mask]
  constructor
  · rintro (hzero | ⟨i, hi, hk⟩)
    · simp at hzero
    · exact ⟨i, hi, (BitItem.getLsbD_mask (hb i hi)).1 hk⟩
  · rintro ⟨i, hi, hk⟩
    exact .inr ⟨i, hi, (BitItem.getLsbD_mask (hb i hi)).2 hk⟩

/-- A value within a set has no bit that is not the index of an item. -/
theorem Bitfield.exists_item {b : Bitfield} (hb : ∀ i ∈ b.items, i.index.toNat ≤ 63) {v : Int64}
    (hv : v.toUInt64 &&& ~~~b.mask = 0) {k : Nat} (hk : v.toBitVec.getLsbD k = true) :
    ∃ i ∈ b.items, i.index.toNat = k := by
  -- Read at one bit, the check says that the bit of the value is one of the mask.
  have hbits : v.toBitVec.getLsbD k = true → k < 64 → b.mask.toBitVec.getLsbD k = true := by
    simpa using congrArg (fun u => u.toBitVec.getLsbD k) hv
  exact (getLsbD_mask hb).1 (hbits hk (BitVec.lt_of_getLsbD hk))

/-! ### The fixed point -/

namespace Document.LinkSteps

variable {options : LinkOptions} {d bound high granted : Document} {l : LinkedDocument}

/-- A linked document is placed. -/
theorem placed (s : LinkSteps options d bound high granted l) : l.document.Placed := by
  have hd : d.Placed := checkPlacement_eq_ok_iff.1 s.placement
  -- Numbering keeps the handles of the enumerations, and nothing else that is placed changes.
  have hids : l.document.enums.map Enumeration.id = d.enums.map Enumeration.id := by
    obtain ⟨enums, henums, _, _, _, rfl⟩ := (bindFields_eq_ok_iff hd).1 s.fields
    rw [s.enums]
    refine map_eq_of_mapM (fun e e' h => ?_) henums
    obtain ⟨items, rfl⟩ := Enumeration.eq_of_number (placed_eq_ok.1 h)
    rfl
  have hnumbered : ({ d with enums := l.document.enums } : Document).Placed := by
    refine ⟨hd.entity, hd.field, ?_, hd.bitfield⟩
    intro i e' he'
    have hi : (l.document.enums.map Enumeration.id)[i]? = some e'.id := by
      rw [List.getElem?_map, he']
      rfl
    rw [hids, List.getElem?_map, Option.map_eq_some_iff] at hi
    obtain ⟨e, he, hid⟩ := hi
    rw [← hid]
    exact hd.enumeration i e he
  rw [← checkPlacement_eq_ok_iff (u := ())] at hnumbered ⊢
  rw [← checkPlacement_unlinked, s.unlinked, checkPlacement_unlinked, hnumbered]

/-- **Binding a field of a linked document again gives the field.** -/
theorem bind_self (s : LinkSteps options d bound high granted l) {e : Entity}
    (he : e ∈ l.document.entities) {f : Field} (hf : f ∈ e.fields) :
    f.bind l.document e = .ok f := by
  -- The second pass bound `f₀` of `e₀` to `f` of `e₁`, which the later passes made `e`.
  have hbefore : e.beforeHeight ∈ (bound.mapEntities Entity.beforeHeight).entities := by
    rw [← s.beforeHeight]
    exact List.mem_map_of_mem he
  obtain ⟨e₁, he₁, heq⟩ := List.mem_map.1 hbefore
  have hfields : e₁.fields = e.fields := by
    rw [← Entity.beforeHeight_fields e₁, heq, Entity.beforeHeight_fields]
  have hunlinked : e₁.unlinked = e.unlinked := by
    rw [Entity.unlinked, Entity.unlinked, heq, hfields]
  have hd : d.Placed := checkPlacement_eq_ok_iff.1 s.placement
  obtain ⟨enums, _, _, entities, hentities, rfl⟩ := (bindFields_eq_ok_iff hd).1 s.fields
  obtain ⟨e₀, _, he₀⟩ := exists_of_mem_mapM hentities he₁
  have hunlinked₀ := Entity.unlinked_of_bindFields he₀
  rw [Entity.bindFields, bind_eq_ok] at he₀
  obtain ⟨fields, hmap, h⟩ := he₀
  have hfields₀ : fields = e.fields := by
    rw [← hfields, ← pure_eq_ok.1 h]
  rw [← hfields₀] at hf
  obtain ⟨f₀, _, hf₀⟩ := exists_of_mem_mapM hmap hf
  rw [placed_eq_ok] at hf₀
  -- Nothing that binding `f₀` read has changed since.
  have henums : l.document.enums = enums := s.enums
  rw [← Field.bind_unlinked, s.unlinked, ← hunlinked, hunlinked₀, Field.unlinked_of_bind hf₀,
    Field.bind_unlinked, henums]
  exact hf₀

end Document.LinkSteps

/-! ### Bound fields -/

namespace LinkedDocument

variable (l : LinkedDocument)

/-- The reference of a field has the field as its source and the first field of its names as its
target, which is a key of the same type.  A field that a change makes null is nullable. -/
def ReferenceBound (f : Field) (r : Reference) : Prop :=
  ∃ b target key, r.binding = some b ∧ b.source = f.id ∧
    FirstNamed Entity.name r.targetEntity l.document.entities target ∧
    FirstNamed Field.name r.targetField target.fields key ∧
    l.document.field? b.target = some key ∧
    (key.flags.unique = true ∨ key.flags.rowid = true) ∧ key.type = f.type ∧
    (f.onUpdate = .nullify ∨ f.onDelete = .nullify → f.flags.null = true)

/-- A struct source of an entity has the first local field of its name, which carries a reference,
and embeds the entity that this reference leads to. -/
def StructBound (e : Entity) (s : StructSource) : Prop :=
  ∃ b carrier r target, s.binding = some b ∧
    FirstNamed Field.name s.field e.fields carrier ∧ l.document.field? b.field = some carrier ∧
    carrier.reference = some r ∧ r.binding = some target ∧ b.entity = target.target.entity

/-- A link to an enumeration leads to the first of its name, and an integer default is the value of
an item. -/
def EnumerationBound (f : Field) (k : Link .enumeration) : Prop :=
  ∃ enumeration, FirstNamed Enumeration.name k.name l.document.enums enumeration ∧
    l.fieldEnumeration? f = some enumeration ∧
    ∀ v, f.defaultValue = some (.integer v) → ∃ i ∈ enumeration.items, i.value = some v

/-- A link to a bit-field set leads to the first of its name, and every bit of an integer default is
the index of an item. -/
def BitfieldBound (f : Field) (k : Link .bitfield) : Prop :=
  ∃ bitfield, FirstNamed Bitfield.name k.name l.document.bitfields bitfield ∧
    l.fieldBitfield? f = some bitfield ∧
    ∀ v, f.defaultValue = some (.integer v) →
      ∀ bit, v.toBitVec.getLsbD bit = true → ∃ i ∈ bitfield.items, i.index.toNat = bit

/-- Everything that a field of an entity names is bound. -/
structure FieldBound (e : Entity) (f : Field) : Prop where
  reference : ∀ r, f.reference = some r → l.ReferenceBound f r
  noReference : f.reference = none → f.onUpdate = .undeclared ∧ f.onDelete = .undeclared
  structSource : ∀ s, f.structSource = some s → l.StructBound e s
  struct : f.type = .struct → f.structSource.isSome = true
  enumeration : ∀ k, f.enumeration = some k → l.EnumerationBound f k
  bitfield : ∀ k, f.bitfield = some k → l.BitfieldBound f k

end LinkedDocument

/-- A part that setting leaves as it is holds what was set. -/
theorem eq_bind_of_map_eq {α β : Type} {get : α → Option β} (set : Option β → α → α)
    {part : Option α} {o : Option β} (hget : ∀ a, get (set o a) = o)
    (hsome : o.isSome = part.isSome) (h : part.map (set o) = part) : o = part.bind get := by
  cases part with
  | none => simpa using hsome
  | some a =>
    have ha : set o a = a := Option.some.inj h
    rw [Option.bind_some, ← hget a, ha]

/-- A field that binding leaves as it is holds what its names stand for. -/
theorem Field.parts_of_bind_self {d : Document} {e : Entity} {f : Field}
    (h : f.bind d e = .ok f) :
    f.resolveReference d e = .ok (f.reference.bind Reference.binding) ∧
      f.resolveStruct d e = .ok (f.structSource.bind StructSource.binding) ∧
      f.resolveEnumeration d = .ok (f.enumeration.bind Link.handle) ∧
      f.resolveBitfield d = .ok (f.bitfield.bind Link.handle) ∧
      (f.type = .struct → f.structSource.isSome = true) := by
  obtain ⟨reference, hr, source, hs, enumeration, hl, bitfield, hb, htype, heq⟩ :=
    Field.bind_eq_ok_iff.1 h
  have hreference : reference = f.reference.bind Reference.binding :=
    eq_bind_of_map_eq (fun o (r : Reference) => { r with binding := o }) (fun _ => rfl)
      (isSome_of_resolveReference hr) (congrArg Field.reference heq)
  have hsource : source = f.structSource.bind StructSource.binding :=
    eq_bind_of_map_eq (fun o (s : StructSource) => { s with binding := o }) (fun _ => rfl)
      (isSome_of_resolveStruct hs) (congrArg Field.structSource heq)
  have henumeration : enumeration = f.enumeration.bind Link.handle :=
    eq_bind_of_map_eq (fun o (l : Link .enumeration) => { l with handle := o }) (fun _ => rfl)
      (isSome_of_resolveEnumeration hl) (congrArg Field.enumeration heq)
  have hbitfield : bitfield = f.bitfield.bind Link.handle :=
    eq_bind_of_map_eq (fun o (l : Link .bitfield) => { l with handle := o }) (fun _ => rfl)
      (isSome_of_resolveBitfield hb) (congrArg Field.bitfield heq)
  rw [hreference] at hr
  rw [hsource] at hs
  rw [henumeration] at hl
  rw [hbitfield] at hb
  exact ⟨hr, hs, hl, hb, htype⟩

namespace LinkedDocument

variable {l : LinkedDocument} (hl : l.document.Placed)
  (hself : ∀ e ∈ l.document.entities, ∀ f ∈ e.fields, f.bind l.document e = .ok f)
  {e : Entity} (he : e ∈ l.document.entities) {f : Field} (hf : f ∈ e.fields)

include hl hself he hf

theorem referenceBound {r : Reference} (hr : f.reference = some r) : l.ReferenceBound f r := by
  have hpart := (Field.parts_of_bind_self (hself e he f hf)).1
  rw [Field.resolveReference_some hr, hr] at hpart
  obtain ⟨_, target, htarget, key, hkey, ⟨hunique, htype⟩, hnull, hbound⟩ := hpart
  have htarget' : FirstNamed Entity.name r.targetEntity l.document.entities target :=
    .of_find? htarget
  have hkey' : FirstNamed Field.name r.targetField target.fields key := .of_find? hkey
  refine ⟨⟨key.id, f.id⟩, target, key, ?_, rfl, htarget', hkey', ?_, ?_, htype, hnull⟩
  · exact hbound.symm
  · exact hl.field?_id htarget'.mem hkey'.mem
  · rw [Field.isUniqueKey, Bool.or_eq_true] at hunique
    exact hunique.symm

theorem structBound {s : StructSource} (hs : f.structSource = some s) : l.StructBound e s := by
  have hpart := (Field.parts_of_bind_self (hself e he f hf)).2.1
  rw [Field.resolveStruct_some hs, hs] at hpart
  obtain ⟨carrier, hcarrier, r, hr, embedded, hembedded, hbound⟩ := hpart
  have hcarrier' : FirstNamed Field.name s.field e.fields carrier := .of_find? hcarrier
  -- The reference of the carrier is bound to a field of the same entity.
  have hreference := (Field.parts_of_bind_self (hself e he carrier hcarrier'.mem)).1
  rw [Field.resolveReference_some hr, hr] at hreference
  obtain ⟨_, target, htarget, key, hkey, _, _, hrbound⟩ := hreference
  have htarget' : FirstNamed Entity.name r.targetEntity l.document.entities target :=
    .of_find? htarget
  have hkey' : FirstNamed Field.name r.targetField target.fields key := .of_find? hkey
  have hsame : embedded = target := Option.some.inj (hembedded.symm.trans htarget)
  obtain ⟨i, hi⟩ := List.mem_iff_getElem?.1 hkey'.mem
  have hentity := (hl.field target htarget'.mem i key hi).1
  refine ⟨⟨carrier.id, embedded.id⟩, carrier, r, ⟨key.id, carrier.id⟩, ?_, hcarrier', ?_, hr, ?_,
    ?_⟩
  · exact hbound.symm
  · exact hl.field?_id he hcarrier'.mem
  · exact hrbound.symm
  · rw [hsame, hentity]

theorem enumerationBound {k : Link .enumeration} (hk : f.enumeration = some k) :
    l.EnumerationBound f k := by
  have hpart := (Field.parts_of_bind_self (hself e he f hf)).2.2.1
  rw [Field.resolveEnumeration_some hk, hk] at hpart
  obtain ⟨enumeration, hfind, hvalue, hbound⟩ := hpart
  have hfirst : FirstNamed Enumeration.name k.name l.document.enums enumeration := .of_find? hfind
  refine ⟨enumeration, hfirst, ?_, ?_⟩
  · rw [fieldEnumeration?, hk, ← hbound]
    exact hl.enumeration?_id hfirst.mem
  · intro v hv
    have hany := hvalue v hv
    -- The values were looked up under the handle of the enumeration, which leads back to it.
    rw [hl.enumeration?_id hfirst.mem, Option.any_some, Enumeration.hasValue,
      List.any_eq_true] at hany
    obtain ⟨i, hi, heq⟩ := hany
    exact ⟨i, hi, by simpa using heq⟩

theorem bitfieldBound (hbits : ∀ b ∈ l.document.bitfields, ∀ i ∈ b.items, i.index.toNat ≤ 63)
    {k : Link .bitfield} (hk : f.bitfield = some k) : l.BitfieldBound f k := by
  have hpart := (Field.parts_of_bind_self (hself e he f hf)).2.2.2.1
  rw [Field.resolveBitfield_some hk, hk] at hpart
  obtain ⟨bitfield, hfind, hvalue, hbound⟩ := hpart
  have hfirst : FirstNamed Bitfield.name k.name l.document.bitfields bitfield := .of_find? hfind
  refine ⟨bitfield, hfirst, ?_, ?_⟩
  · rw [fieldBitfield?, hk, ← hbound]
    exact hl.bitfield?_id hfirst.mem
  · intro v hv bit hbit
    exact Bitfield.exists_item (hbits bitfield hfirst.mem) (hvalue v hv) hbit

end LinkedDocument

namespace Document

/-- **The fields of a linked document are bound.**  Its bit-field sets have no bit beyond 63. -/
theorem link_bound {options : LinkOptions} {d : Document} {l : LinkedDocument}
    (hbits : ∀ b ∈ d.bitfields, ∀ i ∈ b.items, i.index.toNat ≤ 63)
    (h : d.link options = .ok l) :
    ∀ e ∈ l.document.entities, ∀ f ∈ e.fields, l.FieldBound e f := by
  obtain ⟨bound, high, granted, s⟩ := link_eq_ok_iff.1 h
  have hself : ∀ e ∈ l.document.entities, ∀ f ∈ e.fields, f.bind l.document e = .ok f :=
    fun e he f hf => s.bind_self he hf
  intro e he f hf
  have hparts := Field.parts_of_bind_self (hself e he f hf)
  constructor
  · intro r hr
    exact LinkedDocument.referenceBound s.placed hself he hf hr
  · intro hr
    have hnone := (Field.resolveReference_none hr).1 hparts.1
    exact ⟨hnone.1, hnone.2.1⟩
  · intro source hs
    exact LinkedDocument.structBound s.placed hself he hf hs
  · exact hparts.2.2.2.2
  · intro k hk
    exact LinkedDocument.enumerationBound s.placed hself he hf hk
  · intro k hk
    rw [← s.bitfields] at hbits
    exact LinkedDocument.bitfieldBound s.placed hself he hf hbits hk

/-- The sessions link, and their fields are bound: four name another declaration, and what was
stored with the names was wrong. -/
theorem link_sessions_bound :
    ∃ l, (sessions true).link .trusted = .ok l ∧
      (∀ e ∈ l.document.entities, ∀ f ∈ e.fields, l.FieldBound e f) ∧
      ((l.document.entities.flatMap Entity.fields).filter fun f =>
        f.leadsToEntity || f.enumeration.isSome || f.bitfield.isSome).map Field.name =
          ["owner", "holder", "state", "rights"] ∧
      l.document.entities ≠ (sessions true).entities := by
  obtain ⟨l, h, hparts⟩ := exists_ok_of_any (r := (sessions true).link .trusted)
    (p := fun l => decide (((l.document.entities.flatMap Entity.fields).filter fun f =>
        f.leadsToEntity || f.enumeration.isSome || f.bitfield.isSome).map Field.name =
          ["owner", "holder", "state", "rights"] ∧
      l.document.entities ≠ (sessions true).entities))
    (by decide +kernel)
  obtain ⟨hnaming, hrebound⟩ := of_decide_eq_true hparts
  exact ⟨l, h, link_bound (by decide +kernel) h, hnaming, hrebound⟩

end Document

end DataModel
