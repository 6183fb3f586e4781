import DataModel.Proofs.Linking.Bindings

/-!
# Sets of bits

The checks of a bit-field set are written with masks of 64 bits.  `Bitfield.checks_exactly` says in
terms of indices what they accept: items with different indices, and of the integers those whose
bits are indices of items.

`BitItem.Represents` relates a mask to the items whose bits it holds.  One more item keeps the
relation (`BitItem.Represents.concat`), and under it the mask of an item is tested for its index
(`BitItem.Represents.and_mask_ne_zero_iff`).  This is the step of the check; the items in front of
the first one with a used index pass it (`Bitfield.checkBits_append`), and this one does not
(`Bitfield.checkBits_cons_of_used`).
-/

namespace DataModel

/-! ### Words as sets of bits -/

theorem eq_zero_iff_getLsbD {m : UInt64} :
    m = 0 ↔ ∀ k, m.toBitVec.getLsbD k = false := by
  constructor
  · rintro rfl k
    exact BitVec.getLsbD_zero
  · intro h
    apply UInt64.toBitVec_inj.1
    apply BitVec.eq_of_getLsbD_eq
    intro k _
    rw [h k]
    exact BitVec.getLsbD_zero.symm

/-- An integer is negative exactly if its last bit is set. -/
theorem getLsbD_63_iff {v : Int64} : v.toBitVec.getLsbD 63 = true ↔ v < 0 := by
  have hmsb : v.toBitVec.getLsbD 63 = decide (v.toBitVec.toInt < 0) :=
    (BitVec.msb_eq_getLsbD_last _).symm.trans BitVec.msb_eq_toInt
  rw [hmsb, decide_eq_true_eq, Int64.lt_iff_toInt_lt, Int64.toInt_zero]
  exact Iff.rfl

namespace BitItem

variable {items : List BitItem} {i : BitItem} {m : UInt64}

/-- The bits of the mask are the indices of the items. -/
def Represents (m : UInt64) (items : List BitItem) : Prop :=
  ∀ k, m.toBitVec.getLsbD k = true ↔ ∃ i ∈ items, i.index.toNat = k

theorem represents_zero : Represents 0 [] := by
  intro k
  simp

/-- **One more item adds its index.** -/
theorem Represents.concat (h : Represents m items) (hi : i.index.toNat ≤ 63) :
    Represents (m ||| i.mask) (items ++ [i]) := by
  intro k
  rw [UInt64.toBitVec_or, BitVec.getLsbD_or, Bool.or_eq_true, h k, getLsbD_mask hi]
  simp only [List.mem_append, List.mem_singleton, or_and_right, exists_or, exists_eq_left]

/-- **A mask meets that of an item if the index of the item is in use.** -/
theorem Represents.and_mask_ne_zero_iff (h : Represents m items) (hi : i.index.toNat ≤ 63) :
    m &&& i.mask ≠ 0 ↔ i.index ∈ items.map index := by
  rw [Ne, eq_zero_iff_getLsbD, List.mem_map]
  simp only [UInt64.toBitVec_and, BitVec.getLsbD_and, not_forall, Bool.not_eq_false,
    Bool.and_eq_true, getLsbD_mask hi, h _, exists_eq_right', UInt8.toNat_inj]

end BitItem

namespace Bitfield

variable {b : Bitfield} {items before : List BitItem} {i : BitItem} {seen : UInt64}

open BitItem (Represents)

/-! ### The items -/

/-- An item with a new index passes. -/
theorem checkBits_cons_of_new (h : Represents seen before) (hi : i.index.toNat ≤ 63)
    (hnew : i.index ∉ before.map BitItem.index) :
    b.checkBits seen (i :: items) = b.checkBits (seen ||| i.mask) items := by
  rw [checkBits, if_neg]
  rwa [h.and_mask_ne_zero_iff hi]

/-- An item with a used index is refused. -/
theorem checkBits_cons_of_used (h : Represents seen before) (hi : i.index.toNat ≤ 63)
    (hused : i.index ∈ before.map BitItem.index) :
    b.checkBits seen (i :: items) =
      fail (.duplicateValue (qualified b.name i.name) (Int64.ofNat i.index.toNat)) := by
  rw [checkBits, if_pos]
  rwa [h.and_mask_ne_zero_iff hi]

/-- **Items with different indices pass**, and their bits are seen afterwards. -/
theorem checkBits_append (hitems : ∀ i ∈ items, i.index.toNat ≤ 63)
    (hnodup : (items.map BitItem.index).Nodup) :
    ∃ seen, Represents seen items ∧
      ∀ rest, b.checkBits 0 (items ++ rest) = b.checkBits seen rest := by
  induction items using List.reverseRecOn with
  | nil => exact ⟨0, BitItem.represents_zero, fun _ => rfl⟩
  | append_singleton items i ih =>
    rw [List.forall_mem_append, List.forall_mem_singleton] at hitems
    rw [List.map_append, List.map_singleton, ← List.concat_eq_append, List.nodup_concat] at hnodup
    obtain ⟨seen, hseen, hrun⟩ := ih hitems.1 hnodup.2
    refine ⟨seen ||| i.mask, hseen.concat hitems.2, fun rest => ?_⟩
    rw [List.append_assoc, List.singleton_append, hrun,
      checkBits_cons_of_new hseen hitems.2 hnodup.1]

/-- The item is the first one whose index is that of an item in front. -/
def FirstRepeated (b : Bitfield) (i : BitItem) : Prop :=
  ∃ before after, b.items = before ++ i :: after ∧ (before.map BitItem.index).Nodup ∧
    i.index ∈ before.map BitItem.index

/-- The indices are different, or there is a first one that repeats. -/
theorem nodup_or_firstRepeated (b : Bitfield) :
    (b.items.map BitItem.index).Nodup ∨ ∃ i, b.FirstRepeated i := by
  suffices h : ∀ items : List BitItem, (items.map BitItem.index).Nodup ∨
      ∃ before i after, items = before ++ i :: after ∧ (before.map BitItem.index).Nodup ∧
        i.index ∈ before.map BitItem.index by
    exact (h b.items).imp_right fun ⟨before, i, after, h⟩ => ⟨i, before, after, h⟩
  intro items
  induction items using List.reverseRecOn with
  | nil => exact .inl List.nodup_nil
  | append_singleton items i ih =>
    rcases ih with hnodup | ⟨before, j, after, rfl, hbefore, hused⟩
    · by_cases hused : i.index ∈ items.map BitItem.index
      · exact .inr ⟨items, i, [], rfl, hnodup, hused⟩
      · left
        rw [List.map_append, List.map_singleton, ← List.concat_eq_append, List.nodup_concat]
        exact ⟨hused, hnodup⟩
    · exact .inr ⟨before, j, after ++ [i], by simp, hbefore, hused⟩

/-- A set with items is checked by its bits alone. -/
theorem checkItems_of_ne_nil (hne : b.items ≠ []) : b.checkItems = b.checkBits 0 b.items := by
  rw [checkItems, if_neg (by simpa using hne)]

/-- The index of an item as a value. -/
theorem toInt_ofNat_index (i : BitItem) : (Int64.ofNat i.index.toNat).toInt = i.index.toNat := by
  have hlt := i.index.toNat_lt
  exact Int64.toInt_ofNat_of_lt (by omega)

section

variable (hb : ∀ i ∈ b.items, i.index.toNat ≤ 63)

include hb

/-- A set whose indices are different passes. -/
theorem checkItems_of_nodup (hne : b.items ≠ []) (hnodup : (b.items.map BitItem.index).Nodup) :
    b.checkItems = .ok () := by
  obtain ⟨seen, _, hrun⟩ := checkBits_append (b := b) hb hnodup
  have hall : b.checkBits 0 b.items = b.checkBits seen [] := by
    rw [← hrun [], List.append_nil]
  rw [checkItems_of_ne_nil hne, hall, checkBits]

/-- A set is refused for the first item whose index repeats. -/
theorem checkItems_of_firstRepeated (h : b.FirstRepeated i) : b.checkItems =
    fail (.duplicateValue (qualified b.name i.name) (Int64.ofNat i.index.toNat)) := by
  obtain ⟨before, after, hsplit, hbefore, hused⟩ := h
  rw [hsplit, List.forall_mem_append, List.forall_mem_cons] at hb
  obtain ⟨seen, hseen, hrun⟩ := checkBits_append (b := b) hb.1 hbefore
  rw [checkItems_of_ne_nil (by simp [hsplit]), hsplit, hrun,
    checkBits_cons_of_used hseen hb.2.1 hused]

/-- **A set passes exactly if it has items with different indices.** -/
theorem checkItems_eq_ok_iff :
    b.checkItems = .ok () ↔ b.items ≠ [] ∧ (b.items.map BitItem.index).Nodup := by
  refine ⟨fun hok => ?_, fun ⟨hne, hnodup⟩ => checkItems_of_nodup hb hne hnodup⟩
  constructor
  · intro hnil
    rw [checkItems, hnil] at hok
    cases hok
  · rcases b.nodup_or_firstRepeated with hnodup | ⟨i, h⟩
    · exact hnodup
    · cases (checkItems_of_firstRepeated hb h).symm.trans hok

/-- **A set with items is refused exactly for the first one whose index repeats**, with this index
as the value. -/
theorem checkItems_eq_error_iff (hne : b.items ≠ []) {err : Error} :
    b.checkItems = .error err ↔ ∃ i, b.FirstRepeated i ∧ ∃ w : Int64, w.toInt = i.index.toNat ∧
      err = { cause := .duplicateValue (qualified b.name i.name) w } := by
  constructor
  · intro herr
    rcases b.nodup_or_firstRepeated with hnodup | ⟨i, h⟩
    · cases (checkItems_of_nodup hb hne hnodup).symm.trans herr
    · refine ⟨i, h, _, toInt_ofNat_index i, ?_⟩
      exact (Except.error.inj ((checkItems_of_firstRepeated hb h).symm.trans herr)).symm
  · rintro ⟨i, h, w, hw, rfl⟩
    obtain rfl : w = Int64.ofNat i.index.toNat :=
      Int64.toInt_inj.1 (hw.trans (toInt_ofNat_index i).symm)
    exact checkItems_of_firstRepeated hb h

/-! ### The default -/

/-- The bits of the integer are indices of items. -/
def Covers (b : Bitfield) (v : Int64) : Prop :=
  ∀ k, v.toBitVec.getLsbD k = true → ∃ i ∈ b.items, i.index.toNat = k

/-- **The test with the mask of the items asks for their indices.** -/
theorem and_not_mask_eq_zero_iff {v : Int64} :
    v.toUInt64 &&& ~~~b.mask = 0 ↔ b.Covers v := by
  refine ⟨fun h k hk => exists_item hb h hk, fun h => eq_zero_iff_getLsbD.2 fun k => ?_⟩
  rw [UInt64.toBitVec_and, BitVec.getLsbD_and, Bool.and_eq_false_imp]
  intro hk
  have hmask : b.mask.toBitVec.getLsbD k = true := (getLsbD_mask hb).2 (h k hk)
  rw [UInt64.toBitVec_not, BitVec.getLsbD_not, hmask, Bool.not_true, Bool.and_false]

/-- What a default does to a field that names the set. -/
theorem resolveBitfield_of_default {d : Document} {f : Field} {l : Link .bitfield} {v : Int64}
    (hf : f.bitfield = some l) (hfind : d.findBitfield? l.name = some b)
    (hv : f.defaultValue = some (.integer v)) :
    (b.Covers v → f.resolveBitfield d = .ok (some b.id)) ∧
    (¬b.Covers v → f.resolveBitfield d = fail (.invalidDefault (.undeclaredBits v b.name))) := by
  rw [← and_not_mask_eq_zero_iff hb, Field.resolveBitfield, hf]
  dsimp only
  rw [hfind, orFail_some, ok_bind, hv]
  dsimp only
  constructor
  · intro h
    rw [if_neg (not_not.2 h)]
    rfl
  · intro h
    rw [if_pos h]
    rfl

end

/-- Zero has no bits. -/
theorem covers_zero (b : Bitfield) : b.Covers 0 := by
  intro k hk
  cases (BitVec.getLsbD_zero (w := 64) (i := k)).symm.trans hk

/-- A set that covers a negative integer has the last bit. -/
theorem Covers.exists_last {v : Int64} (h : b.Covers v) (hv : v < 0) :
    ∃ i ∈ b.items, i.index.toNat = 63 :=
  h 63 (getLsbD_63_iff.2 hv)

/-- **The checks of a bit-field set are about its indices.**  A set passes if it has items with
different indices; otherwise the first item with a used index is refused.  A default of a field that
names the set is admitted if its bits are indices of items, for a negative one the last bit among
them. -/
theorem checks_exactly (b : Bitfield) (hb : ∀ i ∈ b.items, i.index.toNat ≤ 63) :
    (b.checkItems = .ok () ↔ b.items ≠ [] ∧ (b.items.map BitItem.index).Nodup) ∧
    (b.items ≠ [] → ∀ err, b.checkItems = .error err ↔
      ∃ i, b.FirstRepeated i ∧ ∃ w : Int64, w.toInt = i.index.toNat ∧
        err = { cause := .duplicateValue (qualified b.name i.name) w }) ∧
    ∀ (d : Document) (f : Field) (l : Link .bitfield) (v : Int64), f.bitfield = some l →
      d.findBitfield? l.name = some b → f.defaultValue = some (.integer v) →
      (f.resolveBitfield d = .ok (some b.id) ↔
        ∀ k, v.toBitVec.getLsbD k = true → ∃ i ∈ b.items, i.index.toNat = k) ∧
      (f.resolveBitfield d ≠ .ok (some b.id) → f.resolveBitfield d =
        .error { cause := .invalidDefault (.undeclaredBits v b.name) }) ∧
      (f.resolveBitfield d = .ok (some b.id) → v < 0 → ∃ i ∈ b.items, i.index.toNat = 63) ∧
      (v = 0 → f.resolveBitfield d = .ok (some b.id)) := by
  refine ⟨checkItems_eq_ok_iff hb, fun hne err => checkItems_eq_error_iff hb hne, ?_⟩
  intro d f l v hf hfind hv
  obtain ⟨hcovered, huncovered⟩ := resolveBitfield_of_default hb hf hfind hv
  have hiff : f.resolveBitfield d = .ok (some b.id) ↔ b.Covers v := by
    refine ⟨fun hok => by_contra fun h => ?_, hcovered⟩
    cases (huncovered h).symm.trans hok
  refine ⟨hiff, fun h => huncovered fun hv => h (hcovered hv), ?_, ?_⟩
  · exact fun hok hneg => (hiff.1 hok).exists_last hneg
  · rintro rfl
    exact hcovered b.covers_zero

/-- A set with the first and the last bit. -/
def outermost : Bitfield :=
  { declare ⟨0, Handle.bound_pos⟩ "outermost" with
    items := [{ name := "first", index := 0 }, { name := "last", index := 63 }] }

/-- A field that names the set, with both bits as its default. -/
def outermostMode : Field where
  id := ⟨⟨0, Handle.bound_pos⟩, 0, Handle.bound_pos⟩
  name := "mode"
  type := .bitfield
  bitfield := some { name := "Outermost" }
  defaultValue := some (.integer (Int64.minValue + 1))

/-- The two bits are different, and the negative integer that has both of them is admitted. -/
theorem checks_exactly_outermost : (∀ i ∈ outermost.items, i.index.toNat ≤ 63) ∧
    outermost.checkItems = .ok () ∧
    outermostMode.resolveBitfield { bitfields := [outermost] } = .ok (some outermost.id) := by
  have hb : ∀ i ∈ outermost.items, i.index.toNat ≤ 63 := by decide
  have hbits : ∀ k : Fin 64, (Int64.minValue + 1).toBitVec.getLsbD k = true →
      ∃ i ∈ outermost.items, i.index.toNat = k := by decide
  obtain ⟨hitems, _, hdefault⟩ := checks_exactly outermost hb
  refine ⟨hb, hitems.2 (by decide), ?_⟩
  have hfind :
      Document.findBitfield? { bitfields := [outermost] } "Outermost" = some outermost := by
    decide +kernel
  exact (hdefault _ _ _ _ rfl hfind rfl).1.2 fun k hk => hbits ⟨k, BitVec.lt_of_getLsbD hk⟩ hk

end Bitfield

end DataModel
