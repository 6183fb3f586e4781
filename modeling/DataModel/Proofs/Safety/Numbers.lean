import DataModel.Linking.Fields
import DataModel.Proofs.Safety.Watched
import Mathlib.Tactic.SplitIfs

/-!
# Shifts and sums

Two steps of binding fields work on words.  The mask of a bit is a shift by its index, which has to
be at most 63, and an item without a value is numbered by adding one, which has to stay below 2⁶³.

Numbering looks at the greatest value first, so it never adds one to it (`Watched.number_eq`).  A
mask is taken wherever a set is checked and wherever a default is compared with the bits of a set,
and nothing looks at the index then.  That is safe in a document whose bits are in range
(`Watched.bindFields_eq`), which the check of its declarations makes sure of.
-/

namespace DataModel

/-- Every bit of a set is one of a word of 64 bits. -/
def Bitfield.InRange (b : Bitfield) : Prop := ∀ i ∈ b.items, i.index.toNat ≤ 63

namespace Watched

/-! ### Watched forms -/

/-- The mask of an item, whose bit has to be one of the word. -/
def mask (i : BitItem) : Watched Error UInt64 :=
  if i.index.toNat ≤ 63 then pure i.mask else stop .shift

/-- Refuses an item whose bit is among the bits `seen` in front of it. -/
def checkBits (b : Bitfield) (seen : UInt64) : List BitItem → Watched Error Unit
  | [] => return
  | i :: items => do
    if seen &&& (← mask i) ≠ 0 then
      of (fail (.duplicateValue (qualified b.name i.name) (Int64.ofNat i.index.toNat)))
    else checkBits b (seen ||| (← mask i)) items

/-- The set has items, and no two of them share a bit. -/
def checkItems (b : Bitfield) : Watched Error Unit :=
  if b.items.isEmpty then of (failFlaw (.noItems .bitfield b.name)) else checkBits b 0 b.items

/-- The bits of some items, together with those of `m`. -/
def joinBits (m : UInt64) : List BitItem → Watched Error UInt64
  | [] => return m
  | i :: items => do joinBits (m ||| (← mask i)) items

/-- One more than a number, which the word has to hold. -/
def next (v : Int64) : Watched Error Int64 :=
  if v.toInt + 1 ≤ Int64.maxValue.toInt then pure (v + 1) else stop .overflow

/-- The value of an item behind items with the given values. -/
def number? (i : EnumItem) (before : List Int64) : Watched Error (Option Int64) :=
  match i.value, greatest? before with
  | some v, _ => return some v
  | none, none => return some 0
  | none, some m => if m = Int64.maxValue then return none else return some (← next m)

/-- The items with their values; `before` holds the values of the items in front. -/
def numberItems (e : Enumeration) (before : List Int64) :
    List EnumItem → Watched Error (List EnumItem)
  | [] => return []
  | i :: items => do
    match ← number? i before with
    | none => of (failFlaw (.noValueLeft (qualified e.name i.name)))
    | some v =>
      if before.contains v then of (fail (.duplicateValue (qualified e.name i.name) v))
      else return { i with value := some v } :: (← numberItems e (before ++ [v]) items)

/-- The enumeration with a value for every item. -/
def number (e : Enumeration) : Watched Error Enumeration :=
  if e.items.isEmpty then of (failFlaw (.noItems .enumeration e.name))
  else do return { e with items := ← numberItems e [] e.items }

/-- The bit-field set that a field names. An integer default sets declared bits only. -/
def resolveBitfield (d : Document) (f : Field) : Watched Error (Option (Handle .bitfield)) :=
  match f.bitfield with
  | none => return none
  | some l => do
    let bitfield ← of (orFail (d.findBitfield? l.name) (.unknownBitfield l.name))
    match f.defaultValue with
    | some (.integer v) =>
      if v.toUInt64 &&& ~~~(← joinBits 0 bitfield.items) ≠ 0 then
        of (fail (.invalidDefault (.undeclaredBits v bitfield.name)))
      else return some bitfield.id
    | _ => return some bitfield.id

/-- What the names in a field stand for, under the handle of the field. -/
def resolve (d : Document) (e : Entity) (f : Field) : Watched Error (List (FieldId × Binding)) := do
  let reference ← of (f.resolveReference d e)
  let source ← of (f.resolveStruct d e)
  let enumeration ← of (f.resolveEnumeration d)
  let bitfield ← resolveBitfield d f
  if f.type = .struct ∧ f.structSource.isNone then of (failFlaw (.structWithoutSource f.name))
  else
    let found := (reference.map Binding.reference).toList ++ (source.map .structSource).toList ++
      (enumeration.map .enumeration).toList ++ (bitfield.map .bitfield).toList
    return found.map fun b => (f.id, b)

/-- The document with its enumerations numbered and its fields bound. -/
def bindFields (d : Document) : Watched Error Document := do
  let enums ← d.enums.mapM fun e => placed { entity := some e.name } (number e)
  d.bitfields.forM fun b => placed { entity := some b.name } (checkItems b)
  let found ← d.entities.mapM fun e => e.fields.mapM fun f =>
    placed { entity := some e.name, field := some f.name } (resolve { d with enums } e f)
  return found.flatten.flatten.foldl Document.fill { d with enums }

/-! ### Sums -/

/-- Below the greatest number there is one more. -/
theorem next_eq {m : Int64} (hm : m ≠ Int64.maxValue) : next m = pure (m + 1) := by
  have hle : m.toInt + 1 ≤ Int64.maxValue.toInt := by
    have hlt : m.toInt < 2 ^ 63 := m.toInt_lt
    have hne : m.toInt ≠ Int64.maxValue.toInt := fun heq => hm (Int64.toInt_inj.1 heq)
    have hmax : Int64.maxValue.toInt = 2 ^ 63 - 1 := by decide
    omega
  exact if_pos hle

theorem number?_eq (i : EnumItem) (before : List Int64) :
    number? i before = pure (i.number? before) := by
  unfold number? EnumItem.number?
  cases i.value with
  | some v => rfl
  | none =>
    cases greatest? before with
    | none => rfl
    | some m =>
      by_cases hm : m = Int64.maxValue
      · simp only [hm, if_true]
      · simp only [hm, if_false, next_eq hm]
        rfl

theorem numberItems_eq (e : Enumeration) (before : List Int64) (items : List EnumItem) :
    numberItems e before items = of (e.numberItems before items) := by
  induction items generalizing before with
  | nil => rfl
  | cons i items ih =>
    rw [numberItems, Enumeration.numberItems, number?_eq, pure_bind]
    cases i.number? before with
    | none => rfl
    | some v =>
      dsimp only
      split_ifs
      · rfl
      · rw [ih, of_bind]
        rfl

/-- **Numbering never exceeds a word.** -/
theorem number_eq (e : Enumeration) : number e = of e.number := by
  unfold number Enumeration.number
  split_ifs
  · rfl
  · rw [numberItems_eq, of_bind]
    rfl

/-! ### Shifts -/

theorem mask_eq {i : BitItem} (hi : i.index.toNat ≤ 63) : mask i = pure i.mask := if_pos hi

theorem checkBits_eq (b : Bitfield) (seen : UInt64) {items : List BitItem}
    (hitems : ∀ i ∈ items, i.index.toNat ≤ 63) :
    checkBits b seen items = of (b.checkBits seen items) := by
  induction items generalizing seen with
  | nil => rfl
  | cons i items ih =>
    rw [List.forall_mem_cons] at hitems
    rw [checkBits, Bitfield.checkBits, mask_eq hitems.1, pure_bind, pure_bind]
    split_ifs
    · rfl
    · exact ih _ hitems.2

/-- The bits of a set are checked without a fault. -/
theorem checkItems_eq {b : Bitfield} (hb : b.InRange) : checkItems b = of b.checkItems := by
  unfold checkItems Bitfield.checkItems
  split_ifs
  · rfl
  · exact checkBits_eq b 0 hb

theorem joinBits_eq (m : UInt64) {items : List BitItem} (hitems : ∀ i ∈ items, i.index.toNat ≤ 63) :
    joinBits m items = pure (items.foldl (fun m i => m ||| i.mask) m) := by
  induction items generalizing m with
  | nil => rfl
  | cons i items ih =>
    rw [List.forall_mem_cons] at hitems
    rw [joinBits, mask_eq hitems.1]
    exact ih _ hitems.2

/-! ### Binding fields -/

section

variable {d : Document} (hbits : ∀ b ∈ d.bitfields, b.InRange)

include hbits

/-- The set that is compared with a default is one of the document. -/
theorem resolveBitfield_eq (f : Field) : resolveBitfield d f = of (f.resolveBitfield d) := by
  unfold resolveBitfield Field.resolveBitfield
  cases f.bitfield with
  | none => rfl
  | some l =>
    cases hfind : d.findBitfield? l.name with
    | none =>
      simp only [hfind]
      rfl
    | some bitfield =>
      have hjoin : joinBits 0 bitfield.items = pure bitfield.mask :=
        joinBits_eq 0 (hbits bitfield (List.mem_of_find?_eq_some hfind))
      simp only [hfind, hjoin, orFail, of_bind, of_ok, pure_bind]
      rcases f.defaultValue with _ | v | v | v
      · rfl
      · dsimp only
        split_ifs <;> rfl
      · rfl
      · rfl

theorem resolve_eq (e : Entity) (f : Field) : resolve d e f = of (f.resolve d e) := by
  unfold resolve Field.resolve
  simp only [resolveBitfield_eq hbits, of_bind]
  split_ifs <;> rfl

/-- **Binding fields has no fault** where all bits are in range. -/
theorem bindFields_eq : bindFields d = of d.bindFields := by
  have hnumber : (d.enums.mapM fun e => placed { entity := some e.name } (number e)) =
      of (d.enums.mapM fun e => DataModel.placed { entity := some e.name } e.number) :=
    mapM_eq fun e _ => by rw [number_eq, placed_of]
  have hcheck : (d.bitfields.forM fun b => placed { entity := some b.name } (checkItems b)) =
      of (d.bitfields.forM fun b => DataModel.placed { entity := some b.name } b.checkItems) :=
    forM_eq fun b hb => by rw [checkItems_eq (hbits b hb), placed_of]
  have hresolve (enums : List Enumeration) :
      (d.entities.mapM fun e => e.fields.mapM fun f =>
        placed { entity := some e.name, field := some f.name }
          (resolve { d with enums } e f)) =
      of (d.entities.mapM fun e => e.fields.mapM fun f =>
        DataModel.placed { entity := some e.name, field := some f.name }
          (f.resolve { d with enums } e)) :=
    mapM_eq fun e _ => mapM_eq fun f _ => by
      -- The sets are those of the document, whatever its enumerations are.
      have hbits' : ∀ b ∈ ({ d with enums } : Document).bitfields, b.InRange := hbits
      rw [resolve_eq hbits', placed_of]
  unfold bindFields Document.bindFields
  simp only [hnumber, hcheck, hresolve, of_bind]
  rfl

end

end Watched

end DataModel
