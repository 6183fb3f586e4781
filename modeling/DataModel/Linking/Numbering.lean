import DataModel.Document

/-!
# Numbering

Items declared without a value receive one more than the greatest value before them, and zero at the
front. Declared values are kept. No two items may end up with the same value.
-/

namespace DataModel

/-- The greatest of some values. -/
def greatest? (values : List Int64) : Option Int64 :=
  values.foldl (fun m v => some (m.elim v (max · v))) none

/-- The value of an item behind items with the given values: its own, else the next free one, if
there is one below 2⁶³. -/
def EnumItem.number? (i : EnumItem) (before : List Int64) : Option Int64 :=
  match i.value, greatest? before with
  | some v, _ => some v
  | none, none => some 0
  | none, some m => if m = Int64.maxValue then none else some (m + 1)

namespace Enumeration

/-- The items with their values; `before` holds the values of the items in front. -/
def numberItems (e : Enumeration) (before : List Int64) :
    List EnumItem → Except Error (List EnumItem)
  | [] => .ok []
  | i :: items =>
    match i.number? before with
    | none => failFlaw (.noValueLeft (qualified e.name i.name))
    | some v =>
      if before.contains v then fail (.duplicateValue (qualified e.name i.name) v)
      else do
        return { i with value := some v } :: (← e.numberItems (before ++ [v]) items)

/-- **The enumeration with a value for every item.** -/
def number (e : Enumeration) : Except Error Enumeration := do
  if e.items.isEmpty then failFlaw (.noItems .enumeration e.name)
  return { e with items := ← e.numberItems [] e.items }

end Enumeration

namespace Bitfield

/-- Refuses an item whose bit is among the bits `seen` in front of it. -/
def checkBits (b : Bitfield) (seen : UInt64) : List BitItem → Except Error Unit
  | [] => .ok ()
  | i :: items =>
    if seen &&& i.mask ≠ 0 then
      fail (.duplicateValue (qualified b.name i.name) (Int64.ofNat i.index.toNat))
    else b.checkBits (seen ||| i.mask) items

/-- **The set has items, and no two of them share a bit.** -/
def checkItems (b : Bitfield) : Except Error Unit := do
  if b.items.isEmpty then failFlaw (.noItems .bitfield b.name)
  b.checkBits 0 b.items

end Bitfield

end DataModel
