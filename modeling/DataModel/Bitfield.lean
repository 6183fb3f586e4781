import DataModel.Error
import DataModel.Label

/-!
# Bit-field sets

Named bits that are stored together in one integer of 64 bits. The index of a new item has to be at
most `maxBitIndex`; whether two items share a bit is found out when the document is linked.
-/

namespace DataModel

/-- A named bit. -/
structure BitItem where
  name : String
  index : UInt8
  doc : Option String := none
  labels : List Label := []
  deriving DecidableEq

/-- The integer with only this bit set. -/
def BitItem.mask (i : BitItem) : UInt64 := 1 <<< i.index.toUInt64

/-- A bit-field set. -/
structure Bitfield where
  id : Handle .bitfield
  name : String
  canonical : String
  doc : Option String := none
  items : List BitItem := []
  /-- The labels of the value without bits. -/
  labelsUnset : List Label := []
  /-- The labels of the null value. -/
  labelsNull : List Label := []
  deriving DecidableEq

namespace Bitfield

/-- A new set without items. -/
def declare (id : Handle .bitfield) (name : String) : Bitfield :=
  { id, name, canonical := Ident.canonical name }

/-- The first item of a name. -/
def item? (b : Bitfield) (name : String) : Option BitItem :=
  b.items.find? fun i => Ident.same i.name name

/-- The bits of all items together. -/
def mask (b : Bitfield) : UInt64 := b.items.foldl (fun m i => m ||| i.mask) 0

/-- The new item of a name and an index. Its name has to be new and its index in range. -/
def newItem (b : Bitfield) (name : String) (index : Int) : Except Error BitItem := do
  Scope.bitItem.checkNew name (b.items.map BitItem.name)
  if 0 ≤ index ∧ index ≤ maxBitIndex then return { name, index := UInt8.ofNat index.toNat }
  else failFlaw (.bitIndex index b.name name)

/-- The set with one more item, described by its documentation and its labels. -/
def addItem (b : Bitfield) (name : String) (index : Int) (doc : Option String)
    (labels : List Label) : Except Error (BitItem × Bitfield) := do
  let item := { ← b.newItem name index with doc, labels }
  return (item, { b with items := b.items ++ [item] })

end Bitfield

end DataModel
