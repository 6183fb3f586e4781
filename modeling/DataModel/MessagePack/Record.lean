import DataModel.MessagePack.Format

/-!
# Records

A record is described once, by the list of its fields. It is written as a map from field names, in
order. It is read from a map whose keys stand in any order, where unknown keys are skipped with
their values, no field may come twice, and a field may be missing if its absence means something; or
from an array that holds exactly the fields, in order.

While a map is read, the fields seen so far are held in a *draft*: one optional value per field.
-/

namespace DataModel.MessagePack

/-- The fields of a record, with the types of its values and of its drafts. -/
inductive Fields : (α δ : Type) → Type 1
  | nil : Fields Unit Unit
  /-- A field, its format, and the value that its absence means, if any. -/
  | cons {α β δ : Type} (key : String) (format : Format α) (absent : Option α)
      (rest : Fields β δ) : Fields (α × β) (Option α × δ)

namespace Fields

/-- A field that may not be missing. -/
abbrev required {α β δ : Type} (key : String) (format : Format α) (rest : Fields β δ) :
    Fields (α × β) (Option α × δ) :=
  .cons key format none rest

/-- A field that is absent if it is missing. -/
abbrev optional {α β δ : Type} (key : String) (format : Format α) (rest : Fields β δ) :
    Fields (Option α × β) (Option (Option α) × δ) :=
  .cons key format.optional (some none) rest

variable {α δ : Type}

/-- The names of the fields. -/
def keys {α δ : Type} : Fields α δ → List String
  | .nil => []
  | .cons key _ _ rest => key :: rest.keys

/-- The draft without any field. -/
def blank {α δ : Type} : Fields α δ → δ
  | .nil => ()
  | .cons _ _ _ rest => (none, rest.blank)

/-- The entries of a record. -/
def write {α δ : Type} : Fields α δ → α → List UInt8
  | .nil, () => []
  | .cons key format _ rest, (a, b) => Format.text.write key ++ format.write a ++ rest.write b

/-- Reads the field at a place into a draft that does not hold it yet. -/
def readAt {α δ : Type} (levels : Nat) :
    Fields α δ → (place : Nat) → δ → List UInt8 → Option (δ × List UInt8)
  | .nil, _, _, _ => none
  | .cons _ format _ _, 0, (none, draft), bytes =>
    (format.read levels bytes).map fun (a, bytes) => ((some a, draft), bytes)
  | .cons _ _ _ _, 0, (some _, _), _ => none
  | .cons _ _ _ rest, place + 1, (a?, draft), bytes =>
    (rest.readAt levels place draft bytes).map fun (draft, bytes) => ((a?, draft), bytes)

/-- The record of a draft. -/
def finish {α δ : Type} : Fields α δ → δ → Option α
  | .nil, () => some ()
  | .cons _ _ absent rest, (a?, draft) => do
    let a ← a?.or absent
    let b ← rest.finish draft
    return (a, b)

/-- Reads `n` entries of a map into a draft. -/
def readEntries (levels : Nat) (fields : Fields α δ) :
    (n : Nat) → δ → List UInt8 → Option (δ × List UInt8)
  | 0, draft, bytes => some (draft, bytes)
  | n + 1, draft, bytes => do
    let (key, bytes) ← readKey bytes
    match key.index? fields.keys with
    | some place =>
      let (draft, bytes) ← fields.readAt levels place draft bytes
      readEntries levels fields n draft bytes
    | none => readEntries levels fields n draft (← skip levels bytes)

/-- Reads the fields in order. -/
def readInOrder {α δ : Type} (levels : Nat) : Fields α δ → List UInt8 → Option (α × List UInt8)
  | .nil, bytes => some ((), bytes)
  | .cons _ format _ rest, bytes => do
    let (a, bytes) ← format.read levels bytes
    let (b, bytes) ← rest.readInOrder levels bytes
    return ((a, b), bytes)

end Fields

/-- **The format of a record**, which is unpacked into the values of its fields and packed again. -/
def Format.record {ρ α δ : Type} (fields : Fields α δ) (unpack : ρ → α) (pack : α → ρ) :
    Format ρ where
  write r := writeMapHead fields.keys.length ++ fields.write (unpack r)
  read
    | 0, _ => none
    | levels + 1, bytes => do
      match ← readHead bytes with
      | (.map n, bytes) =>
        let (draft, bytes) ← fields.readEntries levels n fields.blank bytes
        return (pack (← fields.finish draft), bytes)
      | (.array n, bytes) =>
        if n ≠ fields.keys.length then none
        else
          let (a, bytes) ← fields.readInOrder levels bytes
          return (pack a, bytes)
      | _ => none

end DataModel.MessagePack
