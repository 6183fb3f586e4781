import DataModel.MessagePack.Head

/-!
# Formats

A format of a type is a writer beside a reader of values from the front of a byte list. A reader is
told how many arrays and maps it may still enter. Formats write one form and read several: integers
in every width, texts from binaries too, an empty list from an empty binary.
-/

namespace DataModel.MessagePack

/-- How values of a type are written and read. -/
structure Format (α : Type) where
  write : α → List UInt8
  /-- Reads a value from the front, entering at most `levels` arrays and maps inside one another. -/
  read : (levels : Nat) → List UInt8 → Option (α × List UInt8)

/-! ### Keys -/

/-- What names a field of a record, or a case of a choice: its name, or its place. -/
inductive Key
  | name (bytes : List UInt8)
  | position (n : Nat)
  deriving DecidableEq

/-- The bytes of a text. -/
def utf8 (s : String) : List UInt8 := s.toUTF8.data.toList

/-- Reads a key: a text or a binary, or an integer without a sign. -/
def readKey (bytes : List UInt8) : Option (Key × List UInt8) := do
  let (head, rest) ← readHead bytes
  match head with
  | .text n | .binary n =>
    let (name, rest) ← readBytes n rest
    return (.name name, rest)
  | .unsigned n => return (.position n, rest)
  | _ => none

/-- The place of what a key names among some names. -/
def Key.index? (names : List String) : Key → Option Nat
  | .name bytes => names.findIdx? fun name => utf8 name == bytes
  | .position n => if n < names.length then some n else none

namespace Format

variable {α β : Type}

/-! ### Scalars -/

/-- Reads an integer in any form. -/
def readInteger (bytes : List UInt8) : Option (Int × List UInt8) := do
  match ← readHead bytes with
  | (.unsigned n, rest) => return ((n : Int), rest)
  | (.signed n, rest) => return (n, rest)
  | _ => none

/-- A type whose values are integers of some range. -/
def integer (toInt : α → Int) (ofInt? : Int → Option α) : Format α where
  write a := writeInt (toInt a)
  read _ bytes := do
    let (n, rest) ← readInteger bytes
    return (← ofInt? n, rest)

/-- Natural numbers below a bound. -/
def natural (bound : Nat) (toNat : α → Nat) (ofNat : (n : Nat) → n < bound → α) : Format α :=
  integer (fun a => toNat a) fun n =>
    if h : 0 ≤ n ∧ n.toNat < bound then some (ofNat n.toNat h.2) else none

/-- Bytes as integers. -/
def uint8 : Format UInt8 := natural UInt8.size UInt8.toNat fun n _ => UInt8.ofNat n

/-- Integers of 64 bits without a sign. -/
def uint64 : Format UInt64 := natural UInt64.size UInt64.toNat fun n _ => UInt64.ofNat n

/-- Integers of 64 bits with a sign. -/
def int64 : Format Int64 :=
  integer Int64.toInt fun n =>
    if -0x8000000000000000 ≤ n ∧ n < 0x8000000000000000 then some (Int64.ofInt n) else none

/-- Truth values. -/
def bool : Format Bool where
  write b := [if b then 0xc3 else 0xc2]
  read _ bytes := do
    match ← readHead bytes with
    | (.bool b, rest) => return (b, rest)
    | _ => none

/-- Texts. -/
def text : Format String where
  write s := writeTextHead (utf8 s).length ++ utf8 s
  read _ bytes := do
    match ← readHead bytes with
    | (.text n, rest) | (.binary n, rest) =>
      let (content, rest) ← readBytes n rest
      return (← String.fromUTF8? ⟨content.toArray⟩, rest)
    | _ => none

/-! ### Composites -/

/-- An absent value is nil. -/
def optional (f : Format α) : Format (Option α) where
  write
    | none => [0xc0]
    | some a => f.write a
  read levels
    | 0xc0 :: rest => some (none, rest)
    | bytes => (f.read levels bytes).map fun (a, rest) => (some a, rest)

/-- Reads a number of values. -/
def readMany (read : List UInt8 → Option (α × List UInt8)) :
    (n : Nat) → List UInt8 → Option (List α × List UInt8)
  | 0, bytes => some ([], bytes)
  | n + 1, bytes => do
    let (a, rest) ← read bytes
    let (as, rest) ← readMany read n rest
    return (a :: as, rest)

/-- Lists. -/
def list (f : Format α) : Format (List α) where
  write as := writeArrayHead as.length ++ as.flatMap f.write
  read levels bytes := do
    match ← readHead bytes, levels with
    | (.array n, rest), levels + 1 => readMany (f.read levels) n rest
    | (.binary 0, rest), _ => return ([], rest)
    | _, _ => none

end Format

end DataModel.MessagePack
