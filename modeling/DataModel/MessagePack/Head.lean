import DataModel.MessagePack.Word

/-!
# Heads

Every value begins with a head: a marker byte, and behind it the number, the length or the bits that
the marker announces. What follows the head is told by the head alone: as many bytes as a text, a
binary or an extension is long, as many values as an array has, twice as many as a map has, and else
nothing.

Heads are written in their shortest form and read in every form.
-/

namespace DataModel.MessagePack

/-- The head of a value. -/
inductive Head
  | nil
  | bool (b : Bool)
  /-- An integer in one of the forms without a sign. -/
  | unsigned (n : Nat)
  /-- An integer in one of the forms with a sign. -/
  | signed (n : Int)
  | single (bits : UInt32)
  | double (bits : UInt64)
  | text (length : Nat)
  | binary (length : Nat)
  | array (length : Nat)
  | map (length : Nat)
  /-- The type byte of an extension is not counted in its length. -/
  | extension (length : Nat)
  deriving DecidableEq

/-! ### Reading -/

/-- Reads a word and makes a head of it. -/
def readAs (width : Nat) (head : Nat → Head) (bytes : List UInt8) : Option (Head × List UInt8) :=
  (readWord width bytes).map fun (n, rest) => (head n, rest)

/-- The head of a signed integer of `width` bytes in two's complement. -/
def signedWord (width n : Nat) : Head :=
  .signed (if 2 * n < 1 <<< (8 * width) then n else n - (1 <<< (8 * width) : Nat))

/-- Reads the head behind one of the markers from `0xc0` to `0xdf`. -/
def readMarked (marker : Nat) (bytes : List UInt8) : Option (Head × List UInt8) :=
  match marker with
  | 0xc0 => some (.nil, bytes)
  | 0xc2 => some (.bool false, bytes)
  | 0xc3 => some (.bool true, bytes)
  | 0xc4 => readAs 1 .binary bytes
  | 0xc5 => readAs 2 .binary bytes
  | 0xc6 => readAs 4 .binary bytes
  | 0xc7 => readAs 1 .extension bytes
  | 0xc8 => readAs 2 .extension bytes
  | 0xc9 => readAs 4 .extension bytes
  | 0xca => readAs 4 (fun n => .single (UInt32.ofNat n)) bytes
  | 0xcb => readAs 8 (fun n => .double (UInt64.ofNat n)) bytes
  | 0xcc => readAs 1 .unsigned bytes
  | 0xcd => readAs 2 .unsigned bytes
  | 0xce => readAs 4 .unsigned bytes
  | 0xcf => readAs 8 .unsigned bytes
  | 0xd0 => readAs 1 (signedWord 1) bytes
  | 0xd1 => readAs 2 (signedWord 2) bytes
  | 0xd2 => readAs 4 (signedWord 4) bytes
  | 0xd3 => readAs 8 (signedWord 8) bytes
  | 0xd4 => some (.extension 1, bytes)
  | 0xd5 => some (.extension 2, bytes)
  | 0xd6 => some (.extension 4, bytes)
  | 0xd7 => some (.extension 8, bytes)
  | 0xd8 => some (.extension 16, bytes)
  | 0xd9 => readAs 1 .text bytes
  | 0xda => readAs 2 .text bytes
  | 0xdb => readAs 4 .text bytes
  | 0xdc => readAs 2 .array bytes
  | 0xdd => readAs 4 .array bytes
  | 0xde => readAs 2 .map bytes
  | 0xdf => readAs 4 .map bytes
  | _ => none

/-- **Reads the head of a value.** The marker `0xc1` begins none. -/
def readHead : List UInt8 → Option (Head × List UInt8)
  | [] => none
  | marker :: bytes =>
    let m := marker.toNat
    if m < 0x80 then some (.unsigned m, bytes)
    else if m < 0x90 then some (.map (m - 0x80), bytes)
    else if m < 0xa0 then some (.array (m - 0x90), bytes)
    else if m < 0xc0 then some (.text (m - 0xa0), bytes)
    else if m < 0xe0 then readMarked m bytes
    else some (.signed ((m : Int) - 0x100), bytes)

/-! ### Writing -/

/-- The head of a natural number below 2⁶⁴. -/
def writeNat (n : Nat) : List UInt8 :=
  if n < 0x80 then [UInt8.ofNat n]
  else if n < 0x100 then 0xcc :: word 1 n
  else if n < 0x10000 then 0xcd :: word 2 n
  else if n < 0x100000000 then 0xce :: word 4 n
  else 0xcf :: word 8 n

/-- The head of an integer from -2⁶³ on and below 2⁶⁴. -/
def writeInt (n : Int) : List UInt8 :=
  if 0 ≤ n then writeNat n.toNat
  else if -32 ≤ n then [UInt8.ofNat (0x100 + n).toNat]
  else if -0x80 ≤ n then 0xd0 :: word 1 (0x100 + n).toNat
  else if -0x8000 ≤ n then 0xd1 :: word 2 (0x10000 + n).toNat
  else if -0x80000000 ≤ n then 0xd2 :: word 4 (0x100000000 + n).toNat
  else 0xd3 :: word 8 (0x10000000000000000 + n).toNat

/-- The head of a text of `n` bytes, `n` below 2³². -/
def writeTextHead (n : Nat) : List UInt8 :=
  if n < 32 then [UInt8.ofNat (0xa0 + n)]
  else if n < 0x100 then 0xd9 :: word 1 n
  else if n < 0x10000 then 0xda :: word 2 n
  else 0xdb :: word 4 n

/-- The head of an array of `n` values, `n` below 2³². -/
def writeArrayHead (n : Nat) : List UInt8 :=
  if n < 16 then [UInt8.ofNat (0x90 + n)]
  else if n < 0x10000 then 0xdc :: word 2 n
  else 0xdd :: word 4 n

/-- The head of a map of `n` entries, `n` below 2³². -/
def writeMapHead (n : Nat) : List UInt8 :=
  if n < 16 then [UInt8.ofNat (0x80 + n)]
  else if n < 0x10000 then 0xde :: word 2 n
  else 0xdf :: word 4 n

/-! ### Skipping -/

/-- Applies a partial function `n` times. -/
def times {α : Type} (step : α → Option α) : (n : Nat) → α → Option α
  | 0, a => some a
  | n + 1, a => (step a).bind (times step n)

/-- Skips one value, with at most `levels` arrays, maps and extensions inside one another. -/
def skip : (levels : Nat) → List UInt8 → Option (List UInt8)
  | 0, bytes => do
    let (head, rest) ← readHead bytes
    match head with
    | .text n | .binary n => (readBytes n rest).map Prod.snd
    | .array _ | .map _ | .extension _ => none
    | _ => some rest
  | levels + 1, bytes => do
    let (head, rest) ← readHead bytes
    match head with
    | .text n | .binary n => (readBytes n rest).map Prod.snd
    | .extension n => (readBytes (n + 1) rest).map Prod.snd
    | .array n => times (skip levels) n rest
    | .map n => times (skip levels) (2 * n) rest
    | _ => some rest

end DataModel.MessagePack
