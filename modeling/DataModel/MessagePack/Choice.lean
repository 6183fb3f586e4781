import DataModel.MessagePack.Format
import DataModel.Vocabulary

/-!
# Choices

A choice is one of several named cases, and a case may carry a payload. A case without payload is
written as its name alone. It is also read behind the head of a map of length one, where its payload
is nil; a case with a payload is always written and read behind such a head.
-/

namespace DataModel.MessagePack

/-- Enters a choice: whether a payload follows the name, and the bytes from the name on. -/
def enterChoice (bytes : List UInt8) : Option (Bool × List UInt8) :=
  match readHead bytes with
  | some (.map n, rest) => if n = 1 then some (true, rest) else none
  | _ => some (false, bytes)

/-- Reads which of some cases is meant, and whether a payload follows. -/
def readCase (names : List String) (bytes : List UInt8) : Option ((Nat × Bool) × List UInt8) := do
  let (payload, bytes) ← enterChoice bytes
  let (key, bytes) ← readKey bytes
  return ((← key.index? names, payload), bytes)

/-- The payload of a case that carries none. -/
def readNil : List UInt8 → Option (List UInt8)
  | 0xc0 :: rest => some rest
  | _ => none

/-- **The format of a vocabulary**: a choice between its words. -/
def Format.choice (α : Type) [Vocabulary α] : Format α where
  write a := Format.text.write (Vocabulary.word a)
  read _ bytes := do
    let ((place, payload), bytes) ← readCase (Vocabulary.words (α := α)) bytes
    let a ← (Vocabulary.all (α := α))[place]?
    return (a, ← if payload then readNil bytes else some bytes)

end DataModel.MessagePack
