import DataModel.MessagePack.Head
import Mathlib.Tactic.SplitIfs

/-!
# Heads are read back

Every head that is written is read back from the front of any bytes: `readHead_writeNat`,
`readHead_writeInt_negative`, `readHead_writeTextHead`, `readHead_writeArrayHead` and
`readHead_writeMapHead`.

There are two shapes.  A short head is one byte that holds the marker and the number
(`readHead_short`); a long one is a marker in front of a word (`readAs_word`).
-/

namespace DataModel.MessagePack

variable {rest : List UInt8} {n : Nat}

/-! ### The two shapes of a head -/

theorem toNat_marker {m : Nat} (h : m < 0x100) : (UInt8.ofNat m).toNat = m :=
  UInt8.toNat_ofNat_of_lt' h

theorem readAs_word (width : Nat) {head : Nat → Head} (h : n < 1 <<< (8 * width)) :
    readAs width head (word width n ++ rest) = some (head n, rest) := by
  rw [readAs, readWord_word h]
  rfl

theorem readHead_small (h : n < 0x80) :
    readHead (UInt8.ofNat n :: rest) = some (.unsigned n, rest) := by
  have hm : (UInt8.ofNat n).toNat = n := toNat_marker (by omega)
  simp only [readHead, hm]
  rw [if_pos h]

theorem readHead_shortMap (h : n < 16) :
    readHead (UInt8.ofNat (0x80 + n) :: rest) = some (.map n, rest) := by
  have hm : (UInt8.ofNat (0x80 + n)).toNat = 0x80 + n := toNat_marker (by omega)
  simp only [readHead, hm]
  rw [if_neg (by omega), if_pos (by omega), Nat.add_sub_cancel_left]

theorem readHead_shortArray (h : n < 16) :
    readHead (UInt8.ofNat (0x90 + n) :: rest) = some (.array n, rest) := by
  have hm : (UInt8.ofNat (0x90 + n)).toNat = 0x90 + n := toNat_marker (by omega)
  simp only [readHead, hm]
  rw [if_neg (by omega), if_neg (by omega), if_pos (by omega), Nat.add_sub_cancel_left]

theorem readHead_shortText (h : n < 32) :
    readHead (UInt8.ofNat (0xa0 + n) :: rest) = some (.text n, rest) := by
  have hm : (UInt8.ofNat (0xa0 + n)).toNat = 0xa0 + n := toNat_marker (by omega)
  simp only [readHead, hm]
  rw [if_neg (by omega), if_neg (by omega), if_neg (by omega), if_pos (by omega),
    Nat.add_sub_cancel_left]

theorem readHead_negative {k : Int} (h : -32 ≤ k) (h' : k < 0) :
    readHead (UInt8.ofNat (0x100 + k).toNat :: rest) = some (.signed k, rest) := by
  have hm : (UInt8.ofNat (0x100 + k).toNat).toNat = (0x100 + k).toNat := toNat_marker (by omega)
  simp only [readHead, hm]
  rw [if_neg (by omega), if_neg (by omega), if_neg (by omega), if_neg (by omega),
    if_neg (by omega)]
  have hk : (((0x100 + k).toNat : Nat) : Int) - 0x100 = k := by omega
  rw [hk]

/-! ### Lengths -/

theorem readHead_writeTextHead (h : n < 0x100000000) :
    readHead (writeTextHead n ++ rest) = some (.text n, rest) := by
  unfold writeTextHead
  split_ifs with h₁ h₂ h₃
  · exact readHead_shortText h₁
  · exact readAs_word 1 h₂
  · exact readAs_word 2 h₃
  · exact readAs_word 4 h

theorem readHead_writeArrayHead (h : n < 0x100000000) :
    readHead (writeArrayHead n ++ rest) = some (.array n, rest) := by
  unfold writeArrayHead
  split_ifs with h₁ h₂
  · exact readHead_shortArray h₁
  · exact readAs_word 2 h₂
  · exact readAs_word 4 h

theorem readHead_writeMapHead (h : n < 0x100000000) :
    readHead (writeMapHead n ++ rest) = some (.map n, rest) := by
  unfold writeMapHead
  split_ifs with h₁ h₂
  · exact readHead_shortMap h₁
  · exact readAs_word 2 h₂
  · exact readAs_word 4 h

/-! ### Integers -/

/-- The integers of 64 bits, with a sign or without. -/
def Writable (k : Int) : Prop := -0x8000000000000000 ≤ k ∧ k < 0x10000000000000000

theorem readHead_writeNat (h : n < 0x10000000000000000) :
    readHead (writeNat n ++ rest) = some (.unsigned n, rest) := by
  unfold writeNat
  split_ifs with h₁ h₂ h₃ h₄
  · exact readHead_small h₁
  · exact readAs_word 1 h₂
  · exact readAs_word 2 h₃
  · exact readAs_word 4 h₄
  · exact readAs_word 8 h

/-- A negative number is read back from its two's complement. -/
theorem readAs_signedWord (width : Nat) {k : Int} (h : -(1 <<< (8 * width) : Nat) ≤ 2 * k)
    (h' : k < 0) :
    readAs width (signedWord width) (word width ((1 <<< (8 * width) : Nat) + k).toNat ++ rest) =
      some (.signed k, rest) := by
  have hlt : ((1 <<< (8 * width) : Nat) + k).toNat < 1 <<< (8 * width) := by omega
  -- The complement lies in the upper half, which is read as negative.
  have hge : ¬2 * ((1 <<< (8 * width) : Nat) + k).toNat < 1 <<< (8 * width) := by omega
  have hback : (((1 <<< (8 * width) : Nat) + k).toNat : Int) - (1 <<< (8 * width) : Nat) = k := by
    omega
  rw [readAs_word width hlt, signedWord, if_neg hge, hback]

/-- The head of a negative number is read back. -/
theorem readHead_writeInt_negative {k : Int} (h : Writable k) (h' : k < 0) :
    readHead (writeInt k ++ rest) = some (.signed k, rest) := by
  have hle := h.1
  unfold writeInt
  rw [if_neg (by omega)]
  -- One case for each width, the widest last.
  split_ifs with h₁ h₂ h₃ h₄
  · exact readHead_negative h₁ h'
  · exact readAs_signedWord 1 (by omega) h'
  · exact readAs_signedWord 2 (by omega) h'
  · exact readAs_signedWord 4 (by omega) h'
  · exact readAs_signedWord 8 (by omega) h'

end DataModel.MessagePack
