/-!
# Big-endian words

Numbers of a fixed width in bytes, the most significant byte first.

Main statement: `readWord_word`, a word is read back from the front of any bytes.
-/

namespace DataModel.MessagePack

/-- The `width` bytes of a number, the most significant first. -/
def word : (width : Nat) → Nat → List UInt8
  | 0, _ => []
  | width + 1, n => UInt8.ofNat (n >>> (8 * width)) :: word width n

/-- Reads `width` bytes behind those that were already read as `high`. -/
def readWordFrom (high : Nat) : (width : Nat) → List UInt8 → Option (Nat × List UInt8)
  | 0, bytes => some (high, bytes)
  | _ + 1, [] => none
  | width + 1, b :: bytes => readWordFrom (high * 256 + b.toNat) width bytes

/-- Reads a number of `width` bytes. -/
def readWord (width : Nat) (bytes : List UInt8) : Option (Nat × List UInt8) :=
  readWordFrom 0 width bytes

/-- Splits off a number of bytes. Only these are counted, however many follow. -/
def readBytes (n : Nat) (bytes : List UInt8) : Option (List UInt8 × List UInt8) :=
  let front := bytes.take n
  if front.length = n then some (front, bytes.drop n) else none

theorem readWordFrom_word (high width n : Nat) (rest : List UInt8) :
    readWordFrom high width (word width n ++ rest) =
      some (high <<< (8 * width) + n % (1 <<< (8 * width)), rest) := by
  induction width generalizing high with
  | zero => simp [word, readWordFrom, Nat.mod_one]
  | succ width ih =>
    rw [word, List.cons_append, readWordFrom, ih]
    have hbyte : (UInt8.ofNat (n >>> (8 * width))).toNat = n / 2 ^ (8 * width) % 256 := by
      simp [Nat.shiftRight_eq_div_pow]
    have hpow : 2 ^ (8 * (width + 1)) = 2 ^ (8 * width) * 256 := by
      rw [Nat.mul_succ, Nat.pow_add]
    simp only [hbyte, hpow, Nat.shiftLeft_eq, Nat.one_mul, Nat.mod_mul]
    refine congrArg (fun k => some (k, rest)) ?_
    rw [Nat.add_mul, Nat.mul_assoc, Nat.mul_comm 256, Nat.mul_comm (n / 2 ^ (8 * width) % 256)]
    omega

/-- **A word is read back from the front of any bytes.** -/
theorem readWord_word {width n : Nat} (h : n < 1 <<< (8 * width)) (rest : List UInt8) :
    readWord width (word width n ++ rest) = some (n, rest) := by
  rw [readWord, readWordFrom_word, Nat.mod_eq_of_lt h, Nat.zero_shiftLeft, Nat.zero_add]

theorem readBytes_append (bytes rest : List UInt8) :
    readBytes bytes.length (bytes ++ rest) = some (bytes, rest) := by
  simp [readBytes]

end DataModel.MessagePack
