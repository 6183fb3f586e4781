import DataModel.MessagePack.Choice
import DataModel.Proofs.MessagePack.Heads
import Mathlib.Data.List.Nodup

/-!
# Formats read back what they wrote

`Format.Recovers f levels a b`: in front of any bytes, and within some levels, what the format `f`
wrote for `a` is read as `b`, and `b` would have been written the same way.  A format that leaves
nothing out recovers `a` itself; one that leaves out linked state recovers `a` without it.  Two
values are then written alike exactly if the same is recovered from both (`Recovers.write_eq_iff`).

The formats of scalars recover their values (`Format.int64_recovers`, `Format.text_recovers`,
`Format.choice_recovers` and others), and the composite formats recover what their parts recover
(`Format.optional_recovers`, `Format.list_recovers`).
-/

namespace DataModel.MessagePack

/-! ### Texts as bytes -/

theorem length_utf8 (s : String) : (utf8 s).length = s.utf8ByteSize := by
  rw [utf8, Array.length_toList]
  rfl

theorem fromUTF8?_utf8 (s : String) : String.fromUTF8? ⟨(utf8 s).toArray⟩ = some s := by
  rw [utf8, Array.toArray_toList]
  exact dif_pos s.isValidUTF8

theorem utf8_injective {s t : String} (h : utf8 s = utf8 t) : s = t := by
  have hs := fromUTF8?_utf8 s
  rw [h, fromUTF8?_utf8] at hs
  exact (Option.some.inj hs).symm

/-! ### Keys -/

/-- A name is found at its place. -/
theorem Key.index?_name {names : List String} (hnames : names.Nodup) {i : Nat} {name : String}
    (hi : names[i]? = some name) : (Key.name (utf8 name)).index? names = some i := by
  obtain ⟨hlt, hget⟩ := List.getElem?_eq_some_iff.1 hi
  rw [index?, List.findIdx?_eq_some_iff_getElem]
  refine ⟨hlt, by simp [hget], ?_⟩
  intro j hj
  have hne : names[j] ≠ name := by
    intro heq
    have hij := (List.Nodup.getElem_inj_iff hnames).1 (heq.trans hget.symm)
    omega
  simpa using fun h => hne (utf8_injective h)

namespace Format

variable {α β : Type}

/-- What was written for `a` is read as `b`, and is what would have been written for `b`. -/
structure Recovers (f : Format α) (levels : Nat) (a b : α) : Prop where
  read : ∀ rest, f.read levels (f.write a ++ rest) = some (b, rest)
  write : f.write b = f.write a

/-- **The bytes of two values agree exactly if what is recovered from them does.** -/
theorem Recovers.write_eq_iff {f : Format α} {levels : Nat} {a a' b b' : α}
    (h : f.Recovers levels a b) (h' : f.Recovers levels a' b') :
    f.write a = f.write a' ↔ b = b' := by
  constructor
  · intro heq
    have hread := h.read []
    rw [heq, h'.read []] at hread
    exact (congrArg Prod.fst (Option.some.inj hread)).symm
  · rintro rfl
    rw [← h.write, h'.write]

/-- A value is not written as nil. -/
def Present (f : Format α) (a : α) : Prop := ∀ rest bytes, f.write a ++ rest ≠ 0xc0 :: bytes

/-- Whatever is written behind another head than nil is not nil. -/
theorem present_of_readHead {f : Format α} {a : α} (head : Head) (hhead : head ≠ .nil)
    (h : ∀ rest, ∃ bytes, readHead (f.write a ++ rest) = some (head, bytes)) : f.Present a := by
  intro rest bytes heq
  obtain ⟨bytes', hread⟩ := h rest
  rw [heq] at hread
  have hnil : readHead (0xc0 :: bytes) = some (.nil, bytes) := rfl
  rw [hnil] at hread
  exact hhead (congrArg Prod.fst (Option.some.inj hread)).symm

variable {levels : Nat}

/-! ### Scalars -/

theorem readInteger_writeInt {k : Int} (h : Writable k) (rest : List UInt8) :
    readInteger (writeInt k ++ rest) = some (k, rest) := by
  have hlt := h.2
  rw [readInteger]
  -- A natural number is written without a sign, and read without one.
  by_cases hk : 0 ≤ k
  · rw [writeInt, if_pos hk, readHead_writeNat (by omega)]
    have hback : (k.toNat : Int) = k := Int.toNat_of_nonneg hk
    simp [hback]
  · rw [readHead_writeInt_negative h (by omega)]
    rfl

/-- An integer is not nil. -/
theorem readHead_writeInt {k : Int} (h : Writable k) :
    ∃ head, head ≠ .nil ∧ ∀ rest, readHead (writeInt k ++ rest) = some (head, rest) := by
  have hlt := h.2
  by_cases hk : 0 ≤ k
  · refine ⟨.unsigned k.toNat, nofun, fun rest => ?_⟩
    rw [writeInt, if_pos hk, readHead_writeNat (by omega)]
  · exact ⟨.signed k, nofun, fun rest => readHead_writeInt_negative h (by omega)⟩

theorem integer_recovers {toInt : α → Int} {ofInt? : Int → Option α} {a : α}
    (h : Writable (toInt a)) (ha : ofInt? (toInt a) = some a) :
    (integer toInt ofInt?).Recovers levels a a := by
  refine ⟨fun rest => ?_, rfl⟩
  simp [integer, readInteger_writeInt h, ha]

theorem integer_present {toInt : α → Int} {ofInt? : Int → Option α} {a : α}
    (h : Writable (toInt a)) : (integer toInt ofInt?).Present a := by
  obtain ⟨head, hhead, hread⟩ := readHead_writeInt h
  exact present_of_readHead head hhead fun rest => ⟨rest, hread rest⟩

theorem natural_recovers {bound : Nat} {toNat : α → Nat} {ofNat : (n : Nat) → n < bound → α} {a : α}
    (hbound : bound ≤ 0x10000000000000000) (hlt : toNat a < bound) (ha : ofNat (toNat a) hlt = a) :
    (natural bound toNat ofNat).Recovers levels a a := by
  apply integer_recovers
  · constructor <;> omega
  · simp [hlt, ha]

theorem natural_present {bound : Nat} {toNat : α → Nat} {ofNat : (n : Nat) → n < bound → α} {a : α}
    (hbound : bound ≤ 0x10000000000000000) (hlt : toNat a < bound) :
    (natural bound toNat ofNat).Present a := by
  apply integer_present
  constructor <;> omega

theorem uint8_recovers (a : UInt8) : uint8.Recovers levels a a :=
  natural_recovers (by decide) a.toNat_lt (UInt8.ofNat_toNat)

theorem uint64_recovers (a : UInt64) : uint64.Recovers levels a a :=
  natural_recovers (by decide) a.toNat_lt (UInt64.ofNat_toNat)

theorem uint64_present (a : UInt64) : uint64.Present a := natural_present (by decide) a.toNat_lt

theorem int64_recovers (a : Int64) : int64.Recovers levels a a := by
  have hle := a.le_toInt
  have hlt := a.toInt_lt
  refine integer_recovers ⟨hle, by omega⟩ ?_
  rw [if_pos ⟨hle, hlt⟩, Int64.ofInt_toInt]

theorem int64_present (a : Int64) : int64.Present a := by
  have hlt := a.toInt_lt
  exact integer_present ⟨a.le_toInt, by omega⟩

theorem bool_recovers (b : Bool) : bool.Recovers levels b b := by
  refine ⟨fun rest => ?_, rfl⟩
  cases b <;> rfl

theorem text_recovers {s : String} (hs : s.utf8ByteSize < 0x100000000) :
    text.Recovers levels s s := by
  refine ⟨fun rest => ?_, rfl⟩
  rw [← length_utf8] at hs
  simp [text, readHead_writeTextHead hs, readBytes_append, fromUTF8?_utf8]

theorem text_present {s : String} (hs : s.utf8ByteSize < 0x100000000) : text.Present s := by
  rw [← length_utf8] at hs
  refine present_of_readHead (.text (utf8 s).length) nofun ?_
  intro rest
  exact ⟨utf8 s ++ rest, by simp [text, readHead_writeTextHead hs]⟩

/-! ### Choices -/

/-- A text is read as the name of a key. -/
theorem readKey_text {s : String} (hs : s.utf8ByteSize < 0x100000000) (rest : List UInt8) :
    readKey (text.write s ++ rest) = some (.name (utf8 s), rest) := by
  rw [← length_utf8] at hs
  simp [readKey, text, readHead_writeTextHead hs, readBytes_append]

/-- A case without payload is read from its name. -/
theorem readCase_text {names : List String} (hnames : names.Nodup) {i : Nat} {name : String}
    (hi : names[i]? = some name) (hname : name.utf8ByteSize < 0x100000000) (rest : List UInt8) :
    readCase names (text.write name ++ rest) = some ((i, false), rest) := by
  have henter : enterChoice (text.write name ++ rest) = some (false, text.write name ++ rest) := by
    have hlength := hname
    rw [← length_utf8] at hlength
    simp [enterChoice, text, readHead_writeTextHead hlength]
  simp [readCase, henter, readKey_text hname, Key.index?_name hnames hi]

/-- A case with a payload is read from the head of a map and its name. -/
theorem readCase_payload {names : List String} (hnames : names.Nodup) {i : Nat} {name : String}
    (hi : names[i]? = some name) (hname : name.utf8ByteSize < 0x100000000) (rest : List UInt8) :
    readCase names (writeMapHead 1 ++ (text.write name ++ rest)) = some ((i, true), rest) := by
  have henter : enterChoice (writeMapHead 1 ++ (text.write name ++ rest)) =
      some (true, text.write name ++ rest) := by
    rw [enterChoice, readHead_writeMapHead (by decide)]
    rfl
  simp [readCase, henter, readKey_text hname, Key.index?_name hnames hi]

/-- A value of a vocabulary whose words are short is read back. -/
theorem choice_recovers [Vocabulary α]
    (hshort : ∀ a ∈ Vocabulary.all (α := α), (Vocabulary.word a).utf8ByteSize < 0x100000000)
    (a : α) : (choice α).Recovers levels a a := by
  refine ⟨fun rest => ?_, rfl⟩
  -- The place of a value among all of them is that of its word among the words.
  have ha := Vocabulary.mem_all a
  obtain ⟨i, hi⟩ := List.mem_iff_getElem?.1 ha
  have hword : (Vocabulary.words (α := α))[i]? = some (Vocabulary.word a) := by
    rw [Vocabulary.words, List.getElem?_map, hi]
    rfl
  have hnodup : (Vocabulary.words (α := α)).Nodup := Vocabulary.nodup_words
  simp [choice, readCase_text hnodup hword (hshort a ha), hi]

/-! ### Composites -/

/-- An optional value is recovered if it is when present, where it is not nil. -/
theorem optional_recovers {f : Format α} {g : α → α} {o : Option α}
    (h : ∀ a ∈ o, f.Present a ∧ f.Recovers levels a (g a)) :
    f.optional.Recovers levels o (o.map g) := by
  cases o with
  | none => exact ⟨fun rest => rfl, rfl⟩
  | some a =>
    obtain ⟨hpresent, hrecovers⟩ := h a rfl
    refine ⟨fun rest => ?_, hrecovers.write⟩
    have hread := hrecovers.read rest
    simp only [optional]
    -- A value that is not written as nil does not begin with the byte that stands for nil.
    split
    · next heq => exact absurd heq (hpresent rest _)
    · rw [hread]
      rfl

theorem readMany_flatMap {f : Format α} {g : α → α} {as : List α}
    (h : ∀ a ∈ as, f.Recovers levels a (g a)) (rest : List UInt8) :
    readMany (f.read levels) as.length (as.flatMap f.write ++ rest) = some (as.map g, rest) := by
  induction as with
  | nil => rfl
  | cons a as ih =>
    rw [List.forall_mem_cons] at h
    rw [List.length_cons, List.flatMap_cons, List.append_assoc, readMany, h.1.read]
    simp [ih h.2]

theorem flatMap_write {f : Format α} {g : α → α} {as : List α}
    (h : ∀ a ∈ as, f.Recovers levels a (g a)) :
    (as.map g).flatMap f.write = as.flatMap f.write := by
  induction as with
  | nil => rfl
  | cons a as ih =>
    rw [List.forall_mem_cons] at h
    rw [List.map_cons, List.flatMap_cons, List.flatMap_cons, h.1.write, ih h.2]

/-- A list is recovered member by member. -/
theorem list_recovers {f : Format α} {g : α → α} {as : List α} (hlength : as.length < 0x100000000)
    (h : ∀ a ∈ as, f.Recovers levels a (g a)) :
    (list f).Recovers (levels + 1) as (as.map g) := by
  constructor
  · intro rest
    simp [list, readHead_writeArrayHead hlength, readMany_flatMap h]
  · simp only [list, List.length_map, flatMap_write h]

end Format

end DataModel.MessagePack
