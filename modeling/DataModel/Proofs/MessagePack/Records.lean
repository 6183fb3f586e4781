import DataModel.MessagePack.Record
import DataModel.Proofs.MessagePack.Formats

/-!
# Records read back what they wrote

`Format.record_recovers`: a record recovers what its fields recover, if they have different names.
It is written as a map and read as one, entry by entry, in any order.

The reader does not know that the entries come in order.  It looks every name up among all fields
and enters the value into the draft of the whole record.  The induction is on the fields that are
still to be read; `Fields.Behind` says where they stand in the whole record, and how a draft of them
becomes a draft of the whole.
-/

namespace DataModel.MessagePack

namespace Fields

variable {α δ β ε : Type} {levels : Nat}

/-- Every field is recovered, `b` holding what was written as `a`. -/
inductive Recovers (levels : Nat) : {α δ : Type} → Fields α δ → α → α → Prop
  | nil : Recovers levels .nil () ()
  | cons {α β δ : Type} {key : String} {format : Format α} {absent : Option α} {rest : Fields β δ}
      {a a' : α} {b b' : β} (head : format.Recovers levels a a')
      (tail : Recovers levels rest b b') :
      Recovers levels (.cons key format absent rest) (a, b) (a', b')

theorem Recovers.write {α δ : Type} {fields : Fields α δ} {a a' : α}
    (h : fields.Recovers levels a a') : fields.write a' = fields.write a := by
  induction h with
  | nil => rfl
  | cons head _ ih => rw [Fields.write, Fields.write, head.write, ih]

/-- The draft that holds every field. -/
def draft {α δ : Type} : Fields α δ → α → δ
  | .nil, () => ()
  | .cons _ _ _ rest, (a, b) => (some a, rest.draft b)

theorem finish_draft {α δ : Type} (fields : Fields α δ) (a : α) :
    fields.finish (fields.draft a) = some a := by
  induction fields with
  | nil => rfl
  | cons key format absent rest ih =>
    obtain ⟨a, b⟩ := a
    simp [draft, finish, ih]

/-- The fields have different names, and neither the names nor the record are too long. -/
structure Named (fields : Fields α δ) : Prop where
  nodup : fields.keys.Nodup
  short : ∀ key ∈ fields.keys, key.utf8ByteSize < 0x100000000
  length : fields.keys.length < 0x100000000

instance (fields : Fields α δ) : Decidable fields.Named :=
  decidable_of_iff
    (fields.keys.Nodup ∧ (∀ key ∈ fields.keys, key.utf8ByteSize < 0x100000000) ∧
      fields.keys.length < 0x100000000)
    ⟨fun ⟨h, h', h''⟩ => ⟨h, h', h''⟩, fun ⟨h, h', h''⟩ => ⟨h, h', h''⟩⟩

/-- Some fields are the last ones of a record, behind those that are named in `before`.  A draft of
them becomes a draft of the record by `inject`. -/
structure Behind (levels : Nat) (whole : Fields α δ) (fields : Fields β ε) (before : List String)
    (inject : ε → δ) : Prop where
  keys : whole.keys = before ++ fields.keys
  readAt : ∀ place draft bytes, whole.readAt levels (before.length + place) (inject draft) bytes =
    (fields.readAt levels place draft bytes).map fun (draft, bytes) => (inject draft, bytes)

theorem Behind.refl (fields : Fields α δ) : Behind levels fields fields [] id := by
  refine ⟨rfl, ?_⟩
  intro place draft bytes
  simp

/-- Once its first field is read, the others stand behind it. -/
theorem Behind.tail {γ : Type} {whole : Fields α δ} {key : String} {format : Format γ}
    {absent : Option γ} {rest : Fields β ε} {before : List String} {inject : Option γ × ε → δ}
    (h : Behind levels whole (.cons key format absent rest) before inject) (a : γ) :
    Behind levels whole rest (before ++ [key]) fun draft => inject (some a, draft) := by
  constructor
  · rw [List.append_assoc]
    exact h.keys
  · intro place draft bytes
    have hread := h.readAt (place + 1) (some a, draft) bytes
    rw [List.length_append, List.length_singleton, Nat.add_assoc, Nat.add_comm 1 place, hread,
      Fields.readAt, Option.map_map]
    rfl

/-- **The entries of a record are read into its draft.** -/
theorem readEntries_write {whole : Fields α δ} (hnamed : whole.Named) {fields : Fields β ε}
    {b b' : β} (h : fields.Recovers levels b b') {before : List String} {inject : ε → δ}
    (hbehind : Behind levels whole fields before inject) (rest : List UInt8) :
    whole.readEntries levels fields.keys.length (inject fields.blank) (fields.write b ++ rest) =
      some (inject (fields.draft b'), rest) := by
  induction h generalizing before with
  | nil => rfl
  | @cons γ β ε key format absent tail a a' b b' head _ ih =>
    -- The key of the first entry is found in the whole record, at the place behind `before`.
    have hplace : whole.keys[before.length]? = some key := by
      rw [hbehind.keys, keys]
      simp
    have hkey := Format.readKey_text (hnamed.short key (List.mem_of_getElem? hplace))
      (format.write a ++ (tail.write b ++ rest))
    have hread := hbehind.readAt 0 (none, tail.blank) (format.write a ++ (tail.write b ++ rest))
    rw [Nat.add_zero, Fields.readAt, head.read] at hread
    -- With its value in the draft, the other entries follow.
    have htail := ih (hbehind.tail a')
    rw [Fields.write, List.append_assoc, List.append_assoc, keys, List.length_cons, readEntries,
      hkey]
    simp only [Option.bind_eq_bind, Option.bind_some, Key.index?_name hnamed.nodup hplace, blank,
      hread, Option.map_some]
    exact htail

end Fields

/-- **A record recovers what its fields recover.** -/
theorem Format.record_recovers {ρ α δ : Type} {levels : Nat} {fields : Fields α δ}
    {unpack : ρ → α} {pack : α → ρ} (hnamed : fields.Named) {r r' : ρ} {a : α}
    (h : fields.Recovers levels (unpack r) a) (hpack : pack a = r') (hunpack : unpack r' = a) :
    (record fields unpack pack).Recovers (levels + 1) r r' := by
  constructor
  · intro rest
    have hentries := Fields.readEntries_write hnamed h (Fields.Behind.refl fields) rest
    rw [id, id] at hentries
    simp [record, readHead_writeMapHead hnamed.length, hentries, Fields.finish_draft, hpack]
  · simp only [record, hunpack, h.write]

/-- A record is not nil. -/
theorem Format.record_present {ρ α δ : Type} {fields : Fields α δ} {unpack : ρ → α} {pack : α → ρ}
    (hnamed : fields.Named) (r : ρ) : (record fields unpack pack).Present r := by
  refine present_of_readHead (.map fields.keys.length) nofun ?_
  intro rest
  exact ⟨fields.write (unpack r) ++ rest, by simp [record, readHead_writeMapHead hnamed.length]⟩

end DataModel.MessagePack
