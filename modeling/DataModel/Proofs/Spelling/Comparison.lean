import DataModel.Proofs.Identifiers
import DataModel.Proofs.Linking.DeclaredNames
import DataModel.Proofs.MessagePack.Formats

/-!
# Comparing names

Whether two names are the same is decided in several places, each in its own way.  A declaration
compares letters, or bytes, one by one; a list of declared names is checked by the folded spellings;
and generated identifiers are in upper case.  `Ident.comparisons_agree` says that all of them agree,
on any two strings, and with them the checks that are made of them.

* A character is one of the letters A to Z exactly if it is encoded in one byte that is, and no byte
  of any other character is.  So folding a name is folding its bytes (`Ident.utf8_fold`).
* The two cases of a letter determine each other, and so do the folded name and the identifier
  (`Ident.fold_eq_iff_canonical_eq`).
* Being reserved is a property of the folded name (`Ident.isReserved_congr`).
-/

namespace DataModel.Ident

open MessagePack (utf8 utf8_injective)

/-! ### Bytes -/

/-- The byte, in lower case if it is one of the letters A to Z. -/
def lowerByte (b : UInt8) : UInt8 := if 65 ≤ b ∧ b ≤ 90 then b + 32 else b

theorem lowerByte_of_le {b : UInt8} (h : 128 ≤ b.toNat) : lowerByte b = b := by
  unfold lowerByte
  split_ifs with hletter
  · have hle : b.toNat ≤ 90 := UInt8.le_iff_toNat_le.1 hletter.2
    omega
  · rfl

/-- The bytes of a text are those of its characters. -/
theorem utf8_eq_flatMap (s : String) : utf8 s = s.toList.flatMap String.utf8EncodeChar := by
  conv => lhs; rw [← String.ofList_toList (s := s)]
  rw [utf8, String.toUTF8_eq_toByteArray, String.toByteArray_ofList, List.utf8Encode]
  simp

/-- No byte of a character beyond the first 128 is one of them. -/
theorem le_of_mem_utf8EncodeChar {c : Char} (hc : 128 ≤ c.toNat) :
    ∀ b ∈ String.utf8EncodeChar c, 128 ≤ b.toNat := by
  have hval : ¬ c.val.toNat ≤ 0x7f := Nat.not_le_of_lt hc
  unfold String.utf8EncodeChar
  dsimp only
  split_ifs
  -- One case for each length: every byte is a marker of 128 at least, and a few bits below it.
  all_goals
    simp only [List.forall_mem_cons, List.not_mem_nil, false_imp_iff, implies_true, and_true,
      UInt8.toNat_ofNat']
    omega

/-- The bytes of the lower case of a character. -/
theorem utf8EncodeChar_toLower (c : Char) :
    String.utf8EncodeChar c.toLower = (String.utf8EncodeChar c).map lowerByte := by
  by_cases hc : c.toNat < 128
  · have hsmall : ∀ n < 128, String.utf8EncodeChar (Char.ofNat n).toLower =
        (String.utf8EncodeChar (Char.ofNat n)).map lowerByte := by decide
    have hat := hsmall c.toNat hc
    rwa [Char.ofNat_toNat] at hat
  · have hupper : ¬c.isUpper = true := by
      intro hupper
      rw [Char.isUpper, decide_eq_true_eq] at hupper
      have hle : c.toNat ≤ 90 := UInt32.le_iff_toNat_le.1 hupper.2
      omega
    have hkept : ∀ b ∈ String.utf8EncodeChar c, lowerByte b = b :=
      fun b hb => lowerByte_of_le (le_of_mem_utf8EncodeChar (Nat.le_of_not_lt hc) b hb)
    rw [Char.toLower_eq_of_not_isUpper hupper, List.map_congr_left hkept, List.map_id']

/-- **Folding a name is folding its bytes.** -/
theorem utf8_fold (name : String) : utf8 (fold name) = (utf8 name).map lowerByte := by
  rw [utf8_eq_flatMap, utf8_eq_flatMap, fold, String.toList_map, List.flatMap_map, List.map_flatMap]
  exact List.flatMap_congr fun c _ => utf8EncodeChar_toLower c

/-- Two names are the same exactly if they are so byte by byte. -/
theorem same_iff_map_lowerByte {a b : String} :
    same a b = true ↔ (utf8 a).map lowerByte = (utf8 b).map lowerByte := by
  rw [same_iff, ← utf8_fold, ← utf8_fold]
  exact ⟨congrArg utf8, utf8_injective⟩

/-! ### Identifiers -/

theorem canonical_fold (name : String) : canonical (fold name) = canonical name := by
  rw [← String.toList_inj, canonical, canonical, fold, String.toList_map, String.toList_map,
    String.toList_map, List.map_map]
  exact List.map_congr_left fun c _ => Char.toUpper_toLower_eq_toUpper c

/-- **Two names fold to one spelling exactly if they have one identifier.** -/
theorem fold_eq_iff_canonical_eq {a b : String} : fold a = fold b ↔ canonical a = canonical b := by
  constructor
  · intro h
    rw [← canonical_fold a, h, canonical_fold]
  · intro h
    rw [← fold_canonical a, h, fold_canonical]

/-! ### Reserved words -/

/-- A name is reserved if it folds to a keyword of one of the languages. -/
theorem isReserved_iff_keyword {name : String} : isReserved name = true ↔
    fold name ∈ interfaceKeywords ∨ fold name ∈ queryKeywords ∨ fold name ∈ bindingKeywords := by
  rw [isReserved_iff, reservedWords, List.mem_eraseDups, List.mem_append, List.mem_append, or_assoc]

/-- Names that are the same are reserved together. -/
theorem isReserved_congr {a b : String} (h : same a b = true) : isReserved a = isReserved b := by
  rw [Bool.eq_iff_iff, isReserved_iff, isReserved_iff, same_iff.1 h]

/-! ### The comparisons -/

/-- **The comparisons of names agree**, on any strings: letter by letter, byte by byte, by folded
spellings and by generated identifiers.  So being the same is an equivalence.  A name is reserved
exactly if it folds to a reserved word, hence in every case or in none.  And names that are not
empty are admitted together exactly if each of them is admitted behind those before it. -/
theorem comparisons_agree :
    (∀ a b : String, (same a b = true ↔ fold a = fold b) ∧
      (fold a = fold b ↔ canonical a = canonical b) ∧
      (same a b = true ↔ (utf8 a).map lowerByte = (utf8 b).map lowerByte)) ∧
    (Equivalence fun a b : String => same a b = true) ∧
    (∀ name : String, isReserved name = true ↔ fold name ∈ reservedWords) ∧
    (∀ a b : String, same a b = true → isReserved a = isReserved b) ∧
    ∀ (scope : Scope) (names : List String), "" ∉ names →
      (scope.checkDeclared [] names = .ok () ↔ scope.Replays names) := by
  refine ⟨fun a b => ⟨same_iff, fold_eq_iff_canonical_eq, same_iff_map_lowerByte⟩,
    ⟨same_refl, same_symm, same_trans⟩, fun name => isReserved_iff,
    fun a b h => isReserved_congr h, fun scope names hempty => ?_⟩
  rw [Scope.replays_iff_checkDeclared]
  exact (and_iff_right hempty).symm

/-- Only the letters A to Z have a case, so `É` and `é` are two names.  A reserved word stays
reserved in any case, and a spelling that was used is refused again. -/
theorem comparisons_agree_spellings :
    "" ∉ ["É", "é"] ∧ Scope.field.Replays ["É", "é"] ∧
      "" ∉ ["id", "ID"] ∧ ¬ Scope.field.Replays ["id", "ID"] ∧
      same "wHeRe" "WHERE" = true ∧ isReserved "wHeRe" = isReserved "WHERE" ∧
      isReserved "WHERE" = true := by
  obtain ⟨_, _, _, hcase, hchecked⟩ := comparisons_agree
  have hwhere : same "wHeRe" "WHERE" = true := by decide +kernel
  refine ⟨by decide, ?_, by decide, ?_, hwhere, hcase _ _ hwhere, ?_⟩
  · have hfree : ∀ name ∈ ["É", "é"], isReserved name = false := by
      simp only [← Bool.not_eq_true, isReserved_iff_keyword]
      decide +kernel
    have hdistinct : (["É", "é"].map fold).Nodup := by decide +kernel
    rw [← hchecked .field _ (by decide), Scope.checkDeclared_eq_ok_iff]
    exact ⟨hfree, hdistinct, fun _ _ => List.not_mem_nil⟩
  · have hsame : fold "id" = fold "ID" := same_iff.1 (by decide +kernel)
    rw [← hchecked .field _ (by decide), Scope.checkDeclared_eq_ok_iff, List.map_cons, hsame]
    rintro ⟨_, hdistinct, _⟩
    exact (List.nodup_cons.1 hdistinct).1 List.mem_cons_self
  · exact isReserved_iff_keyword.2 (by decide +kernel)

end DataModel.Ident
