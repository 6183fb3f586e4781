import DataModel.Ident
import Mathlib

/-!
# Identifiers

Two facts about the identifiers of names.  A name is reserved exactly if it is a reserved word in
some case (`Ident.isReserved_iff`): that longer names are not looked up changes nothing, because
folding keeps the length.  And the identifier that is generated for a name folds to the name
(`Ident.fold_canonical`), so names that differ have identifiers that differ.
-/

namespace DataModel.Ident

/-! ### Reserved words -/

/-- A letter and its lower case are encoded in equally many bytes. -/
theorem utf8Size_toLower (c : Char) : c.toLower.utf8Size = c.utf8Size := by
  by_cases hupper : c.isUpper = true
  · have hle : c.toNat ≤ 90 := by
      rw [Char.isUpper, decide_eq_true_eq] at hupper
      exact UInt32.le_iff_toNat_le.1 hupper.2
    -- A letter in upper case and its lower case are both among the first 128 characters.
    have hval : c.val ≤ 127 := UInt32.le_iff_toNat_le.2 (hle.trans (by decide))
    have hlower : c.toLower.val ≤ 127 := by
      rw [Char.toLower_eq_of_isUpper hupper, UInt32.le_iff_toNat_le]
      show (Char.ofNat (c.toNat + 32)).toNat ≤ 127
      rw [Char.toNat_ofNat]
      split_ifs
      · omega
      · decide
    rw [Char.utf8Size_eq_one_iff.2 hlower, Char.utf8Size_eq_one_iff.2 hval]
  · rw [Char.toLower_eq_of_not_isUpper hupper]

theorem utf8ByteSize_fold (name : String) : (fold name).utf8ByteSize = name.utf8ByteSize := by
  have hsize (s : String) : s.utf8ByteSize = String.utf8Len s.toList := by
    rw [← String.utf8ByteSize_ofList, String.ofList_toList]
  have hlower (cs : List Char) : String.utf8Len (cs.map Char.toLower) = String.utf8Len cs := by
    induction cs with
    | nil => rfl
    | cons c cs ih =>
      rw [List.map_cons, String.utf8Len_cons, String.utf8Len_cons, ih, utf8Size_toLower]
  rw [hsize, hsize, fold, String.toList_map, hlower]

/-- The greatest size so far bounds the sizes that went into it. -/
theorem size_le_foldl {words : List String} {n : Nat} :
    n ≤ words.foldl (fun n w => max n w.utf8ByteSize) n ∧
      ∀ w ∈ words, w.utf8ByteSize ≤ words.foldl (fun n w => max n w.utf8ByteSize) n := by
  induction words generalizing n with
  | nil => exact ⟨le_rfl, nofun⟩
  | cons v words ih =>
    rw [List.foldl_cons, List.forall_mem_cons]
    have hstart := (ih (n := max n v.utf8ByteSize)).1
    exact ⟨(le_max_left _ _).trans hstart, (le_max_right _ _).trans hstart, ih.2⟩

/-- **A name is reserved if it folds to a reserved word.** -/
theorem isReserved_iff {name : String} : isReserved name = true ↔ fold name ∈ reservedWords := by
  rw [isReserved, Bool.and_eq_true, decide_eq_true_eq, List.contains_iff_mem]
  constructor
  · intro h
    exact h.2
  · intro hmem
    have hsize : (fold name).utf8ByteSize ≤ longestReserved := size_le_foldl.2 _ hmem
    rw [utf8ByteSize_fold] at hsize
    exact ⟨hsize, hmem⟩

/-! ### Generated identifiers -/

/-- **A name and its identifier are equal, case aside.** -/
theorem fold_canonical (name : String) : fold (canonical name) = fold name := by
  rw [← String.toList_inj, fold, fold, canonical, String.toList_map, String.toList_map,
    String.toList_map, List.map_map]
  exact List.map_congr_left fun c _ => Char.toLower_toUpper_eq_toLower c

/-- Names that differ, case aside, have identifiers that differ. -/
theorem nodup_canonical {names : List String} (h : (names.map fold).Nodup) :
    (names.map canonical).Nodup := by
  apply List.Nodup.of_map fold
  rwa [List.map_map, show fold ∘ canonical = fold from funext fold_canonical]

end DataModel.Ident
