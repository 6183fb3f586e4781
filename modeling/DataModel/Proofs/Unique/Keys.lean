import DataModel.Proofs.Spelling.Folding
import Mathlib.Data.List.Sort
import Mathlib.Data.String.Basic

/-!
# The keys of unique constraints

What the key of a constraint says about its fields.  It is sorted, so constraints over the same
fields have one key in every order and case (`Unique.key_eq_of_perm`).  It is one text, so the
converse takes names that the text can be split into again: `Unique.perm_of_key_eq` is for names
without commas.

A constraint that names no field twice is a set of names: that it is over certain fields, whatever
their order and case (`Unique.IsOver`), then is a permutation (`Unique.isOver_iff_perm`).
-/

namespace DataModel

namespace Unique

variable {u v : Unique}

/-- The names of the fields in lower case, in the order of the declaration. -/
def names (u : Unique) : List String := u.fields.map fun f => Ident.fold f.dotted

/-- The fields of the constraint are the ones of these names, case and order aside. -/
def IsOver (u : Unique) (fields : List String) : Prop :=
  ∀ n, n ∈ u.names ↔ n ∈ fields.map Ident.fold

@[simp]
theorem names_ofTexts (fields : List String) :
    (ofTexts fields).names = fields.map Ident.fold := by
  rw [names, ofTexts, List.map_map]
  exact List.map_congr_left fun name _ => congrArg Ident.fold (Path.dotted_parse name)

/-! ### Repeated fields -/

theorem repeatedAmong_eq_none_iff {seen names : List String} :
    repeatedAmong seen names = none ↔
      (names.map Ident.fold).Nodup ∧ ∀ n ∈ names, Ident.fold n ∉ seen.map Ident.fold := by
  induction names generalizing seen with
  | nil => simp [repeatedAmong]
  | cons name names ih =>
    have hany : seen.any (Ident.same · name) = true ↔ Ident.fold name ∈ seen.map Ident.fold := by
      rw [List.any_eq_true, List.mem_map]
      exact exists_congr fun s => and_congr_right fun _ => Ident.same_iff
    rw [repeatedAmong, List.map_cons, List.nodup_cons, List.forall_mem_cons]
    split_ifs with h
    · simp [hany.1 h]
    · rw [ih]
      simp only [List.map_append, List.map_cons, List.map_nil, List.mem_append,
        List.mem_singleton, not_or]
      have hnew := fun hmem => h (hany.2 hmem)
      constructor
      · rintro ⟨hnodup, hrest⟩
        refine ⟨⟨fun hmem => ?_, hnodup⟩, hnew, fun n hn => (hrest n hn).1⟩
        obtain ⟨n, hn, heq⟩ := List.mem_map.1 hmem
        exact (hrest n hn).2 heq
      · rintro ⟨⟨hname, hnodup⟩, -, hrest⟩
        exact ⟨hnodup, fun n hn => ⟨hrest n hn, fun heq => hname (heq ▸ List.mem_map_of_mem hn)⟩⟩

/-- **No field is named a second time** exactly if the folded names are different. -/
theorem repeatedField?_eq_none_iff : u.repeatedField? = none ↔ u.names.Nodup := by
  have hnames : (u.fields.map Path.dotted).map Ident.fold = u.names := List.map_map ..
  rw [repeatedField?, repeatedAmong_eq_none_iff, hnames]
  simp

/-- **Different fields make a set**: a constraint is over other names if it lists them in some
order. -/
theorem isOver_iff_perm {fields : List String} (hu : u.names.Nodup)
    (hfields : (fields.map Ident.fold).Nodup) :
    u.IsOver fields ↔ u.names.Perm (ofTexts fields).names := by
  rw [names_ofTexts]
  exact (List.perm_ext_iff_of_nodup hu hfields).symm

/-! ### Sorted names -/

theorem sortedNames_perm (u : Unique) : u.sortedNames.Perm u.names := List.mergeSort_perm ..

theorem pairwise_sortedNames (u : Unique) : u.sortedNames.Pairwise (· ≤ ·) := by
  have hsorted : u.sortedNames.Pairwise fun a b => decide (a ≤ b) = true := by
    apply List.pairwise_mergeSort
    · intro a b c hab hbc
      rw [decide_eq_true_eq] at *
      exact le_trans hab hbc
    · intro a b
      rw [Bool.or_eq_true, decide_eq_true_eq, decide_eq_true_eq]
      exact le_total a b
  exact hsorted.imp of_decide_eq_true

/-- **Sorting forgets the order and nothing else.** -/
theorem sortedNames_eq_iff_perm : u.sortedNames = v.sortedNames ↔ u.names.Perm v.names := by
  constructor
  · intro h
    exact u.sortedNames_perm.symm.trans (h ▸ v.sortedNames_perm)
  · intro h
    have hperm := u.sortedNames_perm.trans (h.trans v.sortedNames_perm.symm)
    exact hperm.eq_of_pairwise' u.pairwise_sortedNames v.pairwise_sortedNames

/-! ### Keys -/

/-- **Constraints over the same fields have one key.** -/
theorem key_eq_of_perm (h : u.names.Perm v.names) : u.key = v.key := by
  rw [key, key, sortedNames_eq_iff_perm.2 h]

/-- The key of names that are in order. -/
theorem key_of_pairwise (h : u.names.Pairwise (· ≤ ·)) : u.key = ",".intercalate u.names := by
  rw [key, u.sortedNames_perm.eq_of_pairwise' u.pairwise_sortedNames h]

/-- A key is in lower case. -/
@[simp]
theorem fold_key (u : Unique) : Ident.fold u.key = u.key := by
  have hnames : u.sortedNames.map Ident.fold = u.sortedNames := by
    refine List.map_congr_left (fun n hn => ?_) |>.trans (List.map_id _)
    obtain ⟨p, _, rfl⟩ := List.mem_map.1 (u.sortedNames_perm.mem_iff.1 hn)
    exact Ident.fold_fold p.dotted
  rw [key, Ident.fold_intercalate (by decide +kernel), hnames]

/-- No name of a field holds a comma. -/
def CommaFree (u : Unique) : Prop := ∀ p ∈ u.fields, ',' ∉ p.dotted.toList

theorem commaFree_ofTexts {fields : List String} (h : ∀ n ∈ fields, ',' ∉ n.toList) :
    (ofTexts fields).CommaFree := by
  intro p hp
  obtain ⟨n, hn, rfl⟩ := List.mem_map.1 hp
  rw [Path.dotted_parse]
  exact h n hn

/-- Lower case makes no commas. -/
theorem eq_comma_of_toLower {c : Char} (h : c.toLower = ',') : c = ',' := by
  by_cases hupper : c.isUpper = true
  · rw [Char.toLower_eq_of_isUpper hupper] at h
    rw [Char.isUpper, decide_eq_true_eq] at hupper
    have hlow : 65 ≤ c.toNat := UInt32.le_iff_toNat_le.1 hupper.1
    have hnat := congrArg Char.toNat h
    rw [Char.toNat_ofNat] at hnat
    split_ifs at hnat
    · have hcomma : ','.toNat = 44 := rfl
      omega
    · cases hnat
  · rwa [Char.toLower_eq_of_not_isUpper hupper] at h

theorem CommaFree.notMem (h : u.CommaFree) {n : String} (hn : n ∈ u.sortedNames) :
    ',' ∉ n.toList := by
  obtain ⟨p, hp, rfl⟩ := List.mem_map.1 (u.sortedNames_perm.mem_iff.1 hn)
  rw [Ident.fold, String.toList_map, List.mem_map]
  rintro ⟨c, hc, hcomma⟩
  exact h p hp (eq_comma_of_toLower hcomma ▸ hc)

/-- The names can be read from the key. -/
theorem CommaFree.splitOn_key (h : u.CommaFree) (hne : u.fields ≠ []) :
    u.key.toList.splitOn ',' = u.sortedNames.map String.toList := by
  have hnames : u.sortedNames.map String.toList ≠ [] := by
    rw [Ne, List.map_eq_nil_iff, ← List.length_eq_zero_iff, u.sortedNames_perm.length_eq, names,
      List.length_map, List.length_eq_zero_iff]
    exact hne
  have hcommas : ∀ cs ∈ u.sortedNames.map String.toList, ',' ∉ cs := by
    rw [List.forall_mem_map]
    exact fun n hn => h.notMem hn
  rw [key, String.toList_intercalate]
  exact List.splitOn_intercalate ',' hcommas hnames

/-- **A key tells its fields** where no name holds a comma. -/
theorem perm_of_key_eq (hu : u.CommaFree) (hv : v.CommaFree) (hune : u.fields ≠ [])
    (hvne : v.fields ≠ []) (h : u.key = v.key) : u.names.Perm v.names := by
  rw [← sortedNames_eq_iff_perm]
  apply List.map_injective_iff.2 (fun _ _ => String.toList_inj.1)
  rw [← hu.splitOn_key hune, h, hv.splitOn_key hvne]

end Unique

end DataModel
