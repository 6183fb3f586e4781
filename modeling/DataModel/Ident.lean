import DataModel.Ident.Reserved

/-!
# Identifiers

Names are compared without regard to the case of the letters A to Z, and of no others: the rule must
not depend on a locale, so accented and non-Latin letters are compared as they stand.

* `Ident.same` compares two names letter by letter; `Ident.same_iff` says that this is equality of
  the folded names, hence an equivalence.
* `Ident.isReserved` finds a name among the reserved words whatever its case.
-/

namespace DataModel.Ident

/-- The name with the letters A to Z in lower case. -/
def fold (name : String) : String := name.map Char.toLower

/-- The identifier generated for a name: the letters a to z in upper case. -/
def canonical (name : String) : String := name.map Char.toUpper

/-- Two spellings agree letter by letter, case aside. -/
def sameLetters : List Char → List Char → Bool
  | [], [] => true
  | a :: as, b :: bs => a.toLower == b.toLower && sameLetters as bs
  | _, _ => false

/-- Two names are equal, case aside. -/
def same (a b : String) : Bool := sameLetters a.toList b.toList

/-- The length in bytes of the longest reserved word. -/
def longestReserved : Nat := reservedWords.foldl (fun n w => max n w.utf8ByteSize) 0

/-- The name is a reserved word in some case. Nothing longer than the longest one is looked up. -/
def isReserved (name : String) : Bool :=
  name.utf8ByteSize ≤ longestReserved && reservedWords.contains (fold name)

theorem sameLetters_iff {a b : List Char} :
    sameLetters a b = true ↔ a.map Char.toLower = b.map Char.toLower := by
  induction a generalizing b with
  | nil => cases b <;> simp [sameLetters]
  | cons c a ih => cases b <;> simp [sameLetters, ih]

/-- **Two names are the same exactly when they fold to one spelling.** -/
theorem same_iff {a b : String} : same a b = true ↔ fold a = fold b := by
  rw [same, sameLetters_iff, fold, fold, ← String.toList_inj, String.toList_map,
    String.toList_map]

theorem same_refl (a : String) : same a a = true := same_iff.2 rfl

theorem same_symm {a b : String} (h : same a b = true) : same b a = true :=
  same_iff.2 (same_iff.1 h).symm

theorem same_trans {a b c : String} (h : same a b = true) (h' : same b c = true) :
    same a c = true :=
  same_iff.2 ((same_iff.1 h).trans (same_iff.1 h'))

end DataModel.Ident
