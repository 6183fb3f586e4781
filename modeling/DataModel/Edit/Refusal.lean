import DataModel.Document

/-!
# Refusals and receipts

An edit is refused because what it addresses does not exist, or because it is in error. An edit that
is carried out answers with a receipt for what it declared.
-/

namespace DataModel

/-- What an edit addresses in vain. -/
inductive Missing
  | entity
  | field
  | spec
  | enumeration
  | bitfield
  | item
  | role
  | link
  deriving DecidableEq

/-- Why an edit is not carried out. -/
inductive Refusal
  | missing (what : Missing)
  | error (e : Error)
  deriving DecidableEq

/-- The answer to an edit that is carried out. -/
inductive Receipt
  | nothing
  /-- The place of a new declaration or table entry. -/
  | position (n : Nat)
  | field (id : FieldId)
  /-- The key of a new unique constraint. -/
  | key (key : String)
  /-- The mask of a new bit. -/
  | mask (mask : UInt64)
  /-- The number of entries in a rolemap. -/
  | entries (n : Nat)
  deriving DecidableEq

/-- An attempt that errs is refused for the error. -/
def attempt {α : Type} (r : Except Error α) : Except Refusal α := r.mapError .error

/-- The value of an option, or refusal for what is missing. -/
def orMissing {α : Type} (o : Option α) (what : Missing) : Except Refusal α :=
  match o with
  | some a => .ok a
  | none => .error (.missing what)

/-- Edits the member of a list at a place. -/
def editAt {α β : Type} (l : List α) (i : Nat) (what : Missing)
    (edit : α → Except Refusal (β × α)) : Except Refusal (β × List α) := do
  let (b, a) ← edit (← orMissing l[i]? what)
  return (b, l.set i a)

/-- Exchanges two members of a list. -/
def swapAt {α : Type} (l : List α) (i j : Nat) : Except Refusal (List α) := do
  let a ← orMissing l[i]? .item
  let b ← orMissing l[j]? .item
  return (l.set i b).set j a

end DataModel
