import DataModel.Ident
import DataModel.Vocabulary

/-!
# The vocabularies of a field

The closed set of field types, what a reference does when its target changes, and the comparisons of
a validation rule. A type is *textual* or *integral* by what its values are stored as; three types,
`enum`, `bitfield` and `struct`, are incomplete without the name of another declaration.
-/

namespace DataModel

/-- The type of a field. -/
inductive FieldType
  /-- A signed 64-bit integer. -/
  | int
  /-- A double-precision real. -/
  | real
  /-- Text. -/
  | text
  /-- The hash of a password, stored as text. -/
  | password
  /-- An e-mail address, stored as text. -/
  | email
  /-- A calendar date, stored as seconds. -/
  | date
  /-- A point in time, stored as seconds. -/
  | epoch
  /-- Opaque bytes. -/
  | blob
  /-- One value of a named enumeration. -/
  | enum
  /-- A set of bits of a named bit-field set. -/
  | bitfield
  /-- An embedded entity, reached through a reference of the same entity. -/
  | struct
  deriving DecidableEq

instance : Inhabited FieldType := ⟨.int⟩

instance : Vocabulary FieldType where
  all := [.int, .real, .text, .password, .email, .date, .epoch, .blob, .enum, .bitfield, .struct]
  word
    | .int => "Int"
    | .real => "Real"
    | .text => "Text"
    | .password => "Password"
    | .email => "Email"
    | .date => "Date"
    | .epoch => "Epoch"
    | .blob => "Blob"
    | .enum => "Enum"
    | .bitfield => "Bitfield"
    | .struct => "Struct"
  mem_all t := by cases t <;> decide
  nodup_words := by decide

namespace FieldType

/-- The type as messages and reports write it. -/
def noun (t : FieldType) : String := Ident.fold (Vocabulary.word t)

/-- Values are stored as text. -/
def isTextual : FieldType → Bool
  | .text | .password | .email => true
  | _ => false

/-- Values are stored as integers. -/
def isIntegral : FieldType → Bool
  | .int | .date | .epoch | .enum | .bitfield => true
  | _ => false

/-- The type is complete only with the name of another declaration. -/
def needsName : FieldType → Bool
  | .enum | .bitfield | .struct => true
  | _ => false

end FieldType

/-- What happens to a referencing row when its target is updated or deleted. -/
inductive RefAction
  /-- Nothing was declared. -/
  | undeclared
  /-- The change is refused. -/
  | restrict
  /-- The referencing field becomes null. -/
  | nullify
  /-- The change is carried over. -/
  | cascade
  /-- The referencing field returns to its default. -/
  | reset
  deriving DecidableEq

instance : Inhabited RefAction := ⟨.undeclared⟩

instance : Vocabulary RefAction where
  all := [.undeclared, .restrict, .nullify, .cascade, .reset]
  word
    | .undeclared => "None"
    | .restrict => "Restrict"
    | .nullify => "Nullify"
    | .cascade => "Cascade"
    | .reset => "Default"
  mem_all a := by cases a <;> decide
  nodup_words := by decide

/-- How a validation rule compares a value, or its length, with the limit. -/
inductive Comparison
  | ge
  | le
  | gt
  | lt
  | eq
  deriving DecidableEq

instance : Vocabulary Comparison where
  all := [.ge, .le, .gt, .lt, .eq]
  word
    | .ge => "Ge"
    | .le => "Le"
    | .gt => "Gt"
    | .lt => "Lt"
    | .eq => "Eq"
  mem_all c := by cases c <;> decide
  nodup_words := by decide

end DataModel
