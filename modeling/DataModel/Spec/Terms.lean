import DataModel.Ident
import DataModel.Vocabulary

/-!
# The vocabularies of a specification

What a search returns, how a parameter compares, how rows are ordered and grouped, and how an update
changes a field.
-/

namespace DataModel

/-- What a search returns. -/
inductive SearchKind
  /-- One row, the first that matches. -/
  | search
  /-- The matching rows as a list. -/
  | list
  /-- The matching rows one after the other. -/
  | iterate
  /-- The number of matching rows. -/
  | count
  deriving DecidableEq

instance : Inhabited SearchKind := ⟨.search⟩

instance : Vocabulary SearchKind where
  all := [.search, .list, .iterate, .count]
  word
    | .search => "Search"
    | .list => "List"
    | .iterate => "Iterate"
    | .count => "Count"
  mem_all k := by cases k <;> decide
  nodup_words := by decide

/-- The kind as messages and dumps write it. -/
def SearchKind.noun (k : SearchKind) : String := Ident.fold (Vocabulary.word k)

/-- The comparison of a search parameter or of the constraint of a mutation. -/
inductive Operator
  | eq
  | ne
  | lt
  | le
  | gt
  | ge
  /-- Substring match. -/
  | like
  /-- The bitwise conjunction is not zero. -/
  | and
  /-- The bitwise disjunction is not zero. -/
  | or
  | isNull
  | notNull
  /-- Equality of text, passwords included. -/
  | strEq
  /-- Inequality of text, passwords included. -/
  | strNe
  deriving DecidableEq

instance : Inhabited Operator := ⟨.eq⟩

instance : Vocabulary Operator where
  all := [.eq, .ne, .lt, .le, .gt, .ge, .like, .and, .or, .isNull, .notNull, .strEq, .strNe]
  word
    | .eq => "Eq"
    | .ne => "Ne"
    | .lt => "Lt"
    | .le => "Le"
    | .gt => "Gt"
    | .ge => "Ge"
    | .like => "Like"
    | .and => "And"
    | .or => "Or"
    | .isNull => "IsNull"
    | .notNull => "NotNull"
    | .strEq => "StrEq"
    | .strNe => "StrNe"
  mem_all o := by cases o <;> decide
  nodup_words := by decide

/-- The operator compares with no argument. -/
def Operator.isUnary : Operator → Bool
  | .isNull | .notNull => true
  | _ => false

/-- The direction of an order. -/
inductive Direction
  | asc
  | desc
  deriving DecidableEq

instance : Inhabited Direction := ⟨.asc⟩

instance : Vocabulary Direction where
  all := [.asc, .desc]
  word
    | .asc => "Asc"
    | .desc => "Desc"
  mem_all d := by cases d <;> decide
  nodup_words := by decide

/-- Which row of a group an aggregate keeps. -/
inductive AggregateKind
  | minRow
  | maxRow
  deriving DecidableEq

instance : Vocabulary AggregateKind where
  all := [.minRow, .maxRow]
  word
    | .minRow => "MinRow"
    | .maxRow => "MaxRow"
  mem_all k := by cases k <;> decide
  nodup_words := by decide

/-- Whether a mutation changes its rows or removes them. -/
inductive MutationKind
  | update
  | delete
  deriving DecidableEq

instance : Vocabulary MutationKind where
  all := [.update, .delete]
  word
    | .update => "Update"
    | .delete => "Delete"
  mem_all k := by cases k <;> decide
  nodup_words := by decide

/-- How a modified field receives its new value. -/
inductive Modifier
  /-- The value is replaced; a password is hashed first. -/
  | set
  | inc
  | dec
  /-- The value is appended. -/
  | concat
  /-- The value is replaced as it stands, passwords included. -/
  | strSet
  deriving DecidableEq

instance : Inhabited Modifier := ⟨.set⟩

instance : Vocabulary Modifier where
  all := [.set, .inc, .dec, .concat, .strSet]
  word
    | .set => "Set"
    | .inc => "Inc"
    | .dec => "Dec"
    | .concat => "Concat"
    | .strSet => "StrSet"
  mem_all m := by cases m <;> decide
  nodup_words := by decide

end DataModel
