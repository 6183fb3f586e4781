import DataModel.Ident
import DataModel.Path

/-!
# Unique constraints

A constraint over several fields of one entity. Two constraints are taken for the same when their
*keys* agree: the names of their fields in lower case, sorted and joined by commas.
-/

namespace DataModel

/-- A uniqueness constraint over several fields of one entity. -/
structure Unique where
  fields : List Path
  deriving DecidableEq

namespace Unique

/-- The constraint over the fields written in some texts. -/
def ofTexts (fields : List String) : Unique := ⟨fields.map Path.parse⟩

/-- The names of the fields in lower case and in order. -/
def sortedNames (u : Unique) : List String :=
  (u.fields.map fun f => Ident.fold f.dotted).mergeSort fun a b => a ≤ b

/-- What tells two constraints apart, whatever the order and case of their fields. -/
def key (u : Unique) : String := ",".intercalate u.sortedNames

/-- The first of some names that an earlier one repeats; `seen` holds the names before them. -/
def repeatedAmong (seen : List String) : List String → Option String
  | [] => none
  | name :: names =>
    if seen.any (Ident.same · name) then some name else repeatedAmong (seen ++ [name]) names

/-- The first field that is named a second time. -/
def repeatedField? (u : Unique) : Option String := repeatedAmong [] (u.fields.map Path.dotted)

end Unique

end DataModel
