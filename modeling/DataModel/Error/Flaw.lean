import DataModel.Field.Default
import DataModel.Grant.Operation
import DataModel.Handle

/-!
# Flaws

What exactly is wrong with a declaration, a default value, a snapshot or a file. A flaw is data; its
words are chosen in one place, `Flaw.describe` and its companions. The constructors `stated` hold a
reason that a caller puts in words of its own.
-/

namespace DataModel

/-- Where a name has to be new. -/
inductive Scope
  /-- Entities, enumerations and bit-field sets share one scope. -/
  | topLevel
  | field
  | search
  | update
  | delete
  | unique
  | enumItem
  | bitItem
  /-- The whole role tree. -/
  | role
  /-- The roles of one grant. -/
  | grant
  deriving DecidableEq

instance : Vocabulary Scope where
  all := [.topLevel, .field, .search, .update, .delete, .unique, .enumItem, .bitItem, .role, .grant]
  word
    | .topLevel => "TopLevel"
    | .field => "Field"
    | .search => "Search"
    | .update => "Update"
    | .delete => "Delete"
    | .unique => "Unique"
    | .enumItem => "EnumItem"
    | .bitItem => "BitItem"
    | .role => "Role"
    | .grant => "Grant"
  mem_all s := by cases s <;> decide
  nodup_words := by decide

/-- The scope as messages write it. -/
def Scope.describe : Scope → String
  | .topLevel => "top level"
  | .field => "field"
  | .search => "search"
  | .update => "update"
  | .delete => "delete"
  | .unique => "unique"
  | .enumItem => "enumeration item"
  | .bitItem => "bitfield item"
  | .role => "role"
  | .grant => "role grant"

/-- A member of a declaration as messages write it. -/
def qualified (owner member : String) : String := owner ++ "." ++ member

/-- The highest usable bit of a bit-field set. -/
def maxBitIndex : Nat := 63

/-- How a role tree fails to be a forest at one of its roles. -/
inductive ForestFlaw
  /-- The role's own parent is not the role that lists it. -/
  | wrongParent
  | repeated
  /-- No root leads to the role. -/
  | detached
  deriving DecidableEq

def ForestFlaw.describe : ForestFlaw → String
  | .wrongParent => "is listed under the wrong parent"
  | .repeated => "is listed more than once"
  | .detached => "is detached"

/-- What is wrong with the structure of a declaration. -/
inductive Flaw
  | emptyName (scope : Scope)
  | unknownParent (role : String)
  | bitIndex (index : Int) (set item : String)
  /-- A stored bit index is too high. -/
  | storedBitIndex (index : Nat) (item : String)
  | typeNeedsName (field : String) (type : FieldType)
  | structReference (field : String)
  | uniqueTooShort (entity : String)
  /-- A stored constraint names fewer than two fields. -/
  | storedUniqueTooShort
  | brokenRole (role : String) (flaw : ForestFlaw)
  | unknownRoleListed (index : Nat)
  | implicitRoleMissing (role : String)
  | misplaced (kind : Handle.Kind) (name : String) (position : Nat) (held : Handle kind)
  | misplacedField (field : String) (position : Nat) (held : FieldId)
  | noItems (kind : Handle.Kind) (name : String)
  | noValueLeft (item : String)
  | foreignSource (source : String)
  | nullifyNotNullable (field : String)
  | actionWithoutReference (field : String)
  | structWithoutSource (field : String)
  | targetNotAllowed (op : Operation) (target : String)
  | targetMissing (op : Operation)
  | deleteModifies
  | pathNotLocal (path entity : String)
  | emptyPath
  | pathEndsAtStruct (path field : String)
  | pathLeadsNowhere (field path : String)
  | operatorMismatch (op : Operator) (type : FieldType) (path : String)
  | modifierMismatch (modifier : Modifier) (type : FieldType) (path : String)
  | noSuchEntity (id : Handle .entity)
  | stated (reason : String)
  deriving DecidableEq

/-- The words for a flaw of a declaration. -/
def Flaw.describe : Flaw → String
  | .emptyName scope => s!"empty {scope.describe} name"
  | .unknownParent role => s!"parent of role {role} is not in the role tree"
  | .bitIndex index set item =>
    s!"bit index {index} of {qualified set item} outside 0..={maxBitIndex}"
  | .storedBitIndex index item => s!"bit index {index} of {item} outside 0..={maxBitIndex}"
  | .typeNeedsName field type => s!"field {field} needs a target name to become {type.noun}"
  | .structReference field => s!"struct field {field} cannot carry a foreign key"
  | .uniqueTooShort entity => s!"unique constraint on {entity} needs at least two fields"
  | .storedUniqueTooShort => "unique constraint needs at least two fields"
  | .brokenRole role flaw => s!"role {role} {flaw.describe}"
  | .unknownRoleListed index => s!"role tree lists unknown role {index}"
  | .implicitRoleMissing role => s!"implicit role {role} missing from the role tree"
  | .misplaced kind name position held =>
    s!"{kind.noun} {name} stored at position {position} claims {held.text}"
  | .misplacedField field position held =>
    s!"field {field} stored at position {position} claims {held.text}"
  | .noItems kind name => s!"{kind.noun} {name} has no items"
  | .noValueLeft item => s!"no value left for {item}"
  | .foreignSource source => s!"reference source {source} is not the field carrying it"
  | .nullifyNotNullable field => s!"{field} nullifies on change but is not nullable"
  | .actionWithoutReference field => s!"referential action on {field} without a foreign key"
  | .structWithoutSource field => s!"struct field {field} has no source"
  | .targetNotAllowed op target => s!"{op.noun} grant cannot target {target}"
  | .targetMissing op => s!"{op.noun} grant needs a target"
  | .deleteModifies => "a delete cannot modify fields"
  | .pathNotLocal path entity => s!"{path} must name a field of {entity}"
  | .emptyPath => "empty field path"
  | .pathEndsAtStruct path field => s!"{path} ends at struct field {field}"
  | .pathLeadsNowhere field path => s!"{field} in {path} does not lead to another entity"
  | .operatorMismatch op type path =>
    s!"operator {Vocabulary.word op} does not apply to {type.noun} field {path}"
  | .modifierMismatch modifier type path =>
    s!"modifier {Vocabulary.word modifier} does not apply to {type.noun} field {path}"
  | .noSuchEntity id => s!"no entity with handle {id.text}"
  | .stated reason => reason

/-- What is wrong with a default value. -/
inductive DefaultFlaw
  | misfit (value : DefaultValue) (type : FieldType) (field : String)
  | noSuchValue (value : Int64) (enumeration : String)
  | undeclaredBits (value : Int64) (bitfield : String)
  | stated (reason : String)
  deriving DecidableEq

/-- The words for a flaw of a default value. -/
def DefaultFlaw.describe : DefaultFlaw → String
  | .misfit value type field => s!"{value.describe} does not fit {type.noun} field {field}"
  | .noSuchValue value enumeration => s!"{value.toInt} is not a value of {enumeration}"
  | .undeclaredBits value bitfield => s!"{value.toInt} sets bits not declared in {bitfield}"
  | .stated reason => reason

/-- What is wrong with the bytes of a snapshot. -/
inductive SnapshotFlaw
  /-- The bytes do not begin with a document. -/
  | malformed
  | unsupportedFormat (format expected : Nat)
  | stated (reason : String)
  deriving DecidableEq

/-- The words for a flaw of a snapshot. -/
def SnapshotFlaw.describe : SnapshotFlaw → String
  | .malformed => "malformed document"
  | .unsupportedFormat format expected =>
    s!"unsupported snapshot format {format} (expected {expected})"
  | .stated reason => reason

/-- Why the operating system refuses a file. -/
inductive FileRefusal
  | notFound
  | notDirectory
  | isDirectory
  | nameTooLong
  | nulInName
  | stated (reason : String)
  deriving DecidableEq

/-- The words for a refusal, with the error number of the system where it has one. -/
def FileRefusal.describe : FileRefusal → String
  | .notFound => "No such file or directory (os error 2)"
  | .notDirectory => "Not a directory (os error 20)"
  | .isDirectory => "Is a directory (os error 21)"
  | .nameTooLong => "File name too long (os error 36)"
  | .nulInName => "file name contained an unexpected NUL byte"
  | .stated reason => reason

/-- What was being done with a file. -/
inductive FileAction
  | opening
  | reading
  | creating
  | writing
  deriving DecidableEq

def FileAction.describe : FileAction → String
  | .opening => "open file"
  | .reading => "read file"
  | .creating => "create"
  | .writing => "write"

/-- What went wrong with a file. -/
inductive FileFlaw
  | refused (action : FileAction) (path : String) (refusal : FileRefusal)
  | stated (reason : String)
  deriving DecidableEq

/-- The words for a failure on a file. -/
def FileFlaw.describe : FileFlaw → String
  | .refused action path refusal =>
    "failed to " ++ action.describe ++ " '" ++ path ++ "': " ++ refusal.describe
  | .stated reason => reason

end DataModel
