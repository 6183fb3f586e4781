import DataModel.Snapshot

/-!
# Directories

A directory of files, and the snapshots among them. A path is followed from the directory name by
name. It may lead to a file of the directory, present or not, or back to a directory; the
directories outside hold nothing that can be reached. An operation that cannot be carried out says
why.
-/

namespace DataModel

/-- Files by name, the latest first. -/
structure Directory where
  files : List (String × List UInt8) := []
  deriving DecidableEq

namespace Directory

/-- The longest name of a file, in bytes. -/
def maxName : Nat := 255

/-- The longest path, in bytes. -/
def maxPath : Nat := 4095

/-- Where a path leads. -/
inductive Place
  | directory
  /-- A file of the directory, which may not exist. -/
  | file (name : String)
  /-- A name that a slash closes, as only the name of a directory can be, and why it is none. -/
  | closed (refusal : FileRefusal)
  deriving DecidableEq

variable (dir : Directory)

/-- The bytes of a file. -/
def file? (name : String) : Option (List UInt8) := dir.files.lookup name

/-- The directory with the bytes of a file replaced, or with a new file. -/
def put (name : String) (bytes : List UInt8) : Directory := ⟨(name, bytes) :: dir.files⟩

/-- Why a name cannot be gone through, from the directory if `inside` and else from a directory
outside. -/
def barrier (inside : Bool) (name : String) : FileRefusal :=
  if maxName < name.utf8ByteSize then .nameTooLong
  else if inside && (dir.file? name).isSome then .notDirectory
  else .notFound

/-- Follows the parts of a path, from the directory if `inside` and else from a directory outside. A
file may only come at the end. `closed` says that the path ends in a slash. -/
def follow (closed : Bool) : (inside : Bool) → List String → Except FileRefusal Place
  | _, [] => .ok .directory
  | inside, part :: parts =>
    if part = "." then follow closed inside parts
    else if part = ".." then follow closed false parts
    else if !parts.isEmpty then .error (dir.barrier inside part)
    else if closed then .ok (.closed (dir.barrier inside part))
    else if inside && part.utf8ByteSize ≤ maxName then .ok (.file part)
    else .error (dir.barrier inside part)

/-- The parts of a path between its slashes. -/
def parts (path : String) : List String :=
  (path.splitToList (· == '/')).filter (!·.isEmpty)

/-- Where a path leads. -/
def locate (path : String) : Except FileRefusal Place :=
  if path.contains '\x00' then .error .nulInName
  else if path.isEmpty then .error .notFound
  else if maxPath < path.utf8ByteSize then .error .nameTooLong
  else dir.follow (path.endsWith "/") (!path.startsWith "/") (parts path)

/-- Reads the bytes of a file. -/
def read (path : String) : Except FileFlaw (List UInt8) :=
  match dir.locate path with
  | .error refusal => .error (.refused .opening path refusal)
  | .ok .directory => .error (.refused .reading path .isDirectory)
  | .ok (.file name) =>
    match dir.file? name with
    | some bytes => .ok bytes
    | none => .error (.refused .opening path .notFound)
  | .ok (.closed refusal) => .error (.refused .opening path refusal)

/-- Writes the bytes of a file. -/
def write (path : String) (bytes : List UInt8) : Except FileFlaw Directory :=
  match dir.locate path with
  | .error refusal => .error (.refused .creating path refusal)
  | .ok .directory | .ok (.closed _) => .error (.refused .creating path .isDirectory)
  | .ok (.file name) => .ok (dir.put name bytes)

/-- Saves a document as a snapshot. -/
def save (path : String) (d : Document) : Except Error Directory :=
  (dir.write path (Snapshot.encode d)).mapError fun flaw => { cause := .file flaw }

/-- Loads and links the document of a snapshot. -/
def load (path : String) (options : LinkOptions) : Except Error LinkedDocument := do
  Snapshot.load options (← (dir.read path).mapError fun flaw => { cause := .file flaw })

end Directory

end DataModel
