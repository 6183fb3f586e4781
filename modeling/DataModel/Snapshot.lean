import DataModel.Linked
import DataModel.Snapshot.Records

/-!
# Snapshots

A snapshot is a document as bytes, in front of it the number of its format. It holds the
declarations and nothing that linking adds. A document that is read from a snapshot is always linked
with its names checked again, since nothing vouches for them. Bytes behind the document are ignored.
-/

namespace DataModel

namespace Snapshot

/-- The one format that is read and written. -/
def currentFormat : Nat := 1

/-- A document behind the number of its format. -/
def envelope : MessagePack.Format ({ n : Nat // n < UInt32.size } × Document) :=
  .record
    (.required "format" (.natural UInt32.size Subtype.val fun n h => ⟨n, h⟩) <|
      .required "config" document .nil)
    (fun (format, d) => (format, d, ()))
    (fun (format, d, ()) => (format, d))

/-- How many arrays and maps a snapshot may hold inside one another. -/
def maxLevels : Nat := 1023

/-- The snapshot of a document. -/
def encode (d : Document) : List UInt8 := envelope.write (⟨currentFormat, by decide⟩, d)

/-- The document of a snapshot. The format is checked once everything else was read. -/
def decode (bytes : List UInt8) : Except Error Document :=
  match envelope.read maxLevels bytes with
  | none => fail (.serialization .malformed)
  | some ((format, d), _) =>
    if format.1 = currentFormat then .ok d
    else fail (.serialization (.unsupportedFormat format.1 currentFormat))

/-- The linked document of a snapshot. Names are checked again whatever the options say. -/
def load (options : LinkOptions) (bytes : List UInt8) : Except Error LinkedDocument := do
  (← decode bytes).link { options with recheck := true }

end Snapshot

end DataModel
