import DataModel.Proofs.Snapshot.Records
import DataModel.Snapshot

/-!
# Snapshots are read back

`Snapshot.decode_encode`: the snapshot of a document is read as the document without its linked
state, so two documents have one snapshot exactly if they agree in everything that was declared.
-/

namespace DataModel.Snapshot

open MessagePack MessagePack.Format

/-- Around a document that fits, the envelope recovers the document as it was declared. -/
theorem envelope_recovers {d : Document} (h : Fits d) (format : { n : Nat // n < UInt32.size }) :
    envelope.Recovers maxLevels (format, d) (format, d.unlinked) := by
  -- Ten of the levels are entered: the envelope and the nine of a document.
  show envelope.Recovers (1013 + 10) (format, d) (format, d.unlinked)
  exact record_recovers (by decide)
    (.cons (natural_recovers (by decide) format.2 rfl) <| .cons (document_recovers h) .nil) rfl rfl

/-- **A snapshot is read as the document without its linked state**, and two documents have the same
snapshot exactly if they agree in everything else. -/
theorem decode_encode {d : Document} (h : Fits d) :
    decode (encode d) = .ok d.unlinked ∧
      ∀ d', Fits d' → (encode d = encode d' ↔ d.unlinked = d'.unlinked) := by
  have hd := envelope_recovers h ⟨currentFormat, by decide⟩
  constructor
  · have hread := hd.read []
    rw [List.append_nil] at hread
    rw [decode, encode, hread]
    rfl
  · intro d' h'
    have hd' := envelope_recovers h' ⟨currentFormat, by decide⟩
    rw [encode, encode, hd.write_eq_iff hd', Prod.mk.injEq, and_iff_right rfl]

/-- The sessions are read back from a snapshot without anything stale. -/
theorem decode_encode_sessions :
    decode (encode (Document.sessions true)) = .ok (Document.sessions false) ∧
      encode (Document.sessions true) = encode (Document.sessions false) := by
  have hunlinked : (Document.sessions true).unlinked = Document.sessions false := by
    decide +kernel
  have hsame : (Document.sessions false).unlinked = Document.sessions false := by decide +kernel
  obtain ⟨hdecode, hencode⟩ := decode_encode (d := Document.sessions true) (by decide +kernel)
  rw [hunlinked] at hdecode
  refine ⟨hdecode, (hencode _ (by decide +kernel)).2 ?_⟩
  rw [hunlinked, hsame]

end DataModel.Snapshot
