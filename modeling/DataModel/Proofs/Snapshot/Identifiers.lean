import DataModel.Proofs.Naming.History
import DataModel.Proofs.Snapshot.Acceptance

/-!
# Identifiers of a loaded document

A declaration stores the identifier that is generated for its name.  Declaring it writes the two
together, and no act on a document takes them apart.  A snapshot stores the identifier beside the
name, and linking checks the names alone.

So the identifiers of a loaded document are those that the snapshot holds, whatever they are
(`Snapshot.identifiers_of_load`).  They are those of the names for the snapshot of a document that
acts lead to, and differ from one another where they are.  Else they need not be: two declarations
can be loaded with one identifier (`Snapshot.load_one_identifier`).
-/

namespace DataModel

namespace Document

/-- The stored identifiers are those that are generated for the names. -/
def Generated (d : Document) : Prop := d.canonicals = d.topLevelNames.map Ident.canonical

instance (d : Document) : Decidable d.Generated := inferInstanceAs (Decidable (_ = _))

variable {options : LinkOptions} {d : Document} {l : LinkedDocument}

/-! ### Linking -/

/-- **Linking keeps the names and the identifiers of the declarations.** -/
theorem identifiers_of_link (h : d.link options = .ok l) :
    l.document.topLevelNames = d.topLevelNames ∧ l.document.canonicals = d.canonicals := by
  obtain ⟨hentities, henums, hbitfields⟩ := headings_of_link h
  -- Both are read off the headings.
  have hnames (d : Document) : d.topLevelNames =
      (d.entities.map Entity.heading).map Heading.name ++
        (d.enums.map Enumeration.heading).map Heading.name ++ d.bitfields.map Bitfield.name := by
    rw [List.map_map, List.map_map]
    rfl
  have hcanonicals (d : Document) : d.canonicals =
      (d.entities.map Entity.heading).map Heading.canonical ++
        (d.enums.map Enumeration.heading).map Heading.canonical ++
        d.bitfields.map Bitfield.canonical := by
    rw [List.map_map, List.map_map]
    rfl
  constructor
  · rw [hnames, hnames, hentities, henums, hbitfields]
  · rw [hcanonicals, hcanonicals, hentities, henums, hbitfields]

theorem generated_iff_of_link (h : d.link options = .ok l) :
    l.document.Generated ↔ d.Generated := by
  obtain ⟨hnames, hcanonicals⟩ := identifiers_of_link h
  rw [Generated, Generated, hnames, hcanonicals]

/-- The names of declarations that were checked again have identifiers that differ. -/
theorem nodup_canonical_of_link (hrecheck : options.recheck = true) (h : d.link options = .ok l) :
    (l.document.topLevelNames.map Ident.canonical).Nodup := by
  have hadmitted := namesAdmitted_of_link hrecheck h
  have hfolded := (hadmitted (.topLevel, d.topLevelNames) List.mem_cons_self).2.1
  rw [(identifiers_of_link h).1]
  exact Ident.nodup_canonical hfolded

/-- The identifiers of a document that acts lead to are generated. -/
theorem generated_run (acts : List Act) : (run {} acts).Generated :=
  (orderly_run acts).registered.canonicals_eq

end Document

/-! ### Snapshots -/

namespace Snapshot

open Document

variable {options : LinkOptions} {bytes : List UInt8} {l : LinkedDocument}

/-- **The identifiers of a loaded document are those that the snapshot holds.**  The identifiers
that are generated for its names differ from one another, and so do those that it has if they are
generated; they are if those in the snapshot are, as in that of a document that acts lead to. -/
theorem identifiers_of_load (h : load options bytes = .ok l) :
    (l.document.topLevelNames.map Ident.canonical).Nodup ∧
    (l.document.Generated → l.document.canonicals.Nodup) ∧
    (∃ d, decode bytes = .ok d ∧ l.document.topLevelNames = d.topLevelNames ∧
      l.document.canonicals = d.canonicals ∧ (l.document.Generated ↔ d.Generated)) ∧
    ∀ acts, Fits (run {} acts) → bytes = encode (run {} acts) → l.document.Generated := by
  obtain ⟨d, hd, hlink⟩ := load_eq_ok_iff.1 h
  have hnodup := nodup_canonical_of_link rfl hlink
  obtain ⟨hnames, hcanonicals⟩ := identifiers_of_link hlink
  refine ⟨hnodup, fun hgenerated => ?_, ?_, fun acts hfits hbytes => ?_⟩
  · rwa [show l.document.canonicals = _ from hgenerated]
  · exact ⟨d, hd, hnames, hcanonicals, generated_iff_of_link hlink⟩
  · rw [hbytes, load_encode hfits] at h
    exact (generated_iff_of_link h).2 (generated_run acts)

/-- Cities and persons without fields.  If they are not to be told `apart`, both have the identifier
of the cities. -/
def places (apart : Bool) : Document :=
  { entities := ((tickets false).entities.take 2).map fun e =>
      { e with fields := [], canonical := if apart then e.canonical else "CITY" } }

/-- Cities and persons are loaded with the identifiers of their names, which differ. -/
theorem identifiers_of_load_places :
    ∃ l, load {} (encode (places true)) = .ok l ∧ l.document.canonicals = ["CITY", "PERSON"] ∧
      l.document.canonicals.Nodup := by
  obtain ⟨l, hload, hgenerated, hcanonicals⟩ := exists_load_of_any (d := places true)
    (p := fun l => l.document.Generated ∧ l.document.canonicals = ["CITY", "PERSON"])
    (by decide +kernel) (by decide +kernel)
  exact ⟨l, hload, hcanonicals, (identifiers_of_load hload).2.1 hgenerated⟩

/-- **Two declarations are loaded with one identifier** from a snapshot that holds it for both, and
it is not that of the second name. -/
theorem load_one_identifier :
    ∃ l, load {} (encode (places false)) = .ok l ∧ l.document.topLevelNames = ["city", "person"] ∧
      l.document.canonicals = ["CITY", "CITY"] ∧ ¬ l.document.Generated ∧
      ¬ l.document.canonicals.Nodup :=
  exists_load_of_any (by decide +kernel) (by decide +kernel)

end Snapshot

end DataModel
