import DataModel.Proofs.Coupling
import DataModel.Proofs.Linking.Bindings
import DataModel.Proofs.Linking.DeclaredNames
import DataModel.Proofs.Snapshot.RoundTrip

/-!
# What a snapshot may hold

A snapshot is loaded if its document links, and nothing else is asked of it (`load_eq_ok_iff`).  So
what declarations establish step by step holds of a loaded document as far as linking establishes
it again.

Names are checked again, for all but emptiness (`names_of_recheck`): a snapshot brings in empty
names, and no others that declarations refuse (`load_nameless`).

Fields are not checked for their coupling, apart from the source of a `struct` field.  The linked
document is coupled exactly if the one in the snapshot was, as it is if it was built by edits
(`coupled_iff_of_load`), and each of the conditions can fail (`load_uncoupled`).
-/

namespace DataModel

namespace Snapshot

variable {options : LinkOptions} {bytes : List UInt8} {l : LinkedDocument} {d : Document}

/-- **A snapshot loads if its document links** with names checked again. -/
theorem load_eq_ok_iff : load options bytes = .ok l ↔
    ∃ d, decode bytes = .ok d ∧ d.link { options with recheck := true } = .ok l :=
  bind_eq_ok

theorem decode_of_fits (h : Fits d) : decode (encode d) = .ok d.unlinked := by
  have hread := (envelope_recovers h ⟨currentFormat, by decide⟩).read []
  rw [List.append_nil] at hread
  rw [decode, encode, hread]
  rfl

/-- **The snapshot of a document loads as the document links**, names checked again. -/
theorem load_encode (h : Fits d) :
    load options (encode d) = d.link { options with recheck := true } := by
  rw [load, decode_of_fits h, ok_bind, Document.link_unlinked]

/-- What is found of the document that is linked is found of the one that is loaded. -/
theorem exists_load_of_any {p : LinkedDocument → Prop} [DecidablePred p] (hfits : Fits d)
    (h : (d.link {}).toOption.any (fun l => decide (p l)) = true) :
    ∃ l, load {} (encode d) = .ok l ∧ p l := by
  obtain ⟨l, hlink, hp⟩ := exists_ok_of_any h
  exact ⟨l, (load_encode hfits).trans hlink, of_decide_eq_true hp⟩

end Snapshot

/-! ### Names -/

namespace Document

/-- In every scope no name is reserved and no two are equal, case aside, and the names would be
declared again in their order if none of them is empty. -/
def NamesAdmitted (d : Document) : Prop :=
  ∀ s ∈ d.scopes, (∀ name ∈ s.2, Ident.isReserved name = false) ∧ (s.2.map Ident.fold).Nodup ∧
    (s.1.Replays s.2 ↔ "" ∉ s.2)

variable {options : LinkOptions} {d : Document} {l : LinkedDocument}

theorem namesAdmitted_of_link (hrecheck : options.recheck = true) (h : d.link options = .ok l) :
    d.NamesAdmitted := by
  obtain ⟨bound, high, granted, s⟩ := link_eq_ok_iff.1 h
  intro scope hscope
  have hchecked := checkDeclared_scopes (s.declared hrecheck) scope hscope
  obtain ⟨hreserved, hnodup, _⟩ := Scope.checkDeclared_eq_ok_iff.1 hchecked
  refine ⟨hreserved, hnodup, ?_⟩
  rw [Scope.replays_iff_checkDeclared, and_iff_left hchecked]

/-- **Linking checks names again, for all but emptiness.**  The names of a document that is linked
with its names checked again, or that is in a snapshot that loads, are neither reserved nor
repeated, and they are names that declarations admit, one behind the other, exactly where none is
empty. -/
theorem names_of_recheck
    (h : options.recheck = true ∧ d.link options = .ok l ∨
      ∃ bytes, Snapshot.decode bytes = .ok d ∧ Snapshot.load options bytes = .ok l) :
    d.NamesAdmitted := by
  rcases h with ⟨hrecheck, h⟩ | ⟨bytes, hdecode, h⟩
  · exact namesAdmitted_of_link hrecheck h
  · rw [Snapshot.load, hdecode, ok_bind] at h
    exact namesAdmitted_of_link rfl h

theorem tickets_link (apart : Bool) : ∃ l, (tickets apart).link {} = .ok l := by
  have hok : ∀ apart, ((tickets apart).link {}).toOption.any (fun _ => true) = true := by
    decide +kernel
  obtain ⟨l, h, _⟩ := exists_ok_of_any (hok apart)
  exact ⟨l, h⟩

/-- The tickets link with their names checked again, and none is empty, so that their names would be
declared again. -/
theorem names_of_recheck_tickets :
    (tickets false).NamesAdmitted ∧ ∀ s ∈ (tickets false).scopes, s.1.Replays s.2 := by
  obtain ⟨l, h⟩ := tickets_link false
  have hnames : (tickets false).NamesAdmitted :=
    names_of_recheck (.inl ⟨rfl, h⟩)
  have hne : ∀ s ∈ (tickets false).scopes, "" ∉ s.2 := by decide +kernel
  exact ⟨hnames, fun s hs => (hnames s hs).2.2.2 (hne s hs)⟩

/-- The cities alone, with the empty name. -/
def nameless : Document :=
  { entities := ((tickets false).entities.take 1).map fun e => { e with name := "" } }

/-- **The empty name gets past the second check**: a document with it links and loads, and
declarations refuse it. -/
theorem load_nameless :
    (nameless.link {}).isOk = true ∧
      (Snapshot.load {} (Snapshot.encode nameless)).isOk = true ∧
      (Scope.topLevel, [""]) ∈ nameless.scopes ∧ ¬ Scope.topLevel.Replays [""] := by
  have hok : (nameless.link {}).isOk = true := by decide +kernel
  refine ⟨hok, ?_, by decide +kernel, ?_⟩
  · rw [Snapshot.load_encode (by decide +kernel)]
    exact hok
  · rw [Scope.replays_iff]
    exact fun h => h.1 List.mem_cons_self

end Document

/-! ### Fields -/

namespace Document.LinkSteps

variable {options : LinkOptions} {d bound high granted : Document} {l : LinkedDocument}

/-- **Linking neither couples nor uncouples a field.** -/
theorem uncoupled_eq (s : LinkSteps options d bound high granted l) :
    l.document.uncoupled = d.uncoupled := by
  rw [← uncoupled_unlinked, s.unlinked, uncoupled_unlinked]
  rfl

theorem coupled_iff (s : LinkSteps options d bound high granted l) :
    l.document.Coupled ↔ d.Coupled := by
  rw [coupled_iff_uncoupled, s.uncoupled_eq, ← coupled_iff_uncoupled]

theorem isSome_structSource (s : LinkSteps options d bound high granted l) {e : Entity}
    (he : e ∈ l.document.entities) {f : Field} (hf : f ∈ e.fields) (htype : f.type = .struct) :
    f.structSource.isSome = true :=
  (Field.parts_of_bind_self (s.bind_self he hf)).2.2.2.2 htype

end Document.LinkSteps

namespace Snapshot

variable {options : LinkOptions} {bytes : List UInt8} {l : LinkedDocument}

/-- **The fields of a loaded document are those that the snapshot holds**, but for linked state:
they are coupled exactly if those of the snapshot are, as if it is of a document that was built by
edits.  Whatever the snapshot holds, a `struct` field has a source. -/
theorem coupled_iff_of_load (h : load options bytes = .ok l) :
    (∀ e ∈ l.document.entities, ∀ f ∈ e.fields,
      f.type = .struct → f.structSource.isSome = true) ∧
    (∃ d, decode bytes = .ok d ∧
      l.document.entities.map Entity.unlinked = d.entities.map Entity.unlinked ∧
      (l.document.Coupled ↔ d.Coupled)) ∧
    ∀ d : Document, d.Built → Fits d → bytes = encode d → l.document.Coupled := by
  obtain ⟨d, hd, hlink⟩ := load_eq_ok_iff.1 h
  obtain ⟨bound, high, granted, s⟩ := Document.link_eq_ok_iff.1 hlink
  refine ⟨fun e he f hf htype => s.isSome_structSource he hf htype, ⟨d, hd, ?_, s.coupled_iff⟩, ?_⟩
  · exact congrArg Document.entities s.unlinked
  · rintro origin hbuilt hfits rfl
    rw [decode_of_fits hfits] at hd
    obtain rfl := Except.ok.inj hd
    exact s.coupled_iff.2 (Document.coupled_unlinked.2 hbuilt.coupled)

/-- Coupled tickets are loaded as coupled tickets. -/
theorem coupled_iff_of_load_tickets :
    ∃ l, load {} (encode (Document.tickets false)) = .ok l ∧ l.document.Coupled := by
  have hfits : Fits (Document.tickets false) := by decide +kernel
  have hcoupled : (Document.tickets false).Coupled :=
    Document.coupled_iff_uncoupled.2 (by decide +kernel)
  obtain ⟨l, hlink⟩ := Document.tickets_link false
  have hload : load {} (encode (Document.tickets false)) = .ok l := by
    rw [load_encode hfits]
    exact hlink
  obtain ⟨d, hd, _, hiff⟩ := (coupled_iff_of_load hload).2.1
  rw [decode_of_fits hfits] at hd
  obtain rfl := Except.ok.inj hd
  exact ⟨l, hload, hiff.2 (Document.coupled_unlinked.2 hcoupled)⟩

/-- **Uncoupled fields get past every check.**  Tickets with seven such fields are loaded with all
of them. -/
theorem load_uncoupled :
    ∃ l, load {} (encode (Document.tickets true)) = .ok l ∧ ¬ l.document.Coupled ∧
      l.document.uncoupled =
        ["state", "rights", "grade", "marks", "copied", "origin", "title"] := by
  obtain ⟨l, hlink⟩ := Document.tickets_link true
  obtain ⟨bound, high, granted, s⟩ := Document.link_eq_ok_iff.1 hlink
  have huncoupled : l.document.uncoupled =
      ["state", "rights", "grade", "marks", "copied", "origin", "title"] :=
    s.uncoupled_eq.trans (by decide +kernel)
  refine ⟨l, ?_, fun hcoupled => ?_, huncoupled⟩
  · rw [load_encode (by decide +kernel)]
    exact hlink
  · rw [Document.coupled_iff_uncoupled.1 hcoupled] at huncoupled
    cases huncoupled

end Snapshot

end DataModel
