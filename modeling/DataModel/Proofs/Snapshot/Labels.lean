import DataModel.Proofs.Extension.Documents
import DataModel.Proofs.Linking.KeptDeclarations
import DataModel.Proofs.Snapshot.Acceptance

/-!
# Labels and the language table

A label names its language by a place in the language table of the document.  The table of a new
document holds the default language, the empty text, and it only grows.  So a document keeps
*labelled* (`Document.Labelled`) by edits that write labels for the languages that are there
(`Document.LabelledBuilt.labelled`), and whatever the edits write, the first language stays the
default one (`Document.Built.default`).

Neither an edit nor a pass of linking looks at the languages of labels.  A linked document has the
languages and the labels that were linked, and is labelled exactly if they were
(`Document.labelled_of_link`).  A snapshot can hold others, down to no language at all, and is
loaded with them (`Snapshot.load_unlabelled`).
-/

namespace DataModel

/-! ### Labels -/

/-- The labels of the items. -/
def Enumeration.labels (e : Enumeration) : List Label := e.items.flatMap EnumItem.labels

/-- The labels of the items, of the value without bits and of the null value. -/
def Bitfield.labels (b : Bitfield) : List Label :=
  b.items.flatMap BitItem.labels ++ b.labelsUnset ++ b.labelsNull

/-- The labels that the edit writes. -/
def Edit.labels : Edit → List Label
  | .addEnumItem _ item => item.labels
  | .addBitItem _ _ _ _ labels => labels
  | .setBitfieldTexts _ _ labelsUnset labelsNull => labelsUnset ++ labelsNull
  | _ => []

namespace Document

/-- All labels of a document. -/
def labels (d : Document) : List Label :=
  d.enums.flatMap Enumeration.labels ++ d.bitfields.flatMap Bitfield.labels

/-- The label is for a language of the table. -/
def HasLanguage (d : Document) (label : Label) : Prop := label.lang.toNat < d.languages.length

instance (d : Document) (label : Label) : Decidable (d.HasLanguage label) :=
  inferInstanceAs (Decidable (_ < _))

/-- **The first language is the default one, and every label is for a language of the table.** -/
structure Labelled (d : Document) : Prop where
  default : d.languages[0]? = some ""
  labels : ∀ label ∈ d.labels, d.HasLanguage label

instance (d : Document) : Decidable d.Labelled :=
  decidable_of_iff (d.languages[0]? = some "" ∧ ∀ label ∈ d.labels, d.HasLanguage label)
    ⟨fun h => ⟨h.1, h.2⟩, fun h => ⟨h.default, h.labels⟩⟩

variable {d d' : Document}

theorem forall_mem_labels_iff {p : Label → Prop} : (∀ label ∈ d.labels, p label) ↔
    (∀ e ∈ d.enums, ∀ label ∈ e.labels, p label) ∧
      ∀ b ∈ d.bitfields, ∀ label ∈ b.labels, p label := by
  rw [labels, List.forall_mem_append, List.forall_mem_flatMap, List.forall_mem_flatMap]

/-! ### Edits -/

/-- **The language table only grows.** -/
theorem prefix_languages {edit : Edit} (h : d.Change edit d') : d.languages <+: d'.languages := by
  cases h with
  | addLanguage => exact prefix_enter (List.prefix_refl _) _
  | addEntity | addEnumeration | addBitfield | addRole | addSourceFile | addEnumItem | addBitItem
  | setEnumDoc | setEnumValue | setBitfieldTexts | setRoleDoc | swapEntities | swapEnumerations
  | swapBitfields | swapEnumItems | onEntity =>
    -- These write other parts of the document.
    exact List.prefix_refl _

/-- The first language of a table that grows stays the first. -/
theorem default_of_prefix (h : d.languages <+: d'.languages) (hd : d.languages[0]? = some "") :
    d'.languages[0]? = some "" := by
  obtain ⟨rest, hrest⟩ := h
  obtain ⟨hpos, _⟩ := List.getElem?_eq_some_iff.1 hd
  rw [← hrest, List.getElem?_append_left hpos, hd]

theorem HasLanguage.of_prefix {label : Label} (hlabel : d.HasLanguage label)
    (h : d.languages <+: d'.languages) : d'.HasLanguage label :=
  hlabel.trans_le h.length_le

/-- **What is true of the labels of a document and of those that an edit writes stays true of all
labels.** -/
theorem forall_mem_labels_of_change {p : Label → Prop} {edit : Edit} (h : d.Change edit d')
    (hd : ∀ label ∈ d.labels, p label) (hedit : ∀ label ∈ edit.labels, p label) :
    ∀ label ∈ d'.labels, p label := by
  rw [forall_mem_labels_iff] at hd ⊢
  obtain ⟨henums, hbitfields⟩ := hd
  cases h with
  | addEnumeration =>
    refine ⟨?_, hbitfields⟩
    rw [List.forall_mem_append, List.forall_mem_singleton]
    exact ⟨henums, fun _ hlabel => nomatch hlabel⟩
  | addBitfield =>
    refine ⟨henums, ?_⟩
    rw [List.forall_mem_append, List.forall_mem_singleton]
    exact ⟨hbitfields, fun _ hlabel => nomatch hlabel⟩
  | @addEnumItem n item e found =>
    refine ⟨forall_mem_set henums ?_, hbitfields⟩
    rw [Enumeration.labels, List.flatMap_append, List.forall_mem_append, List.flatMap_singleton]
    exact ⟨henums e (List.mem_of_getElem? found), hedit⟩
  | @addBitItem n name index doc labels b found =>
    refine ⟨henums, forall_mem_set hbitfields ?_⟩
    have hb := hbitfields b (List.mem_of_getElem? found)
    simp only [Bitfield.labels, List.forall_mem_append, List.flatMap_append,
      List.flatMap_singleton] at hb ⊢
    exact ⟨⟨⟨hb.1.1, hedit⟩, hb.1.2⟩, hb.2⟩
  | @setEnumValue n i value e item found foundItem =>
    refine ⟨forall_mem_set henums ?_, hbitfields⟩
    have he := henums e (List.mem_of_getElem? found)
    rw [Enumeration.labels, List.forall_mem_flatMap] at he ⊢
    exact forall_mem_set he (he item (List.mem_of_getElem? foundItem))
  | @setBitfieldTexts n doc labelsUnset labelsNull b found =>
    refine ⟨henums, forall_mem_set hbitfields ?_⟩
    have hb := hbitfields b (List.mem_of_getElem? found)
    simp only [Bitfield.labels, Edit.labels, List.forall_mem_append] at hb hedit ⊢
    exact ⟨⟨hb.1.1, hedit.1⟩, hedit.2⟩
  | @setEnumDoc n doc e found =>
    have he := henums e (List.mem_of_getElem? found)
    exact ⟨forall_mem_set henums he, hbitfields⟩
  | swapEnumerations swapped =>
    exact ⟨fun e he => henums e ((perm_of_swapAt swapped).mem_iff.2 he), hbitfields⟩
  | swapBitfields swapped =>
    exact ⟨henums, fun b hb => hbitfields b ((perm_of_swapAt swapped).mem_iff.2 hb)⟩
  | @swapEnumItems n i j e items found swapped =>
    refine ⟨forall_mem_set henums ?_, hbitfields⟩
    have he := henums e (List.mem_of_getElem? found)
    rw [Enumeration.labels, List.forall_mem_flatMap] at he ⊢
    exact fun item hitem => he item ((perm_of_swapAt swapped).mem_iff.2 hitem)
  | addEntity | addRole | addLanguage | addSourceFile | setRoleDoc | swapEntities | onEntity =>
    -- These write other parts of the document.
    exact ⟨henums, hbitfields⟩

/-- **An edit that writes labels for the languages that are there keeps a document labelled.** -/
theorem Labelled.change {edit : Edit} (hd : d.Labelled) (h : d.Change edit d')
    (hedit : ∀ label ∈ edit.labels, d.HasLanguage label) : d'.Labelled where
  default := default_of_prefix (prefix_languages h) hd.default
  labels label hlabel :=
    HasLanguage.of_prefix (forall_mem_labels_of_change h hd.labels hedit label hlabel)
      (prefix_languages h)

/-- Edits lead to the document from a new one, and each writes labels for the languages that are
there. -/
inductive LabelledBuilt : Document → Prop
  | new : LabelledBuilt {}
  | edit {d d' : Document} {edit : Edit} {r : Receipt} (built : LabelledBuilt d)
      (languages : ∀ label ∈ edit.labels, d.HasLanguage label)
      (performed : d.perform edit = .ok (r, d')) : LabelledBuilt d'

theorem LabelledBuilt.labelled (hd : d.LabelledBuilt) : d.Labelled := by
  induction hd with
  | new => exact ⟨rfl, fun _ hlabel => nomatch hlabel⟩
  | edit _ languages performed ih => exact ih.change (change_of_perform performed) languages

/-- Whatever labels edits write, the first language is the default one. -/
theorem Built.default (hd : d.Built) : d.languages[0]? = some "" := by
  induction hd with
  | new => rfl
  | edit _ performed ih =>
    exact default_of_prefix (prefix_languages (change_of_perform performed)) ih

/-! ### Linking -/

/-- What members are related by keeps what the lists are made of. -/
theorem flatMap_eq_of_forall₂ {α β γ : Type} {R : α → β → Prop} {see : α → List γ}
    {see' : β → List γ} {as : List α} {bs : List β} (h : List.Forall₂ R as bs)
    (hR : ∀ a b, R a b → see' b = see a) : bs.flatMap see' = as.flatMap see := by
  induction h with
  | nil => rfl
  | cons hab _ ih => rw [List.flatMap_cons, List.flatMap_cons, hR _ _ hab, ih]

/-- A numbered enumeration has the labels of the declared one. -/
theorem labels_of_numberedAs {e e' : Enumeration} (h : e.NumberedAs e') : e'.labels = e.labels := by
  refine flatMap_eq_of_forall₂ h.items fun i i' hitem => ?_
  change ({ i' with value := i.value } : EnumItem).labels = i.labels
  rw [hitem.declared]

/-- **What linking keeps has its labels kept.** -/
theorem Kept.labels (h : d.Kept d') : d'.labels = d.labels := by
  rw [Document.labels, Document.labels, h.bitfields,
    flatMap_eq_of_forall₂ h.enums fun _ _ => labels_of_numberedAs]

theorem Kept.labelled_iff (h : d.Kept d') : d'.Labelled ↔ d.Labelled := by
  have hlanguage (label : Label) : d'.HasLanguage label ↔ d.HasLanguage label := by
    rw [HasLanguage, HasLanguage, h.languages]
  constructor
  · intro hd
    refine ⟨h.languages ▸ hd.default, fun label hlabel => ?_⟩
    exact (hlanguage label).1 (hd.labels label (h.labels ▸ hlabel))
  · intro hd
    refine ⟨h.languages ▸ hd.default, fun label hlabel => ?_⟩
    exact (hlanguage label).2 (hd.labels label (h.labels ▸ hlabel))

/-- **A linked document has the labels that were linked**, and its languages are those of their
table; so has a document that is loaded from a snapshot.  It is labelled exactly if the document
that was linked is, as it is if edits wrote labels for languages that were there.  Whatever labels
edits write, the first language is the default one. -/
theorem labelled_of_link {options : LinkOptions} {l : LinkedDocument}
    (h : d.link options = .ok l ∨
      ∃ bytes, Snapshot.decode bytes = .ok d ∧ Snapshot.load options bytes = .ok l) :
    l.document.languages = d.languages ∧ l.document.labels = d.labels ∧
      (l.document.Labelled ↔ d.Labelled) ∧ (d.LabelledBuilt → l.document.Labelled) ∧
      (d.Built → l.document.languages[0]? = some "") := by
  have hkept : d.Kept l.document := by
    rcases h with h | ⟨bytes, hdecode, h⟩
    · exact link_keeps h
    · rw [Snapshot.load, hdecode, ok_bind] at h
      exact link_keeps h
  refine ⟨hkept.languages, hkept.labels, hkept.labelled_iff, fun hd => ?_, fun hd => ?_⟩
  · exact hkept.labelled_iff.2 hd.labelled
  · rw [hkept.languages]
    exact hd.default

/-- Permissions that are labelled in French, by the second place of the language table.  If the
languages are `lost`, the table is empty. -/
def permissions (lost : Bool) : Document :=
  { bitfields :=
      [{ Bitfield.declare ⟨0, Handle.bound_pos⟩ "permissions" with
          items := [{ name := "read", index := 0, labels := [⟨1, "lire"⟩] }]
          labelsNull := [⟨1, "inconnu"⟩] }]
    languages := if lost then [] else ["", "fr"] }

/-- The permissions with their languages are labelled, linked and loaded. -/
theorem labelled_of_link_permissions :
    ∃ l, (permissions false).link {} = .ok l ∧ l.document.labels.length = 2 ∧
      l.document.Labelled := by
  obtain ⟨l, h, hlabels⟩ := exists_ok_of_any (r := (permissions false).link {})
    (p := fun l => decide (l.document.labels.length = 2)) (by decide +kernel)
  have hlabelled : (permissions false).Labelled := by decide +kernel
  exact ⟨l, h, of_decide_eq_true hlabels, (labelled_of_link (.inl h)).2.2.1.2 hlabelled⟩

end Document

/-- **A snapshot brings in labels without a language**: the permissions are loaded with an empty
table, which has not even the default language. -/
theorem Snapshot.load_unlabelled :
    ∃ l, load {} (encode (Document.permissions true)) = .ok l ∧
      l.document.languages[0]? = none ∧
      ∃ label ∈ l.document.labels, ¬ l.document.HasLanguage label :=
  exists_load_of_any (by decide +kernel) (by decide +kernel)

end DataModel
