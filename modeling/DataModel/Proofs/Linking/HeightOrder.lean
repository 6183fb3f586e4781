import DataModel.Proofs.Linking.FallingHeights

/-!
# The order by height

`Document.link_ordered`: a linked document lists its entities by height, each of them once, and
those of one height in the order of their declaration.  So an entity comes behind every entity that
its references lead to or that its `struct` fields embed.

The order is kept as a list of handles, sorted by the height of the entity that each handle stands
for.  Handles are places, so the entities in this order are the entities sorted by their own height
(`LinkedDocument.entitiesByHeight_eq`), and the rest is what a stable sort does.
-/

namespace DataModel

/-! ### Sorting by a key -/

section

variable {α : Type} (key : α → Nat)

/-- The list, sorted by a key. -/
def sortedBy (as : List α) : List α := as.mergeSort fun a b => key a ≤ key b

variable {key} {as : List α}

theorem sortedBy_perm : (sortedBy key as).Perm as := List.mergeSort_perm as _

theorem mem_sortedBy {a : α} : a ∈ sortedBy key as ↔ a ∈ as := sortedBy_perm.mem_iff

private theorem le_trans_key (a b c : α) (hab : decide (key a ≤ key b) = true)
    (hbc : decide (key b ≤ key c) = true) : decide (key a ≤ key c) = true := by
  simp only [decide_eq_true_eq] at *
  omega

private theorem le_total_key (a b : α) :
    (decide (key a ≤ key b) || decide (key b ≤ key a)) = true := by
  simp only [Bool.or_eq_true, decide_eq_true_eq]
  omega

theorem pairwise_sortedBy : (sortedBy key as).Pairwise fun a b => key a ≤ key b := by
  have h : (sortedBy key as).Pairwise fun a b => decide (key a ≤ key b) = true :=
    List.pairwise_mergeSort le_trans_key le_total_key as
  simp only [decide_eq_true_eq] at h
  exact h

/-- Members with the same key keep their order. -/
theorem filter_sortedBy (k : Nat) :
    (sortedBy key as).filter (key · == k) = as.filter (key · == k) := by
  have hequal : (as.filter (key · == k)).Pairwise fun a b => decide (key a ≤ key b) = true := by
    rw [List.pairwise_filter]
    apply List.pairwise_of_forall
    intro a b ha hb
    simp only [beq_iff_eq, decide_eq_true_eq] at *
    omega
  -- The members with the key are a sorted part of the list, which the sort leaves in its order.
  have hsub := List.sublist_mergeSort le_trans_key le_total_key hequal List.filter_sublist
  have hkept := hsub.filter (key · == k)
  rw [List.filter_filter] at hkept
  simp only [Bool.and_self] at hkept
  refine (hkept.eq_of_length ?_).symm
  exact (sortedBy_perm.filter (key · == k)).length_eq.symm

/-- A member with a lower key stands in front. -/
theorem idxOf_sortedBy_lt [DecidableEq α] {a b : α} (ha : a ∈ as) (hb : b ∈ as)
    (h : key a < key b) : (sortedBy key as).idxOf a < (sortedBy key as).idxOf b := by
  have hsorted : (sortedBy key as).Pairwise fun a b => key a ≤ key b := pairwise_sortedBy
  have hi : (sortedBy key as).idxOf a < _ := List.idxOf_lt_length_iff.2 (mem_sortedBy.2 ha)
  have hj : (sortedBy key as).idxOf b < _ := List.idxOf_lt_length_iff.2 (mem_sortedBy.2 hb)
  by_contra hnot
  rcases Nat.lt_or_eq_of_le (Nat.not_lt.1 hnot) with hlt | heq
  · have hle := List.pairwise_iff_getElem.1 hsorted _ _ hj hi hlt
    rw [List.getElem_idxOf, List.getElem_idxOf] at hle
    omega
  · have hab : a = b := by
      rw [← List.getElem_idxOf hi, ← List.getElem_idxOf hj]
      simp only [heq]
    rw [hab] at h
    omega

end

/-! ### The entities of a linked document -/

namespace Document

variable {d : Document}

/-- The handles of entities of a document lead back to them. -/
theorem Placed.filterMap_entity? (hd : d.Placed) {es : List Entity}
    (hes : ∀ e ∈ es, e ∈ d.entities) : (es.map Entity.id).filterMap d.entity? = es := by
  induction es with
  | nil => rfl
  | cons e es ih =>
    rw [List.forall_mem_cons] at hes
    rw [List.map_cons, List.filterMap_cons_some (hd.entity?_id hes.1), ih hes.2]

theorem Placed.byHeight_eq (hd : d.Placed) :
    d.byHeight = (sortedBy Entity.height d.entities).map Entity.id := by
  rw [byHeight, sortedBy]
  refine (List.map_mergeSort ?_).symm
  intro a ha b hb
  simp only [hd.entity?_id ha, hd.entity?_id hb, Option.elim_some]

theorem Placed.nodup_entities (hd : d.Placed) : d.entities.Nodup := by
  rw [List.nodup_iff_getElem?_ne_getElem?]
  intro i j hij hj heq
  rw [List.getElem?_eq_getElem hj] at heq
  have h1 := hd.entity i _ heq
  have h2 := hd.entity j _ (List.getElem?_eq_getElem hj)
  omega

end Document

namespace LinkedDocument

variable (l : LinkedDocument)

/-- The entity stands in front of the other in the order by height. -/
def Precedes (target e : Entity) : Prop :=
  l.entitiesByHeight.idxOf target < l.entitiesByHeight.idxOf e

instance (target e : Entity) : Decidable (l.Precedes target e) :=
  inferInstanceAs (Decidable (_ < _))

/-- Every entity is listed once, by height and then as declared, and behind what it leads to. -/
structure OrderedByHeight : Prop where
  perm : l.entitiesByHeight.Perm l.document.entities
  nodup : l.entitiesByHeight.Nodup
  rises : l.entitiesByHeight.Pairwise fun a b => a.height ≤ b.height
  /-- Entities of one height stand as they were declared. -/
  stable : ∀ height, l.entitiesByHeight.filter (·.height == height) =
    l.document.entities.filter (·.height == height)
  reference : ∀ e ∈ l.document.entities, ∀ f ∈ e.fields, ∀ r ∈ f.reference,
    ∃ target, r.entity?.bind l.document.entity? = some target ∧ l.Precedes target e
  struct : ∀ e ∈ l.document.entities, ∀ f ∈ e.fields, f.structSource.isSome = true →
    ∃ target, l.structEntity? f = some target ∧ l.Precedes target e

variable {l}

/-- **The order by height is the document, sorted by height.** -/
theorem entitiesByHeight_eq (hl : l.document.Placed) (ho : l.order = l.document.byHeight) :
    l.entitiesByHeight = sortedBy Entity.height l.document.entities := by
  rw [entitiesByHeight, ho, hl.byHeight_eq]
  exact hl.filterMap_entity? fun e he => sortedBy_perm.mem_iff.1 he

end LinkedDocument

namespace Document

variable {options : LinkOptions} {d bound high granted : Document} {l : LinkedDocument}

/-- A reference of a linked document leads to an entity of it. -/
theorem LinkSteps.exists_target (s : LinkSteps options d bound high granted l) {e : Entity}
    (he : e ∈ l.document.entities) {f : Field} (hf : f ∈ e.fields) {r : Reference}
    (hr : f.reference = some r) :
    ∃ b, r.binding = some b ∧ ∃ target, l.document.entity? b.target.entity = some target := by
  obtain ⟨b, hb, hfield⟩ := s.referencesBound e he f hf r hr
  obtain ⟨key, hkey⟩ := Option.isSome_iff_exists.1 hfield
  rw [field?, Option.bind_eq_some_iff] at hkey
  obtain ⟨target, htarget, _⟩ := hkey
  exact ⟨b, hb, target, htarget⟩

/-- An entity of lower height stands in front. -/
theorem LinkSteps.precedes (s : LinkSteps options d bound high granted l) {e target : Entity}
    (he : e ∈ l.document.entities) (htarget : target ∈ l.document.entities)
    (h : target.height < e.height) : l.Precedes target e := by
  rw [LinkedDocument.Precedes, LinkedDocument.entitiesByHeight_eq s.placed s.order]
  exact idxOf_sortedBy_lt htarget he h

/-- **The target of a reference stands in front.** -/
theorem LinkSteps.reference_precedes (s : LinkSteps options d bound high granted l) {e : Entity}
    (he : e ∈ l.document.entities) {f : Field} (hf : f ∈ e.fields) {r : Reference}
    (hr : f.reference = some r) :
    ∃ target, r.entity?.bind l.document.entity? = some target ∧ l.Precedes target e := by
  obtain ⟨b, hb, target, htarget⟩ := s.exists_target he hf hr
  have hlt := s.height_lt_of_reference he hf hr hb htarget
  refine ⟨target, ?_, s.precedes he (List.mem_of_getElem? htarget) hlt⟩
  rw [Reference.entity?, hb]
  exact htarget

/-- **The embedded entity stands in front.** -/
theorem LinkSteps.struct_precedes (s : LinkSteps options d bound high granted l) {e : Entity}
    (he : e ∈ l.document.entities) {f : Field} (hf : f ∈ e.fields) {source : StructSource}
    (hsource : f.structSource = some source) :
    ∃ target, l.structEntity? f = some target ∧ l.Precedes target e := by
  obtain ⟨b, carrier, r, key, hb, hcarrier, _, hr, hkey, hentity⟩ := s.structBound he hf hsource
  -- The reference of the carrier leads to the entity that the source embeds.
  obtain ⟨key', hkey', target, htarget⟩ := s.exists_target he hcarrier.mem hr
  obtain rfl : key = key' := Option.some.inj (hkey.symm.trans hkey')
  rw [← hentity] at htarget
  have hlt := s.height_lt_of_struct he hf hsource hb htarget
  refine ⟨target, ?_, s.precedes he (List.mem_of_getElem? htarget) hlt⟩
  rw [LinkedDocument.structEntity?, hsource, Option.bind_some, StructSource.entity?, hb]
  exact htarget

/-- **The entities of a linked document are ordered by height.** -/
theorem link_ordered (h : d.link options = .ok l) : l.OrderedByHeight := by
  obtain ⟨bound, high, granted, s⟩ := link_eq_ok_iff.1 h
  have hsorted := LinkedDocument.entitiesByHeight_eq s.placed s.order
  constructor
  · rw [hsorted]
    exact sortedBy_perm
  · rw [hsorted, sortedBy_perm.nodup_iff]
    exact s.placed.nodup_entities
  · rw [hsorted]
    exact pairwise_sortedBy
  · intro height
    rw [hsorted]
    exact filter_sortedBy height
  · intro e he f hf r hr
    exact s.reference_precedes he hf (Option.mem_def.1 hr)
  · intro e he f hf hsource
    obtain ⟨source, hsource⟩ := Option.isSome_iff_exists.1 hsource
    exact s.struct_precedes he hf hsource

/-- Entities that refer to later ones are listed the other way round, and sessions behind the
persons that they refer to and embed. -/
theorem link_ordered_threeInARow :
    (∃ l, (threeInARow false).link .strict = .ok l ∧
      l.document.entities.map Entity.height = [2, 1, 0] ∧ l.OrderedByHeight) ∧
    ∃ l, (sessions true).link .trusted = .ok l ∧
      (∃ e ∈ l.document.entities, ∃ f ∈ e.fields, f.structSource.isSome = true) ∧
      l.OrderedByHeight := by
  constructor
  · obtain ⟨l, h, hheights⟩ := exists_ok_of_any (r := (threeInARow false).link .strict)
      (p := fun l => decide (l.document.entities.map Entity.height = [2, 1, 0]))
      (by decide +kernel)
    exact ⟨l, h, of_decide_eq_true hheights, link_ordered h⟩
  · obtain ⟨l, h, hstruct⟩ := exists_ok_of_any (r := (sessions true).link .trusted)
      (p := fun l => decide (∃ e ∈ l.document.entities, ∃ f ∈ e.fields,
        f.structSource.isSome = true)) (by decide +kernel)
    exact ⟨l, h, of_decide_eq_true hstruct, link_ordered h⟩

end Document

end DataModel
