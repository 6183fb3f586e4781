import DataModel.Proofs.Linking.Walks

/-!
# Falling heights

In a linked document the height falls wherever a field leads into another entity: along a reference
to the entity of its target (`LinkSteps.height_lt_of_reference`), and along a struct source to the
entity that it embeds (`LinkSteps.height_lt_of_struct`).

Only references are edges of the graph that the heights are computed from.  A struct source is
covered by one of them, the reference of the local field that it goes through.  The heights were
computed before the grants and the specifications were bound, and both leave them as they are
(`LinkSteps.map_setHeights`).
-/

namespace DataModel.Document

variable {d : Document}

/-- Heights that a function of the position gives back are the heights of the entities. -/
theorem height_eq_of_withHeights {height : Nat → Nat}
    (h : (d.withHeights height).mapEntities Entity.beforeGrants =
      d.mapEntities Entity.beforeGrants) {v : Nat} {e : Entity} (he : d.entities[v]? = some e) :
    e.height = height v := by
  have hmap : ((d.withHeights height).mapEntities Entity.beforeGrants).entities.map Entity.height =
      (d.mapEntities Entity.beforeGrants).entities.map Entity.height := by
    rw [h]
  have hat := congrArg (·[v]?) hmap
  simp only [withHeights, mapEntities_entities, List.map_map, List.getElem?_map,
    List.getElem?_zipIdx, he, Option.map_some, Nat.zero_add] at hat
  exact (Option.some.inj hat).symm

namespace LinkSteps

variable {options : LinkOptions} {bound high granted : Document} {l : LinkedDocument}

/-- **The heights of a linked document are those of its references.** -/
theorem map_setHeights (s : LinkSteps options d bound high granted l) :
    mapEntities Entity.beforeGrants <$> l.document.setHeights =
      .ok (l.document.mapEntities Entity.beforeGrants) := by
  have hlater : l.document.mapEntities Entity.beforeGrants =
      high.mapEntities Entity.beforeGrants := by
    rw [beforeGrants_congr (beforeChains_of_bindSpecs s.specs), beforeGrants_of_bindGrants s.grants]
  rw [← setHeights_beforeHeight, s.beforeHeight, setHeights_beforeHeight, s.heights, hlater]
  rfl

variable {e target : Entity} {f : Field}

/-- The references of a linked document are bound. -/
theorem referenceBound (s : LinkSteps options d bound high granted l)
    (he : e ∈ l.document.entities) (hf : f ∈ e.fields) {r : Reference} (hr : f.reference = some r) :
    l.ReferenceBound f r :=
  LinkedDocument.referenceBound s.placed (fun _ he _ hf => s.bind_self he hf) he hf hr

/-- The struct sources of a linked document are bound. -/
theorem structBound (s : LinkSteps options d bound high granted l)
    (he : e ∈ l.document.entities) (hf : f ∈ e.fields) {source : StructSource}
    (hsource : f.structSource = some source) : l.StructBound e source :=
  LinkedDocument.structBound s.placed (fun _ he _ hf => s.bind_self he hf) he hf hsource

/-- The references of a linked document lead to its fields. -/
theorem referencesBound (s : LinkSteps options d bound high granted l) :
    l.document.ReferencesBound := by
  intro e he f hf r hr
  obtain ⟨b, _, key, hb, _, _, _, hkey, _⟩ := s.referenceBound he hf (Option.mem_def.1 hr)
  refine ⟨b, hb, ?_⟩
  rw [hkey]
  rfl

/-- The height of every entity of a linked document is that of its place in the graph. -/
theorem exists_isHeight (s : LinkSteps options d bound high granted l) :
    ∃ height, Heights.IsHeight l.document.edges height ∧
      ∀ v e, l.document.entities[v]? = some e → e.height = height v := by
  have hmap := s.map_setHeights
  rcases setHeights_spec s.referencesBound with ⟨height, hok, hheight⟩ | ⟨_, names, herr, _⟩
  · rw [hok] at hmap
    have hgrants := Except.ok.inj hmap
    exact ⟨height, hheight, fun v e he => height_eq_of_withHeights hgrants he⟩
  · rw [herr] at hmap
    cases hmap

/-- The height falls from an entity to each that it refers to. -/
theorem height_lt_of_refers (s : LinkSteps options d bound high granted l) {v w : Nat}
    (he : l.document.entities[v]? = some e)
    (htarget : l.document.entities[w]? = some target) (h : l.document.Refers v w) :
    target.height < e.height := by
  obtain ⟨height, hheight, hat⟩ := s.exists_isHeight
  rw [hat v e he, hat w target htarget]
  exact hheight.lt v w (mem_edges_iff.2 h)

/-- **The height falls along a reference.** -/
theorem height_lt_of_reference (s : LinkSteps options d bound high granted l)
    (he : e ∈ l.document.entities) (hf : f ∈ e.fields) {r : Reference} (hr : f.reference = some r)
    {b : Reference.Binding} (hb : r.binding = some b)
    (htarget : l.document.entity? b.target.entity = some target) : target.height < e.height := by
  obtain ⟨v, hv⟩ := List.mem_iff_getElem?.1 he
  apply s.height_lt_of_refers hv htarget
  exact ⟨e, hv, f, hf, r, hr, b, hb, rfl⟩

/-- **The height falls along a struct source**, because the entity refers to what it embeds. -/
theorem height_lt_of_struct (s : LinkSteps options d bound high granted l)
    (he : e ∈ l.document.entities) (hf : f ∈ e.fields) {source : StructSource}
    (hsource : f.structSource = some source) {b : StructSource.Binding}
    (hb : source.binding = some b) (htarget : l.document.entity? b.entity = some target) :
    target.height < e.height := by
  obtain ⟨b', carrier, r, key, hb', hcarrier, _, hr, hkey, hentity⟩ := s.structBound he hf hsource
  obtain rfl : b = b' := Option.some.inj (hb.symm.trans hb')
  rw [hentity] at htarget
  exact s.height_lt_of_reference he hcarrier.mem hr hkey htarget

/-- **The height falls wherever a field leads.** -/
theorem height_lt_of_leadsTo (s : LinkSteps options d bound high granted l)
    (he : e ∈ l.document.entities) (hf : f ∈ e.fields) (h : l.document.LeadsTo f target) :
    target.height < e.height := by
  rcases h with ⟨r, hr, b, hb, htarget⟩ | ⟨_, source, hsource, b, hb, htarget⟩
  · exact s.height_lt_of_reference he hf hr hb htarget
  · exact s.height_lt_of_struct he hf hsource hb htarget

end LinkSteps

end DataModel.Document
