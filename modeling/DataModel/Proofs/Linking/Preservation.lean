import DataModel.Linked
import DataModel.Proofs.Linking.Filling
import DataModel.Proofs.Linking.Heights

/-!
# What linking keeps

A link that succeeds leaves its passes' results in `Document.LinkSteps`.  Each pass keeps every part
that is not its own: the specifications bind chains only (`Document.beforeChains_of_bindSpecs`), the
grants handles only, the heights heights only, and the fields bindings only, next to the numbers of
the enumerations (`Document.unlinked_of_bindFields`).  So a linked document agrees with its
declarations in everything but linked state and numbers (`Document.LinkSteps.unlinked`), and its
fields are those that the second pass bound (`Document.LinkSteps.beforeHeight`).
-/

namespace DataModel

/-! ### Specifications -/

namespace Path

variable {d : Document} {owner : Entity} {p p' : Path}

theorem unlinked_of_link {ending : Ending} (h : p.link d owner ending = .ok p') :
    p'.unlinked = p.unlinked := by
  rw [link, map_eq_ok] at h
  obtain ⟨chain, _, rfl⟩ := h
  rfl

theorem unlinked_of_linkLocal (h : p.linkLocal d owner = .ok p') : p'.unlinked = p.unlinked := by
  rw [linkLocal] at h
  split_ifs at h with hlocal
  · exact unlinked_of_link h
  · exact absurd h failFlaw_ne_ok

theorem unlinked_of_linkCompared {op : Operator} (h : p.linkCompared d owner op = .ok p') :
    p'.unlinked = p.unlinked := by
  rw [linkCompared, bind_eq_ok] at h
  obtain ⟨linked, hlinked, h⟩ := h
  have hp' : linked = p' := by
    split at h
    · exact pure_eq_ok.1 (guardFlaw_eq_ok.1 h).2
    · exact pure_eq_ok.1 h
  rw [← hp']
  exact unlinked_of_link hlinked

theorem unlinked_of_linkModified {modifier : Modifier}
    (h : p.linkModified d owner modifier = .ok p') : p'.unlinked = p.unlinked := by
  rw [linkModified, bind_eq_ok] at h
  obtain ⟨linked, hlinked, h⟩ := h
  have hp' : linked = p' := by
    split at h
    · exact pure_eq_ok.1 (guardFlaw_eq_ok.1 h).2
    · exact pure_eq_ok.1 h
  rw [← hp']
  exact unlinked_of_linkLocal hlinked

end Path

variable {d : Document} {owner : Entity}

theorem Search.unlinked_of_link {s s' : Search} (h : s.link d owner = .ok s') :
    s'.unlinked = s.unlinked := by
  unfold link at h
  simp only [bind_eq_ok, pure_eq_ok] at h
  obtain ⟨params, hparams, orders, horders, aggregate, haggregate, distinct, hdistinct, rfl⟩ := h
  have hp : params.map SearchParam.unlinked = s.params.map SearchParam.unlinked := by
    refine map_eq_of_mapM (fun p p' h => ?_) hparams
    obtain ⟨path, hpath, h⟩ := bind_eq_ok.1 h
    rw [← pure_eq_ok.1 h, SearchParam.unlinked, SearchParam.unlinked,
      Path.unlinked_of_linkCompared hpath]
  have ho : orders.map SortOrder.unlinked = s.orders.map SortOrder.unlinked := by
    refine map_eq_of_mapM (fun o o' h => ?_) horders
    obtain ⟨path, hpath, h⟩ := bind_eq_ok.1 h
    rw [← pure_eq_ok.1 h, SortOrder.unlinked, SortOrder.unlinked, Path.unlinked_of_link hpath]
  have ha : aggregate.map Aggregate.unlinked = s.aggregate.map Aggregate.unlinked := by
    refine option_map_eq_of_mapM (fun a a' h => ?_) haggregate
    obtain ⟨path, hpath, h⟩ := bind_eq_ok.1 h
    obtain ⟨group, hgroup, h⟩ := bind_eq_ok.1 h
    rw [← pure_eq_ok.1 h, Aggregate.unlinked, Aggregate.unlinked, Path.unlinked_of_link hpath,
      Path.unlinked_of_link hgroup]
  have hd : distinct.map Distinct.unlinked = s.distinct.map Distinct.unlinked := by
    refine option_map_eq_of_mapM (fun x x' h => ?_) hdistinct
    obtain ⟨path, hpath, h⟩ := bind_eq_ok.1 h
    rw [← pure_eq_ok.1 h, Distinct.unlinked, Distinct.unlinked, Path.unlinked_of_link hpath]
  rw [unlinked, unlinked, hp, ho, ha, hd]

theorem Mutation.unlinked_of_link {m m' : Mutation} (h : m.link d owner = .ok m') :
    m'.unlinked = m.unlinked := by
  unfold link at h
  replace h := (guardFlaw_eq_ok.1 h).2
  simp only [bind_eq_ok, pure_eq_ok] at h
  obtain ⟨modify, hmodify, constrain, hconstrain, rfl⟩ := h
  have hm : modify.map Modification.unlinked = m.modify.map Modification.unlinked := by
    refine map_eq_of_mapM (fun f f' h => ?_) hmodify
    obtain ⟨path, hpath, h⟩ := bind_eq_ok.1 h
    rw [← pure_eq_ok.1 h, Modification.unlinked, Modification.unlinked,
      Path.unlinked_of_linkModified hpath]
  have hc : constrain.map RowConstraint.unlinked = m.constrain.map RowConstraint.unlinked := by
    refine map_eq_of_mapM (fun c c' h => ?_) hconstrain
    obtain ⟨path, hpath, h⟩ := bind_eq_ok.1 h
    rw [← pure_eq_ok.1 h, RowConstraint.unlinked, RowConstraint.unlinked,
      Path.unlinked_of_linkCompared hpath]
  rw [unlinked, unlinked, hm, hc]

theorem Unique.unlinked_of_link {u u' : Unique} (h : u.link d owner = .ok u') :
    u'.unlinked = u.unlinked := by
  rw [link, bind_eq_ok] at h
  obtain ⟨fields, hfields, h⟩ := h
  rw [← pure_eq_ok.1 h, unlinked, unlinked,
    map_eq_of_mapM (fun _ _ => Path.unlinked_of_linkLocal) hfields]

theorem Entity.beforeChains_of_bindSpecs {e e' : Entity} (h : e.bindSpecs d = .ok e') :
    e'.beforeChains = e.beforeChains := by
  unfold bindSpecs at h
  simp only [bind_eq_ok, pure_eq_ok] at h
  obtain ⟨searches, hsearches, updates, hupdates, deletes, hdeletes, uniques, huniques, rfl⟩ := h
  have hs : searches.map Search.unlinked = e.searches.map Search.unlinked :=
    map_eq_of_mapM (fun _ _ h => Search.unlinked_of_link (placed_eq_ok.1 h)) hsearches
  have hu : updates.map Mutation.unlinked = e.updates.map Mutation.unlinked :=
    map_eq_of_mapM (fun _ _ h => Mutation.unlinked_of_link (placed_eq_ok.1 h)) hupdates
  have hd : deletes.map Mutation.unlinked = e.deletes.map Mutation.unlinked :=
    map_eq_of_mapM (fun _ _ h => Mutation.unlinked_of_link (placed_eq_ok.1 h)) hdeletes
  have hq : uniques.map Unique.unlinked = e.uniques.map Unique.unlinked :=
    map_eq_of_mapM (fun _ _ h => Unique.unlinked_of_link (placed_eq_ok.1 h)) huniques
  rw [beforeChains, beforeChains, hs, hu, hd, hq]

theorem Document.beforeChains_of_bindSpecs {d' : Document} (h : d.bindSpecs = .ok d') :
    d'.mapEntities Entity.beforeChains = d.mapEntities Entity.beforeChains := by
  rw [bindSpecs, bind_eq_ok] at h
  obtain ⟨entities, hentities, h⟩ := h
  rw [← pure_eq_ok.1 h, mapEntities, mapEntities,
    map_eq_of_mapM (fun _ _ => Entity.beforeChains_of_bindSpecs) hentities]

/-! ### Grants -/

theorem Grant.unlinked_of_bind {t : RoleTree} {e : Entity} {g g' : Grant}
    (h : g.bind t e = .ok g') : g'.unlinked = g.unlinked := by
  rw [bind, bind_eq_ok] at h
  obtain ⟨boundRoles, _, h⟩ := h
  obtain ⟨boundTarget, _, h⟩ := bind_eq_ok.1 h
  rw [← pure_eq_ok.1 h]
  rfl

theorem Entity.beforeGrants_of_bindGrants {t : RoleTree} {e e' : Entity}
    (h : e.bindGrants t = .ok e') : e'.beforeGrants = e.beforeGrants := by
  rw [bindGrants, bind_eq_ok] at h
  obtain ⟨grants, hgrants, h⟩ := h
  have hg : grants.map Grant.unlinked = e.rolemap.grants.map Grant.unlinked :=
    map_eq_of_mapM (fun _ _ h => Grant.unlinked_of_bind (placed_eq_ok.1 h)) hgrants
  rw [← pure_eq_ok.1 h, beforeGrants, beforeGrants, Rolemap.unlinked, Rolemap.unlinked, hg]
  rfl

theorem Document.beforeGrants_of_bindGrants {d' : Document} (h : d.bindGrants = .ok d') :
    d'.mapEntities Entity.beforeGrants = d.mapEntities Entity.beforeGrants := by
  rw [bindGrants, bind_eq_ok] at h
  obtain ⟨entities, hentities, h⟩ := h
  rw [← pure_eq_ok.1 h, mapEntities, mapEntities,
    map_eq_of_mapM (fun _ _ => Entity.beforeGrants_of_bindGrants) hentities]

/-! ### Heights -/

theorem Document.beforeHeight_withHeights (height : Nat → Nat) :
    (d.withHeights height).mapEntities Entity.beforeHeight =
      d.mapEntities Entity.beforeHeight := by
  -- Without their heights the entities are those that were paired with positions.
  have hfst : (d.entities.zipIdx.map fun p => { p.1 with height := height p.2 }).map
      Entity.beforeHeight = (d.entities.zipIdx.map Prod.fst).map Entity.beforeHeight := by
    rw [List.map_map, List.map_map]
    rfl
  rw [withHeights, mapEntities, mapEntities, hfst, List.zipIdx_map_fst]

theorem Document.beforeHeight_of_setHeights {d' : Document} (h : d.setHeights = .ok d') :
    d'.mapEntities Entity.beforeHeight = d.mapEntities Entity.beforeHeight := by
  cases hc : Heights.compute d.edges with
  | ok heights =>
    rw [setHeights_of_ok hc] at h
    rw [← Except.ok.inj h, beforeHeight_withHeights]
  | error cycle =>
    rw [setHeights_of_error hc] at h
    exact absurd h fail_ne_ok

/-! ### Fields -/

theorem Entity.unlinked_of_bindFields {e e' : Entity} (h : e.bindFields d = .ok e') :
    e'.unlinked = e.unlinked := by
  rw [bindFields, bind_eq_ok] at h
  obtain ⟨fields, hfields, h⟩ := h
  have hf : fields.map Field.unlinked = e.fields.map Field.unlinked :=
    map_eq_of_mapM (fun _ _ h => Field.unlinked_of_bind (placed_eq_ok.1 h)) hfields
  rw [← pure_eq_ok.1 h, unlinked, unlinked, hf]
  rfl

/-- Numbering an enumeration changes its items only. -/
theorem Enumeration.eq_of_number {e e' : Enumeration} (h : e.number = .ok e') :
    ∃ items, { e with items } = e' := by
  unfold number at h
  rw [guardFlaw_eq_ok, bind_eq_ok] at h
  obtain ⟨_, items, _, h⟩ := h
  exact ⟨items, pure_eq_ok.1 h⟩

namespace Document

/-- The second pass numbers the enumerations, checks the bit-field sets and then binds the fields,
entity by entity. -/
theorem bindFields_eq_ok_iff (hd : d.Placed) {d' : Document} :
    d.bindFields = .ok d' ↔
      ∃ enums, (d.enums.mapM fun e => placed { entity := some e.name } e.number) = .ok enums ∧
      (∀ b ∈ d.bitfields, b.checkItems = .ok ()) ∧
      ∃ entities, (d.entities.mapM fun e => e.bindFields { d with enums }) = .ok entities ∧
        { d with enums, entities } = d' := by
  rw [bindFields_eq hd]
  simp only [bind_eq_ok, forM_eq_ok, placed_eq_ok, pure_eq_ok, exists_and_left, exists_const]

/-- **The second pass changes bindings and numbers only.** -/
theorem unlinked_of_bindFields (hd : d.Placed) {d' : Document} (h : d.bindFields = .ok d') :
    d'.unlinked = { d with enums := d'.enums }.unlinked := by
  obtain ⟨enums, _, _, entities, hentities, rfl⟩ := (bindFields_eq_ok_iff hd).1 h
  rw [unlinked, unlinked, mapEntities, mapEntities,
    map_eq_of_mapM (fun _ _ => Entity.unlinked_of_bindFields) hentities]

/-- **Bound references lead to fields of the document.** -/
theorem referencesBound_of_bindFields (hd : d.Placed) (h : d.bindFields = .ok d') :
    d'.ReferencesBound := by
  have hunlinked := unlinked_of_bindFields hd h
  obtain ⟨enums, _, _, entities, hentities, rfl⟩ := (bindFields_eq_ok_iff hd).1 h
  intro e he f hf r hr
  obtain ⟨e₀, he₀, hbound⟩ := exists_of_mem_mapM hentities he
  have hfields := eq_ok_of_put Entity.fields (fun _ => rfl) hbound
  obtain ⟨f₀, hf₀, hbind⟩ := exists_of_mem_mapM hfields hf
  rw [placed_eq_ok] at hbind
  obtain ⟨reference, hreference, _, _, _, _, _, _, _, rfl⟩ := Field.bind_eq_ok_iff.1 hbind
  obtain ⟨r₀, hr₀, rfl⟩ := Option.map_eq_some_iff.1 (Option.mem_def.1 hr)
  obtain ⟨_, target, htarget, key, hkey, _, _, rfl⟩ := (Field.resolveReference_some hr₀).1 hreference
  refine ⟨_, rfl, ?_⟩
  -- The key was found in the document before, where its handle leads to it.
  have hmem : target ∈ d.entities := List.mem_of_find?_eq_some htarget
  have hfound : d.field? key.id = some key := hd.field?_id hmem (List.mem_of_find?_eq_some hkey)
  have hplaces := congrArg (fun d : Document => (d.field? key.id).isSome) hunlinked
  simp only [field?_unlinked, Option.isSome_map] at hplaces
  rw [hplaces]
  show (d.field? key.id).isSome
  rw [hfound]
  rfl

/-! ### The link -/

/-- The passes of a link that succeeds, and the document after each of them. -/
structure LinkSteps (options : LinkOptions) (d bound high granted : Document) (l : LinkedDocument) :
    Prop where
  placement : d.checkPlacement = .ok ()
  declared : options.recheck = true → d.checkDeclared = .ok ()
  fields : d.bindFields = .ok bound
  heights : bound.setHeights = .ok high
  roles : high.roles.check = .ok ()
  grants : high.bindGrants = .ok granted
  specs : granted.bindSpecs = .ok l.document
  order : l.order = l.document.byHeight
  unused : l.unusedRoles = granted.unusedRoles

/-- **A link succeeds step by step.** -/
theorem link_eq_ok_iff {options : LinkOptions} {l : LinkedDocument} :
    d.link options = .ok l ↔ ∃ bound high granted, LinkSteps options d bound high granted l := by
  unfold link bindUpToRoles
  simp only [bind_eq_ok, inPass_eq_ok, pure_eq_ok]
  constructor
  · rintro ⟨high', ⟨_, ⟨_, hplacement, hdeclared⟩, bound, hbound, high, hhigh, _, hroles, rfl⟩,
      granted, hgranted, document, hdocument, rfl⟩
    refine ⟨bound, high, granted, hplacement, fun hr => ?_, hbound, hhigh, hroles, hgranted,
      hdocument, rfl, rfl⟩
    rwa [if_pos hr] at hdeclared
  · rintro ⟨bound, high, granted, s⟩
    refine ⟨high, ⟨(), ⟨(), s.placement, ?_⟩, bound, s.fields, high, s.heights, (), s.roles, rfl⟩,
      granted, s.grants, l.document, s.specs, ?_⟩
    · split_ifs with hr
      · exact s.declared hr
      · rfl
    · rw [← s.order, ← s.unused]

/-- Where the declarations are admitted, every option links alike. -/
theorem link_of_checkDeclared {options : LinkOptions} {l : LinkedDocument}
    (hd : d.checkDeclared = .ok ()) (h : d.link options = .ok l) (options' : LinkOptions) :
    d.link options' = .ok l := by
  obtain ⟨bound, high, granted, s⟩ := link_eq_ok_iff.1 h
  exact link_eq_ok_iff.2 ⟨bound, high, granted, { s with declared := fun _ => hd }⟩

namespace LinkSteps

variable {options : LinkOptions} {bound high granted : Document} {l : LinkedDocument}

/-- **The later passes keep the bindings of the fields.** -/
theorem beforeHeight (s : LinkSteps options d bound high granted l) :
    l.document.mapEntities Entity.beforeHeight = bound.mapEntities Entity.beforeHeight := by
  -- Each pass is passed over in what the later ones take for granted.
  have hspecs := beforeChains_of_bindSpecs s.specs
  have hgrants := beforeGrants_of_bindGrants s.grants
  have hheights := beforeHeight_of_setHeights s.heights
  rw [beforeHeight_congr (beforeGrants_congr hspecs), beforeHeight_congr hgrants, hheights]

theorem enums (s : LinkSteps options d bound high granted l) : l.document.enums = bound.enums := by
  have h := congrArg Document.enums s.beforeHeight
  rwa [mapEntities_enums, mapEntities_enums] at h

/-- **A linked document differs from its declarations in linked state and numbers only.** -/
theorem unlinked (s : LinkSteps options d bound high granted l) :
    l.document.unlinked = { d with enums := l.document.enums }.unlinked := by
  have hd : d.Placed := checkPlacement_eq_ok_iff.1 s.placement
  rw [unlinked_congr s.beforeHeight, s.enums, unlinked_of_bindFields hd s.fields]

theorem bitfields (s : LinkSteps options d bound high granted l) :
    l.document.bitfields = d.bitfields := by
  have h := congrArg Document.bitfields s.unlinked
  exact h

theorem declared_roles (s : LinkSteps options d bound high granted l) :
    l.document.roles = d.roles := by
  have h := congrArg Document.roles s.unlinked
  exact h

/-- **What does not depend on linked state** is true of the linked entities if it is true of the
declared ones. -/
theorem forall_entities_iff (s : LinkSteps options d bound high granted l) {p : Entity → Prop}
    (hp : ∀ e, p e.unlinked ↔ p e) :
    (∀ e ∈ l.document.entities, p e) ↔ ∀ e ∈ d.entities, p e := by
  have hentities : l.document.entities.map Entity.unlinked = d.entities.map Entity.unlinked :=
    congrArg Document.entities s.unlinked
  have hall : (∀ e ∈ l.document.entities.map Entity.unlinked, p e) ↔
      ∀ e ∈ d.entities.map Entity.unlinked, p e := by
    rw [hentities]
  simpa only [List.forall_mem_map, hp] using hall

end LinkSteps

end Document

end DataModel
