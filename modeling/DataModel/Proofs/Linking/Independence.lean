import DataModel.Linked
import DataModel.Proofs.Linking.Filling
import DataModel.Proofs.Linking.Heights

/-!
# Linking depends on declarations only

Linking a document gives what linking the same document without its linked state gives
(`Document.link_unlinked`), so two documents with the same declarations have the same links
(`Document.link_eq_of_unlinked_eq`): no handle, chain, height or flag that an earlier link left
behind is ever read.

There is one statement for each pass.  A pass reads linked state only where an earlier pass has
written it, so taking back what is written later commutes with the pass, and what the pass itself
writes may be taken back first without effect.
-/

namespace DataModel

/-! ### Placement and declared names -/

theorem Unique.unlinked_dotted (u : Unique) :
    u.unlinked.fields.map Path.dotted = u.fields.map Path.dotted := by
  rw [unlinked, List.map_map]
  rfl

theorem Unique.unlinked_key (u : Unique) : u.unlinked.key = u.key := by
  rw [key, key, sortedNames, sortedNames, unlinked, List.map_map]
  rfl

theorem Unique.checkDeclared_unlinked (seen : List String) (us : List Unique) :
    Unique.checkDeclared seen (us.map Unique.unlinked) = Unique.checkDeclared seen us := by
  induction us generalizing seen with
  | nil => rfl
  | cons u us ih =>
    have hlength : u.unlinked.fields.length = u.fields.length := List.length_map ..
    have hrepeated : u.unlinked.repeatedField? = u.repeatedField? := by
      rw [repeatedField?, unlinked_dotted]
      rfl
    simp only [List.map_cons, checkDeclared, hlength, hrepeated, unlinked_key, ih]

namespace Entity

variable (e : Entity)

theorem checkPlace_unlinked (i : Nat) : e.unlinked.checkPlace i = e.checkPlace i := by
  have hf : (e.unlinked.fields.zipIdx.forM fun p => p.1.checkPlace e.unlinked p.2) =
      e.fields.zipIdx.forM fun p => p.1.checkPlace e p.2 :=
    forM_zipIdx_map_of_eq fun _ _ => rfl
  rw [checkPlace, hf]
  rfl

theorem checkDeclared_unlinked : e.unlinked.checkDeclared = e.checkDeclared := by
  have hfields : e.unlinked.fields.map Field.name = e.fields.map Field.name := by
    rw [unlinked_fields, List.map_map]
    rfl
  have hsearches : e.unlinked.searches.filterMap Search.name = e.searches.filterMap Search.name :=
    List.filterMap_map
  have hupdates : e.unlinked.updates.filterMap Mutation.name = e.updates.filterMap Mutation.name :=
    List.filterMap_map
  have hdeletes : e.unlinked.deletes.filterMap Mutation.name = e.deletes.filterMap Mutation.name :=
    List.filterMap_map
  have huniques : Unique.checkDeclared [] e.unlinked.uniques = Unique.checkDeclared [] e.uniques :=
    Unique.checkDeclared_unlinked [] e.uniques
  have hrowids : e.unlinked.fields.countP (·.flags.rowid) = e.fields.countP (·.flags.rowid) :=
    List.countP_map
  rw [checkDeclared, hfields, hsearches, hupdates, hdeletes, huniques, hrowids]
  rfl

end Entity

namespace Document

variable (d : Document)

theorem checkPlacement_unlinked : d.unlinked.checkPlacement = d.checkPlacement := by
  have hf : (d.unlinked.entities.zipIdx.forM fun p => p.1.checkPlace p.2) =
      d.entities.zipIdx.forM fun p => p.1.checkPlace p.2 :=
    forM_zipIdx_map_of_eq Entity.checkPlace_unlinked
  rw [checkPlacement, hf]
  rfl

variable {d} in
theorem Placed.unlinked (hd : d.Placed) : d.unlinked.Placed := by
  rw [← checkPlacement_eq_ok_iff (u := ()), checkPlacement_unlinked]
  exact checkPlacement_eq_ok_iff.2 hd

theorem checkDeclared_unlinked : d.unlinked.checkDeclared = d.checkDeclared := by
  have hf : (d.unlinked.entities.forM fun e => placed { entity := some e.name } e.checkDeclared) =
      d.entities.forM fun e => placed { entity := some e.name } e.checkDeclared :=
    forM_map_of_eq fun e _ => by rw [Entity.checkDeclared_unlinked, Entity.unlinked_name]
  have hnames : d.unlinked.topLevelNames = d.topLevelNames := by
    rw [topLevelNames, unlinked, mapEntities_entities, List.map_map]
    rfl
  rw [checkDeclared, hf, hnames]
  rfl

end Document

/-! ### Fields -/

namespace Field

variable (d : Document) (e : Entity) (f : Field)

theorem resolveReference_unlinked :
    f.unlinked.resolveReference d.unlinked e.unlinked = f.resolveReference d e := by
  unfold resolveReference
  simp only [unlinked, Document.unlinked, Document.findEntity?_mapEntities d Entity.unlinked_name,
    orFail_map, bind_map_left, Entity.unlinked_field?, Entity.unlinked_name]
  cases f.reference with
  | none => rfl
  | some r => rfl

theorem resolveStruct_unlinked :
    f.unlinked.resolveStruct d.unlinked e.unlinked = f.resolveStruct d e := by
  unfold resolveStruct
  simp only [unlinked, Document.unlinked, Document.findEntity?_mapEntities d Entity.unlinked_name,
    orFail_map, bind_map_left, Entity.unlinked_field?, Entity.unlinked_name]
  cases f.structSource with
  | none => rfl
  | some s => rfl

theorem resolveEnumeration_unlinked :
    f.unlinked.resolveEnumeration d.unlinked = f.resolveEnumeration d := by
  unfold resolveEnumeration
  simp only [unlinked]
  cases f.enumeration with
  | none => rfl
  | some l => rfl

theorem resolveBitfield_unlinked :
    f.unlinked.resolveBitfield d.unlinked = f.resolveBitfield d := by
  unfold resolveBitfield
  simp only [unlinked]
  cases f.bitfield with
  | none => rfl
  | some l => rfl

theorem withBindings_unlinked (r : Option Reference.Binding) (s : Option StructSource.Binding)
    (l : Option (Handle .enumeration)) (b : Option (Handle .bitfield)) :
    f.unlinked.withBindings r s l b = f.withBindings r s l b := by
  simp only [withBindings, unlinked, Option.map_map]
  rfl

/-- Every part of a field that it has is bound anew. -/
theorem bind_unlinked : f.unlinked.bind d.unlinked e.unlinked = f.bind d e := by
  have hsource : f.unlinked.structSource.isNone = f.structSource.isNone := Option.isNone_map
  unfold bind
  rw [resolveReference_unlinked, resolveStruct_unlinked, resolveEnumeration_unlinked,
    resolveBitfield_unlinked, hsource]
  simp only [withBindings_unlinked]
  rfl

end Field

theorem Entity.bindFields_unlinked (d : Document) (e : Entity) :
    e.unlinked.bindFields d.unlinked = beforeHeight <$> e.bindFields d := by
  have hf : (e.unlinked.fields.mapM fun f =>
        placed { entity := some e.unlinked.name, field := some f.name }
          (f.bind d.unlinked e.unlinked)) =
      e.fields.mapM fun f =>
        placed { entity := some e.name, field := some f.name } (f.bind d e) :=
    mapM_map_of_eq fun f _ => by rw [Field.bind_unlinked, Field.unlinked_name, unlinked_name]
  rw [bindFields, bindFields, hf, map_bind]
  rfl

theorem Document.bindFields_unlinked {d : Document} (hd : d.Placed) :
    d.unlinked.bindFields = mapEntities Entity.beforeHeight <$> d.bindFields := by
  rw [bindFields_eq hd, bindFields_eq hd.unlinked]
  simp only [map_bind]
  -- Enumerations and bit-field sets have no linked state of their own.
  refine bind_congr fun enums => bind_congr fun _ => ?_
  have he : (d.unlinked.entities.mapM fun e => e.bindFields { d.unlinked with enums }) =
      List.map Entity.beforeHeight <$> d.entities.mapM fun e => e.bindFields { d with enums } :=
    mapM_map_of_commutes fun e _ => Entity.bindFields_unlinked { d with enums } e
  rw [he, bind_map_left]
  rfl

/-! ### Heights -/

theorem Document.edges_mapEntities (d : Document) {g : Entity → Entity}
    (hg : ∀ e, (g e).fields = e.fields) : (d.mapEntities g).edges = d.edges := by
  have htargets : Entity.targets ∘ g = Entity.targets := by
    funext e
    rw [Function.comp_apply, Entity.targets, Entity.targets, hg]
  rw [edges, edges, mapEntities_entities, List.map_map, htargets]

theorem Document.withHeights_beforeHeight (d : Document) (height : Nat → Nat) :
    (d.mapEntities Entity.beforeHeight).withHeights height =
      (d.withHeights height).mapEntities Entity.beforeGrants := by
  simp only [withHeights, mapEntities, List.zipIdx_map, List.map_map]
  rfl

theorem Document.setHeights_beforeHeight (d : Document) :
    (d.mapEntities Entity.beforeHeight).setHeights =
      mapEntities Entity.beforeGrants <$> d.setHeights := by
  have hc : Heights.compute (d.mapEntities Entity.beforeHeight).edges =
      Heights.compute d.edges := by
    rw [edges_mapEntities d Entity.beforeHeight_fields]
  cases h : Heights.compute d.edges with
  | ok heights =>
    rw [setHeights_of_ok (hc.trans h), setHeights_of_ok h, withHeights_beforeHeight]
    rfl
  | error cycle =>
    -- The names along a cycle are declared.
    have hn (v : Nat) : ((d.mapEntities Entity.beforeHeight).entities[v]?).elim "" Entity.name =
        (d.entities[v]?).elim "" Entity.name := by
      rw [mapEntities_entities, List.getElem?_map]
      cases d.entities[v]? with
      | none => rfl
      | some e => rfl
    rw [setHeights_of_error (hc.trans h), setHeights_of_error h]
    simp only [hn]
    rfl

/-! ### Grants -/

theorem Grant.unlinked_label (g : Grant) : g.unlinked.label = g.label := rfl

/-- The targets of grants are found by declared names. -/
theorem Entity.target?_beforeGrants (e : Entity) (op : Operation) (target : String) :
    e.beforeGrants.target? op target = e.target? op target := by
  have hsearches : e.beforeGrants.searches = e.searches.map Search.unlinked := rfl
  have hupdates : e.beforeGrants.updates = e.updates.map Mutation.unlinked := rfl
  have hdeletes : e.beforeGrants.deletes = e.deletes.map Mutation.unlinked := rfl
  unfold target?
  simp only [hsearches, hupdates, hdeletes, List.findIdx?_map]
  rfl

theorem Grant.bind_unlinked (t : RoleTree) (e : Entity) (g : Grant) :
    g.unlinked.bind t e.beforeGrants = g.bind t e := by
  have ht : g.unlinked.bindTarget e.beforeGrants = g.bindTarget e := by
    simp only [bindTarget, Entity.target?_beforeGrants]
    rfl
  rw [Grant.bind, ht]
  rfl

theorem Entity.bindGrants_beforeGrants (t : RoleTree) (e : Entity) :
    e.beforeGrants.bindGrants t = beforeChains <$> e.bindGrants t := by
  have hg : (e.beforeGrants.rolemap.grants.mapM fun g =>
        placed { entity := some e.beforeGrants.name, spec := some g.label }
          (g.bind t e.beforeGrants)) =
      e.rolemap.grants.mapM fun g =>
        placed { entity := some e.name, spec := some g.label } (g.bind t e) :=
    mapM_map_of_eq fun g _ => by rw [Grant.bind_unlinked, Grant.unlinked_label, beforeGrants_name]
  rw [bindGrants, bindGrants, hg, map_bind]
  rfl

theorem Document.bindGrants_beforeGrants (d : Document) :
    (d.mapEntities Entity.beforeGrants).bindGrants =
      mapEntities Entity.beforeChains <$> d.bindGrants := by
  have he : ((d.mapEntities Entity.beforeGrants).entities.mapM fun e => e.bindGrants d.roles) =
      List.map Entity.beforeChains <$> d.entities.mapM fun e => e.bindGrants d.roles :=
    mapM_map_of_commutes fun e _ => Entity.bindGrants_beforeGrants d.roles e
  rw [bindGrants, bindGrants, mapEntities_roles, he, bind_map_left, map_bind]
  rfl

theorem Document.unusedRoles_beforeChains (d : Document) :
    (d.mapEntities Entity.beforeChains).unusedRoles = d.unusedRoles := by
  rw [unusedRoles, unusedRoles, grantedRoles, mapEntities_entities, List.flatMap_map]
  rfl

/-! ### Specifications -/

namespace Path

variable (d : Document) (owner : Entity) (p : Path)

/-- The chain of a path is found in the fields, whose bindings are in place. -/
theorem walk_beforeChains (text : String) (ending : Ending) (e : Entity) (names : List String) :
    walk (d.mapEntities Entity.beforeChains) text ending e.beforeChains names =
      walk d text ending e names := by
  induction names generalizing e with
  | nil => rfl
  | cons name names ih =>
    have hentity : (d.mapEntities Entity.beforeChains).entity? =
        fun id => (d.entity? id).map Entity.beforeChains := funext (Document.entity?_mapEntities d)
    have hnext (f : Field) : f.next?.bind (d.mapEntities Entity.beforeChains).entity? =
        (f.next?.bind d.entity?).map Entity.beforeChains := by
      rw [hentity, Option.map_bind]
      rfl
    simp only [walk, hnext, orFail_map, bind_map_left, ih]
    rfl

theorem link_beforeChains (ending : Ending) :
    p.unlinked.link (d.mapEntities Entity.beforeChains) owner.beforeChains ending =
      p.link d owner ending := by
  unfold link resolve
  rw [walk_beforeChains]
  rfl

theorem linkLocal_beforeChains :
    p.unlinked.linkLocal (d.mapEntities Entity.beforeChains) owner.beforeChains =
      p.linkLocal d owner := by
  unfold linkLocal
  rw [link_beforeChains]
  rfl

theorem terminalType?_beforeChains :
    p.terminalType? (d.mapEntities Entity.beforeChains) = p.terminalType? d := by
  rw [terminalType?, terminalType?,
    funext (Document.field?_mapEntities d Entity.beforeChains_fields)]

theorem linkCompared_beforeChains (op : Operator) :
    p.unlinked.linkCompared (d.mapEntities Entity.beforeChains) owner.beforeChains op =
      p.linkCompared d owner op := by
  unfold linkCompared
  simp only [link_beforeChains, terminalType?_beforeChains]
  rfl

theorem linkModified_beforeChains (modifier : Modifier) :
    p.unlinked.linkModified (d.mapEntities Entity.beforeChains) owner.beforeChains modifier =
      p.linkModified d owner modifier := by
  unfold linkModified
  simp only [linkLocal_beforeChains, terminalType?_beforeChains]
  rfl

end Path

theorem Search.unlinked_label (s : Search) : s.unlinked.label = s.label := by
  simp only [label, unlinked, List.map_map]
  rfl

theorem Mutation.unlinked_label (m : Mutation) : m.unlinked.label = m.label := by
  simp only [label, unlinked, List.map_map, List.isEmpty_map]
  rfl

variable (d : Document) (owner : Entity)

theorem Search.asksForKey_beforeChains :
    asksForKey (d.mapEntities Entity.beforeChains) = asksForKey d := by
  funext p
  rw [asksForKey, asksForKey, funext (Document.field?_mapEntities d Entity.beforeChains_fields)]

/-- The parts of a search have their paths linked anew. -/
theorem Search.link_beforeChains (s : Search) :
    s.unlinked.link (d.mapEntities Entity.beforeChains) owner.beforeChains = s.link d owner := by
  have hparam (p : SearchParam) := p.path.linkCompared_beforeChains d owner p.op
  have horder (o : SortOrder) := o.path.link_beforeChains d owner .value
  have hpath (a : Aggregate) := a.path.link_beforeChains d owner .value
  have hgroup (a : Aggregate) := a.group.link_beforeChains d owner .value
  have hdistinct (x : Distinct) := x.path.link_beforeChains d owner .entity
  unfold link
  simp only [unlinked]
  -- The flag is computed from the new chains of the parameters.
  rw [mapM_map_of_eq fun p _ => by rw [SearchParam.unlinked, hparam],
    mapM_map_of_eq fun o _ => by rw [SortOrder.unlinked, horder],
    option_mapM_map_of_eq fun a => by rw [Aggregate.unlinked, hpath, hgroup],
    option_mapM_map_of_eq fun x => by rw [Distinct.unlinked, hdistinct], asksForKey_beforeChains]

theorem Mutation.link_beforeChains (m : Mutation) :
    m.unlinked.link (d.mapEntities Entity.beforeChains) owner.beforeChains = m.link d owner := by
  have hmodify (f : Modification) := f.path.linkModified_beforeChains d owner f.modifier
  have hconstrain (c : RowConstraint) := c.path.linkCompared_beforeChains d owner c.op
  unfold link
  simp only [unlinked, List.isEmpty_map]
  rw [mapM_map_of_eq fun f _ => by rw [Modification.unlinked, hmodify],
    mapM_map_of_eq fun c _ => by rw [RowConstraint.unlinked, hconstrain]]

theorem Unique.link_beforeChains (u : Unique) :
    u.unlinked.link (d.mapEntities Entity.beforeChains) owner.beforeChains = u.link d owner := by
  have hf : (u.unlinked.fields.mapM fun p =>
        p.linkLocal (d.mapEntities Entity.beforeChains) owner.beforeChains) =
      u.fields.mapM fun p => p.linkLocal d owner :=
    mapM_map_of_eq fun p _ => p.linkLocal_beforeChains d owner
  rw [link, link, hf]

theorem Entity.bindSpecs_beforeChains (e : Entity) :
    e.beforeChains.bindSpecs (d.mapEntities beforeChains) = e.bindSpecs d := by
  have hsearches : e.beforeChains.searches = e.searches.map Search.unlinked := rfl
  have hupdates : e.beforeChains.updates = e.updates.map Mutation.unlinked := rfl
  have hdeletes : e.beforeChains.deletes = e.deletes.map Mutation.unlinked := rfl
  have huniques : e.beforeChains.uniques = e.uniques.map Unique.unlinked := rfl
  have hmutation (m : Mutation) := m.link_beforeChains d e
  unfold bindSpecs
  simp only [hsearches, hupdates, hdeletes, huniques]
  rw [mapM_map_of_eq fun s _ => by rw [Search.unlinked_label, s.link_beforeChains],
    mapM_map_of_eq fun u _ => by rw [Mutation.unlinked_label, hmutation],
    mapM_map_of_eq fun u _ => by rw [Mutation.unlinked_label, hmutation],
    mapM_map_of_eq fun u _ => by rw [Unique.unlinked_key, u.link_beforeChains]]
  rfl

theorem Document.bindSpecs_beforeChains :
    (d.mapEntities Entity.beforeChains).bindSpecs = d.bindSpecs := by
  have he : ((d.mapEntities Entity.beforeChains).entities.mapM fun e =>
        e.bindSpecs (d.mapEntities Entity.beforeChains)) =
      d.entities.mapM fun e => e.bindSpecs d :=
    mapM_map_of_eq fun e _ => e.bindSpecs_beforeChains d
  rw [bindSpecs, bindSpecs, he]
  rfl

/-! ### The link -/

namespace Document

theorem bindUpToRoles_unlinked (options : LinkOptions) :
    d.unlinked.bindUpToRoles options =
      mapEntities Entity.beforeGrants <$> d.bindUpToRoles options := by
  have hroles (d : Document) : (d.mapEntities Entity.beforeGrants).roles = d.roles := rfl
  unfold bindUpToRoles
  rw [checkPlacement_unlinked, checkDeclared_unlinked]
  cases hp : d.checkPlacement with
  | error err => rfl
  | ok u =>
    -- The fields are bound in documents whose handles are places only.
    have hd : d.Placed := checkPlacement_eq_ok_iff.1 hp
    simp only [bindFields_unlinked hd, inPass_map, bind_map_left, setHeights_beforeHeight, hroles,
      map_bind, map_pure]

/-- **Taking the linked state back first does not change the link.** -/
theorem link_unlinked (options : LinkOptions) : d.unlinked.link options = d.link options := by
  unfold link
  simp only [bindUpToRoles_unlinked, bind_map_left, bindGrants_beforeGrants, inPass_map,
    unusedRoles_beforeChains, bindSpecs_beforeChains]

/-- **Linking depends on declarations only.**  Two documents that agree on everything but linked
state have the same link: the same linked document, or the same error at the same place. -/
theorem link_eq_of_unlinked_eq {d d' : Document} (h : d.unlinked = d'.unlinked)
    (options : LinkOptions) : d.link options = d'.link options := by
  rw [← link_unlinked d, ← link_unlinked d', h]

/-- The sessions link as if nothing stale was in them.  The entities get their heights, and they are
linked in neither of the two documents before. -/
theorem link_sessions_stale :
    sessions true ≠ sessions false ∧ (sessions true).link .trusted = (sessions false).link .trusted ∧
      ∃ l, (sessions true).link .trusted = .ok l ∧ l.document.entities.map Entity.height = [0, 1] ∧
        ∀ stale, l.document.entities ≠ (sessions stale).entities := by
  refine ⟨by decide +kernel, link_eq_of_unlinked_eq (by decide +kernel) .trusted, ?_⟩
  obtain ⟨l, h, hparts⟩ := exists_ok_of_any (r := (sessions true).link .trusted)
    (p := fun l => decide (l.document.entities.map Entity.height = [0, 1] ∧
      ∀ stale, l.document.entities ≠ (sessions stale).entities))
    (by decide +kernel)
  exact ⟨l, h, of_decide_eq_true hparts⟩

end Document

end DataModel
