import DataModel.Proofs.Linking.Authorisation
import DataModel.Proofs.Linking.DeclaredNames
import DataModel.Proofs.Linking.Renaming
import Mathlib.Logic.Equiv.Basic

/-!
# The order of the entities

`Document.link_rearranged`: with the names checked, the order in which entities are declared does
not matter to linking.  If the entities of a document are put into another order, and their handles
are renamed to their new places (`Document.Rearranged`), the one document links exactly if the other
does, and the linked documents differ by the same renaming.

An entity is found by its handle or by its name, and both tell the entities of a checked document
apart (`Document.ToldApart`), so that the look-ups of the two documents correspond
(`Document.Rearranged.renamed`) and each pass over the entities takes the one order to the other.
The one pass that walks from entity to entity is the computation of the heights, which starts its
walk elsewhere in the other order.  Its result depends on the references alone, because a graph has
one height (`Heights.IsHeight.unique`).
-/

namespace DataModel

/-- A graph has one height at most. -/
theorem Heights.IsHeight.unique {edges : Edges} {height height' : Nat → Nat}
    (h : IsHeight edges height) (h' : IsHeight edges height') : height = height' :=
  funext fun v => (h.isGreatest_chain v).unique (h'.isGreatest_chain v)

/-- Where keys are not repeated, the member of a key is found wherever it stands. -/
theorem find?_eq_some_iff_of_nodup {α κ : Type} {key : α → κ} {k : κ} {p : α → Bool} {as : List α}
    {a : α} (hn : (as.map key).Nodup) (hp : ∀ a, p a = true ↔ key a = k) :
    as.find? p = some a ↔ a ∈ as ∧ key a = k := by
  constructor
  · intro h
    exact ⟨List.mem_of_find?_eq_some h, (hp a).1 (List.find?_some h)⟩
  · rintro ⟨ha, hk⟩
    cases hfind : as.find? p with
    | none => exact absurd ((hp a).2 hk) (List.find?_eq_none.1 hfind a ha)
    | some b =>
      have hb := List.mem_of_find?_eq_some hfind
      have hkb := (hp b).1 (List.find?_some hfind)
      rw [List.inj_on_of_nodup_map hn hb ha (hkb.trans hk.symm)]

/-- Names are admitted in any order. -/
theorem Scope.checkDeclared_perm {scope : Scope} {names names' : List String}
    (hp : names'.Perm names) (h : scope.checkDeclared [] names = .ok ()) :
    scope.checkDeclared [] names' = .ok () := by
  obtain ⟨hfree, hnodup, hnew⟩ := Scope.checkDeclared_eq_ok_iff.1 h
  refine Scope.checkDeclared_eq_ok_iff.2 ⟨?_, ?_, ?_⟩
  · exact fun name hname => hfree name (hp.mem_iff.1 hname)
  · exact (hp.map Ident.fold).nodup_iff.2 hnodup
  · exact fun name hname => hnew name (hp.mem_iff.1 hname)

namespace Document

/-! ### Documents whose entities are told apart -/

/-- The entities are told apart by their handles, which are their places, and by their names. -/
structure ToldApart (d : Document) : Prop where
  place : ∀ (i : Nat) (e : Entity), d.entities[i]? = some e → e.id.index = i
  names : (d.entities.map fun e => Ident.fold e.name).Nodup

section

variable {d : Document} (hd : d.ToldApart)

include hd

theorem ToldApart.entity?_eq_some_iff {id : Handle .entity} {e : Entity} :
    d.entity? id = some e ↔ e ∈ d.entities ∧ e.id = id := by
  constructor
  · intro h
    exact ⟨List.mem_of_getElem? h, Handle.ext (hd.place id.index e h)⟩
  · rintro ⟨he, rfl⟩
    obtain ⟨i, hi⟩ := List.mem_iff_getElem?.1 he
    rw [entity?, hd.place i e hi, hi]

theorem ToldApart.findEntity?_eq_some_iff {name : String} {e : Entity} :
    d.findEntity? name = some e ↔ e ∈ d.entities ∧ Ident.fold e.name = Ident.fold name :=
  find?_eq_some_iff_of_nodup hd.names fun _ => Ident.same_iff

/-- Handles and names are declared. -/
theorem ToldApart.of_unlinked {d' : Document}
    (h : d'.entities.map Entity.unlinked = d.entities.map Entity.unlinked) : d'.ToldApart := by
  constructor
  · intro i e' he'
    have hat := congrArg (fun es : List Entity => es[i]?) h
    simp only [List.getElem?_map, he', Option.map_some] at hat
    obtain ⟨e, he, hsame⟩ := Option.map_eq_some_iff.1 hat.symm
    have hid : e'.id = e.id := (congrArg Entity.id hsame).symm
    rw [hid, hd.place i e he]
  · have hnames := congrArg (List.map fun e : Entity => Ident.fold e.name) h
    rw [List.map_map, List.map_map] at hnames
    have hnodup := hd.names
    rwa [show d.entities.map (fun e => Ident.fold e.name) =
      d'.entities.map (fun e => Ident.fold e.name) from hnames.symm] at hnodup

/-- No pass changes handles or names. -/
theorem ToldApart.bindFields {d' : Document} (hplaced : d.Placed) (h : d.bindFields = .ok d') :
    d'.ToldApart :=
  hd.of_unlinked (congrArg Document.entities (unlinked_of_bindFields hplaced h))

theorem ToldApart.setHeights {d' : Document} (h : d.setHeights = .ok d') : d'.ToldApart :=
  hd.of_unlinked (congrArg Document.entities (unlinked_congr (beforeHeight_of_setHeights h)))

theorem ToldApart.bindGrants {d' : Document} (h : d.bindGrants = .ok d') : d'.ToldApart :=
  hd.of_unlinked (congrArg Document.entities
    (unlinked_congr (beforeHeight_congr (beforeGrants_of_bindGrants h))))

theorem ToldApart.bindSpecs {d' : Document} (h : d.bindSpecs = .ok d') : d'.ToldApart :=
  hd.of_unlinked (congrArg Document.entities
    (unlinked_congr (beforeHeight_congr (beforeGrants_congr (beforeChains_of_bindSpecs h)))))

end

/-- The names of a checked document tell its entities apart. -/
theorem Placed.toldApart {d : Document} (hd : d.Placed) (h : d.checkDeclared = .ok ()) :
    d.ToldApart := by
  obtain ⟨hnames, _⟩ := checkDeclared_eq_ok_iff.1 h
  have hnodup := (Scope.checkDeclared_eq_ok_iff.1 hnames).2.1
  rw [topLevelNames, List.append_assoc, List.map_append, List.map_map] at hnodup
  exact ⟨hd.entity, hnodup.of_append_left⟩

/-! ### Another order -/

/-- The second document is the first one with its entities in another order, and with every handle
of an entity renamed. -/
structure Rearranged (σ : Equiv.Perm (Handle .entity)) (d d' : Document) : Prop where
  entities : d'.entities.Perm (d.entities.map (Entity.rename σ))
  enums : d'.enums = d.enums
  bitfields : d'.bitfields = d.bitfields
  roles : d'.roles = d.roles
  languages : d'.languages = d.languages
  sourceFiles : d'.sourceFiles = d.sourceFiles

variable {σ : Equiv.Perm (Handle .entity)} {d d' : Document}

/-- The first order is another order of the second one. -/
theorem Rearranged.symm (h : d.Rearranged σ d') : d'.Rearranged σ.symm d := by
  refine ⟨?_, h.enums.symm, h.bitfields.symm, h.roles.symm, h.languages.symm, h.sourceFiles.symm⟩
  have hback := h.entities.map (Entity.rename σ.symm)
  rw [List.map_map] at hback
  have hid : Entity.rename σ.symm ∘ Entity.rename σ = id := funext (Entity.rename_symm σ)
  rw [hid, List.map_id] at hback
  exact hback.symm

theorem Rearranged.mem_iff (h : d.Rearranged σ d') {e' : Entity} :
    e' ∈ d'.entities ↔ ∃ e ∈ d.entities, e.rename σ = e' := by
  rw [h.entities.mem_iff, List.mem_map]

/-- **The look-ups of the two orders correspond.** -/
theorem Rearranged.renamed (h : d.Rearranged σ d') (hd : d.ToldApart) (hd' : d'.ToldApart) :
    d.Renamed σ d' := by
  refine ⟨fun id => Option.ext fun e' => ?_, fun name => Option.ext fun e' => ?_, h.enums,
    h.bitfields⟩
  · rw [hd'.entity?_eq_some_iff, h.mem_iff, Option.map_eq_some_iff]
    constructor
    · rintro ⟨⟨e, he, rfl⟩, hid⟩
      exact ⟨e, hd.entity?_eq_some_iff.2 ⟨he, σ.injective hid⟩, rfl⟩
    · rintro ⟨e, he, rfl⟩
      obtain ⟨hmem, rfl⟩ := hd.entity?_eq_some_iff.1 he
      exact ⟨⟨e, hmem, rfl⟩, rfl⟩
  · rw [hd'.findEntity?_eq_some_iff, h.mem_iff, Option.map_eq_some_iff]
    constructor
    · rintro ⟨⟨e, he, rfl⟩, hname⟩
      exact ⟨e, hd.findEntity?_eq_some_iff.2 ⟨he, hname⟩, rfl⟩
    · rintro ⟨e, he, rfl⟩
      obtain ⟨hmem, hname⟩ := hd.findEntity?_eq_some_iff.1 he
      exact ⟨⟨e, hmem, rfl⟩, hname⟩

/-! ### Declarations -/

/-- The declarations are admitted in any order. -/
theorem Rearranged.checkDeclared (h : d.Rearranged σ d') (hd : d.checkDeclared = .ok ()) :
    d'.checkDeclared = .ok () := by
  obtain ⟨hnames, hentities, henums, hbitfields⟩ := checkDeclared_eq_ok_iff.1 hd
  refine checkDeclared_eq_ok_iff.2 ⟨?_, ?_, ?_, ?_⟩
  · refine Scope.checkDeclared_perm ?_ hnames
    have hmap := h.entities.map Entity.name
    rw [List.map_map] at hmap
    rw [topLevelNames, topLevelNames, h.enums, h.bitfields]
    exact (hmap.append_right _).append_right _
  · intro e' he'
    obtain ⟨e, he, rfl⟩ := h.mem_iff.1 he'
    rw [Entity.checkDeclared_rename, hentities e he]
  · rwa [h.enums]
  · rwa [h.bitfields]

/-! ### Fields -/

/-- **The fields are bound in any order of the entities.** -/
theorem Rearranged.bindFields {bound : Document} (h : d.Rearranged σ d') (hd : d.Placed)
    (hd' : d'.Placed) (ha : d.ToldApart) (ha' : d'.ToldApart) (hb : d.bindFields = .ok bound) :
    ∃ bound', d'.bindFields = .ok bound' ∧ bound.Rearranged σ bound' := by
  obtain ⟨enums, henums, hchecked, entities, hentities, rfl⟩ := (bindFields_eq_ok_iff hd).1 hb
  have hren : ({ d with enums } : Document).Renamed σ { d' with enums } := by
    have hr := h.renamed ha ha'
    exact ⟨hr.entity?, hr.findEntity?, rfl, hr.bitfields⟩
  obtain ⟨entities', hentities', hperm⟩ := mapM_perm_of_ok h.entities
    (fun e _ e' he => Entity.bindFields_rename hren he) hentities
  refine ⟨{ d' with enums, entities := entities' }, ?_, ?_⟩
  · refine (bindFields_eq_ok_iff hd').2 ⟨enums, ?_, ?_, entities', hentities', rfl⟩
    · rwa [h.enums]
    · rwa [h.bitfields]
  · exact ⟨hperm, rfl, h.bitfields, h.roles, h.languages, h.sourceFiles⟩

/-! ### Heights -/

/-- The place that the entity at a place has in the other order. -/
def movedTo (σ : Equiv.Perm (Handle .entity)) (v : Nat) : Nat :=
  (Handle.ofIndex? v).elim v fun id => (σ id).index

theorem movedTo_index (id : Handle .entity) : movedTo σ id.index = (σ id).index := by
  rw [movedTo, Handle.ofIndex?_index]
  rfl

theorem movedTo_symm (v : Nat) : movedTo σ (movedTo σ.symm v) = v := by
  cases hv : (Handle.ofIndex? v : Option (Handle .entity)) with
  | none =>
    have hback : movedTo σ.symm v = v := by rw [movedTo, hv]; rfl
    rw [hback, movedTo, hv]
    rfl
  | some id =>
    obtain rfl := Handle.ofIndex?_eq_some_iff.1 hv
    rw [movedTo_index, movedTo_index, Equiv.apply_symm_apply]

/-- **References lead to the same entities in the other order.** -/
theorem Rearranged.refers (h : d.Rearranged σ d') (hd : d.ToldApart) (hd' : d'.ToldApart)
    {v w : Nat} (hvw : d.Refers v w) : d'.Refers (movedTo σ v) (movedTo σ w) := by
  obtain ⟨e, he, f, hf, r, hr, b, hb, rfl⟩ := hvw
  obtain rfl := hd.place v e he
  have he' : d'.entity? (σ e.id) = some (e.rename σ) :=
    hd'.entity?_eq_some_iff.2 ⟨h.mem_iff.2 ⟨e, List.mem_of_getElem? he, rfl⟩, rfl⟩
  rw [movedTo_index, movedTo_index]
  refine ⟨e.rename σ, he', f.rename σ, List.mem_map_of_mem hf, r.rename σ, ?_, b.rename σ, ?_, rfl⟩
  · rw [Field.rename, Option.mem_def.1 hr]
    rfl
  · rw [Reference.rename, Option.mem_def.1 hb]
    rfl

/-- The heights of the one order, moved, are heights of the other. -/
theorem Rearranged.isHeight (h : d.Rearranged σ d') (hd : d.ToldApart) (hd' : d'.ToldApart)
    {height : Nat → Nat} (hheight : Heights.IsHeight d.edges height) :
    Heights.IsHeight d'.edges (height ∘ movedTo σ.symm) := by
  constructor
  · intro v t ht
    have hback := h.symm.refers hd' hd (mem_edges_iff.1 ht)
    exact hheight.lt _ _ (mem_edges_iff.2 hback)
  · intro v hv
    obtain ⟨t, ht, heq⟩ := hheight.attained _ hv
    have hthere := h.refers hd hd' (mem_edges_iff.1 ht)
    rw [movedTo_symm] at hthere
    refine ⟨movedTo σ t, mem_edges_iff.2 hthere, ?_⟩
    have hback : movedTo σ.symm (movedTo σ t) = t := movedTo_symm (σ := σ.symm) t
    rw [Function.comp_apply, Function.comp_apply, hback, heq]

/-- Where handles are places, an entity gets the height of its handle. -/
theorem ToldApart.withHeights_eq (hd : d.ToldApart) (height : Nat → Nat) :
    d.withHeights height = d.mapEntities fun e => { e with height := height e.id.index } := by
  have hentities : (d.entities.zipIdx.map fun p => { p.1 with height := height p.2 }) =
      d.entities.map fun e => { e with height := height e.id.index } := by
    apply List.ext_getElem?
    intro i
    rw [List.getElem?_map, List.getElem?_map, List.getElem?_zipIdx]
    cases he : d.entities[i]? with
    | none => rfl
    | some e => simp only [Option.map_some, hd.place i e he, Nat.zero_add]
  rw [withHeights, mapEntities, hentities]

/-- The entities of the other order get the heights that were moved to their places. -/
theorem Rearranged.withHeights (h : d.Rearranged σ d') (hd : d.ToldApart) (hd' : d'.ToldApart)
    (height : Nat → Nat) :
    (d.withHeights height).Rearranged σ (d'.withHeights (height ∘ movedTo σ.symm)) := by
  rw [hd.withHeights_eq, hd'.withHeights_eq]
  refine ⟨?_, h.enums, h.bitfields, h.roles, h.languages, h.sourceFiles⟩
  have hmap := h.entities.map fun e =>
    { e with height := (height ∘ movedTo σ.symm) e.id.index }
  rw [List.map_map] at hmap
  -- The height of a renamed entity is looked up at the place that it was moved from.
  have hsame (e : Entity) :
      ({ e.rename σ with height := (height ∘ movedTo σ.symm) (σ e.id).index } : Entity) =
        ({ e with height := height e.id.index } : Entity).rename σ := by
    rw [Function.comp_apply, movedTo_index, Equiv.symm_apply_apply]
    rfl
  show List.Perm _ ((d.entities.map fun e => { e with height := height e.id.index }).map _)
  rw [List.map_map]
  exact hmap.trans (.of_eq (List.map_congr_left fun e _ => hsame e))

/-- **Corresponding entities have equal heights**, wherever the walk begins. -/
theorem Rearranged.setHeights {high : Document} (h : d.Rearranged σ d') (hd : d.ToldApart)
    (hd' : d'.ToldApart) (hb : d.ReferencesBound) (hb' : d'.ReferencesBound)
    (hh : d.setHeights = .ok high) :
    ∃ high', d'.setHeights = .ok high' ∧ high.Rearranged σ high' := by
  rcases setHeights_spec hb with ⟨height, hok, hheight⟩ | ⟨_, names, herr, _⟩
  · obtain rfl := Except.ok.inj (hok.symm.trans hh)
    have hmoved := h.isHeight hd hd' hheight
    rcases setHeights_spec hb' with ⟨height', hok', hheight'⟩ | ⟨_, _, _, hcycle, _⟩
    · obtain rfl := hheight'.unique hmoved
      exact ⟨_, hok', h.withHeights hd hd' height⟩
    · -- A graph with heights has no cycle.
      obtain ⟨v, hv⟩ := hcycle.transGen
      exact absurd hv (hmoved.acyclic v)
  · rw [herr] at hh
    exact absurd hh fail_ne_ok

/-! ### Grants and specifications -/

/-- **The grants are bound in any order of the entities.** -/
theorem Rearranged.bindGrants {granted : Document} (h : d.Rearranged σ d')
    (hg : d.bindGrants = .ok granted) :
    ∃ granted', d'.bindGrants = .ok granted' ∧ granted.Rearranged σ granted' := by
  obtain ⟨entities, hentities, hput⟩ := bind_eq_ok.1 hg
  obtain rfl := pure_eq_ok.1 hput
  obtain ⟨entities', hentities', hperm⟩ := mapM_perm_of_ok h.entities
    (fun e _ e' he => Entity.bindGrants_rename he) hentities
  refine ⟨{ d' with entities := entities' }, ?_, ?_⟩
  · rw [Document.bindGrants, h.roles]
    exact bind_eq_ok.2 ⟨entities', hentities', rfl⟩
  · exact ⟨hperm, h.enums, h.bitfields, h.roles, h.languages, h.sourceFiles⟩

/-- The same roles are left over. -/
theorem Rearranged.unusedRoles (h : d.Rearranged σ d') : d'.unusedRoles = d.unusedRoles := by
  have hgranted (id : Handle .role) : id ∈ d'.grantedRoles ↔ id ∈ d.grantedRoles := by
    rw [mem_grantedRoles_iff, mem_grantedRoles_iff]
    constructor
    · rintro ⟨e', he', hg⟩
      obtain ⟨e, he, rfl⟩ := h.mem_iff.1 he'
      exact ⟨e, he, hg⟩
    · rintro ⟨e, he, hg⟩
      exact ⟨e.rename σ, h.mem_iff.2 ⟨e, he, rfl⟩, hg⟩
  rw [Document.unusedRoles, Document.unusedRoles, h.roles, RoleTree.unused, RoleTree.unused]
  refine List.filter_congr fun id _ => ?_
  rw [List.contains_eq_mem, List.contains_eq_mem, decide_eq_decide.2 (hgranted id)]

/-- **The specifications are linked in any order of the entities.** -/
theorem Rearranged.bindSpecs {linked : Document} (h : d.Rearranged σ d') (hd : d.ToldApart)
    (hd' : d'.ToldApart) (hs : d.bindSpecs = .ok linked) :
    ∃ linked', d'.bindSpecs = .ok linked' ∧ linked.Rearranged σ linked' := by
  obtain ⟨entities, hentities, hput⟩ := bind_eq_ok.1 hs
  obtain rfl := pure_eq_ok.1 hput
  obtain ⟨entities', hentities', hperm⟩ := mapM_perm_of_ok h.entities
    (fun e _ e' he => Entity.bindSpecs_rename (h.renamed hd hd') he) hentities
  refine ⟨{ d' with entities := entities' }, ?_, ?_⟩
  · exact bind_eq_ok.2 ⟨entities', hentities', rfl⟩
  · exact ⟨hperm, h.enums, h.bitfields, h.roles, h.languages, h.sourceFiles⟩

end Document

/-- The second linked document is the first one with its entities in another order: the entity of a
renamed handle is the renamed entity, with its height, its bindings and its flags. -/
structure LinkedDocument.Rearranged (σ : Equiv.Perm (Handle .entity)) (l l' : LinkedDocument) :
    Prop where
  document : l.document.Rearranged σ l'.document
  entity? : ∀ id, l'.document.entity? (σ id) = (l.document.entity? id).map (Entity.rename σ)
  unusedRoles : l'.unusedRoles = l.unusedRoles

namespace Document

variable {σ : Equiv.Perm (Handle .entity)} {d d' : Document} {options : LinkOptions}
  {l : LinkedDocument}

/-- A document that links does so in any order of its entities. -/
theorem Rearranged.exists_link (h : d.Rearranged σ d') (hd' : d'.Placed)
    (hr : options.recheck = true) (hl : d.link options = .ok l) :
    ∃ l', d'.link options = .ok l' ∧ l.Rearranged σ l' := by
  obtain ⟨bound, high, granted, s⟩ := link_eq_ok_iff.1 hl
  have hd : d.Placed := checkPlacement_eq_ok_iff.1 s.placement
  have hchecked := s.declared hr
  have hchecked' := h.checkDeclared hchecked
  have ha := hd.toldApart hchecked
  have ha' := hd'.toldApart hchecked'
  obtain ⟨bound', hbound', hb⟩ := h.bindFields hd hd' ha ha' s.fields
  have ha₁ := ha.bindFields hd s.fields
  have ha₁' := ha'.bindFields hd' hbound'
  obtain ⟨high', hhigh', hh⟩ := hb.setHeights ha₁ ha₁' (referencesBound_of_bindFields hd s.fields)
    (referencesBound_of_bindFields hd' hbound') s.heights
  obtain ⟨granted', hgranted', hg⟩ := hh.bindGrants s.grants
  have ha₂ := (ha₁.setHeights s.heights).bindGrants s.grants
  have ha₂' := (ha₁'.setHeights hhigh').bindGrants hgranted'
  obtain ⟨linked', hlinked', hs⟩ := hg.bindSpecs ha₂ ha₂' s.specs
  refine ⟨⟨linked', linked'.byHeight, granted'.unusedRoles⟩, ?_, hs, ?_, ?_⟩
  · refine link_eq_ok_iff.2 ⟨bound', high', granted', checkPlacement_eq_ok_iff.2 hd',
      fun _ => hchecked', hbound', hhigh', ?_, hgranted', hlinked', rfl, rfl⟩
    rw [hh.roles]
    exact s.roles
  · exact (hs.renamed (ha₂.bindSpecs s.specs) (ha₂'.bindSpecs hlinked')).entity?
  · rw [s.unused]
    exact hg.unusedRoles

/-- **The order of the entities does not matter.** -/
theorem link_rearranged (hd : d.Placed) (hd' : d'.Placed) (h : d.Rearranged σ d')
    (hr : options.recheck = true) :
    ((∃ l, d.link options = .ok l) ↔ ∃ l', d'.link options = .ok l') ∧
      ∀ l l', d.link options = .ok l → d'.link options = .ok l' → l.Rearranged σ l' := by
  refine ⟨⟨?_, ?_⟩, ?_⟩
  · rintro ⟨l, hl⟩
    obtain ⟨l', hl', _⟩ := h.exists_link hd' hr hl
    exact ⟨l', hl'⟩
  · rintro ⟨l', hl'⟩
    obtain ⟨l, hl, _⟩ := h.symm.exists_link hd hr hl'
    exact ⟨l, hl⟩
  · intro l l' hl hl'
    obtain ⟨l'', hl'', hrearranged⟩ := h.exists_link hd' hr hl
    obtain rfl := Except.ok.inj (hl'.symm.trans hl'')
    exact hrearranged

/-- The first entity and the third one change places. -/
def firstAndThird : Equiv.Perm (Handle .entity) :=
  Equiv.swap ⟨0, Handle.bound_pos⟩ ⟨2, by decide⟩

/-- Three entities in a row, declared from the last one to the first. -/
def threeBackwards : Document :=
  { threeInARow false with
    entities := ((threeInARow false).entities.map (Entity.rename firstAndThird)).reverse }

/-- References that led forward lead backward, to the same entities with the same heights. -/
theorem link_rearranged_threeBackwards :
    ∃ l l', (threeInARow false).link .strict = .ok l ∧ threeBackwards.link .strict = .ok l' ∧
      l.document.entities.map (fun e => (e.name, e.height)) = [("a", 2), ("b", 1), ("c", 0)] ∧
      l'.document.entities.map (fun e => (e.name, e.height)) = [("c", 0), ("b", 1), ("a", 2)] ∧
      l.Rearranged firstAndThird l' := by
  obtain ⟨l, hl, hheights⟩ := exists_ok_of_any (r := (threeInARow false).link .trusted)
    (p := fun l => decide (l.document.entities.map (fun e => (e.name, e.height)) =
      [("a", 2), ("b", 1), ("c", 0)])) (by decide +kernel)
  obtain ⟨l', hl', hheights'⟩ := exists_ok_of_any (r := threeBackwards.link .trusted)
    (p := fun l => decide (l.document.entities.map (fun e => (e.name, e.height)) =
      [("c", 0), ("b", 1), ("a", 2)])) (by decide +kernel)
  have hplaced : (threeInARow false).Placed :=
    checkPlacement_eq_ok_iff (u := ()) |>.1 (by decide +kernel)
  have hplaced' : threeBackwards.Placed :=
    checkPlacement_eq_ok_iff (u := ()) |>.1 (by decide +kernel)
  have h : (threeInARow false).Rearranged firstAndThird threeBackwards :=
    ⟨List.reverse_perm _, rfl, rfl, rfl, rfl, rfl⟩
  have hchecked : (threeInARow false).checkDeclared = .ok () := by decide +kernel
  have hlink := link_of_checkDeclared hchecked hl .strict
  have hlink' := link_of_checkDeclared (h.checkDeclared hchecked) hl' .strict
  exact ⟨l, l', hlink, hlink', of_decide_eq_true hheights, of_decide_eq_true hheights',
    (link_rearranged hplaced hplaced' h rfl).2 l l' hlink hlink'⟩

end Document

end DataModel
