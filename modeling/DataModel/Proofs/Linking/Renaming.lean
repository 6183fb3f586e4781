import DataModel.Proofs.Linking.BoundPaths
import Mathlib.Logic.Equiv.Defs

/-!
# Renaming the entities

`Entity.rename σ` is an entity with every handle that leads into an entity renamed by `σ`: its own,
those of its fields, and all that linking has bound.  What was declared by name is kept, and so are
the handles of enumerations, bit-field sets and roles.

Linking finds declarations by their names, so it does not see the renaming.  In two documents whose
look-ups correspond (`Document.Renamed`) a step of linking that succeeds in the one succeeds in the
other, on the renamed entity and with the renamed result: the fields (`Entity.bindFields_rename`),
the grants (`Entity.bindGrants_rename`) and the specifications (`Entity.bindSpecs_rename`).
-/

namespace DataModel

section

variable (σ : Equiv.Perm (Handle .entity))

/-! ### Renaming -/

def FieldId.rename (id : FieldId) : FieldId := { id with entity := σ id.entity }

def Reference.Binding.rename (b : Reference.Binding) : Reference.Binding :=
  ⟨b.target.rename σ, b.source.rename σ⟩

def Reference.rename (r : Reference) : Reference :=
  { r with binding := r.binding.map (Binding.rename σ) }

def StructSource.Binding.rename (b : StructSource.Binding) : StructSource.Binding :=
  ⟨b.field.rename σ, σ b.entity⟩

def StructSource.rename (s : StructSource) : StructSource :=
  { s with binding := s.binding.map (Binding.rename σ) }

/-- The field with its handle renamed, and those of its bindings that lead into an entity. -/
def Field.rename (f : Field) : Field :=
  { f with
    id := f.id.rename σ
    reference := f.reference.map (Reference.rename σ)
    structSource := f.structSource.map (StructSource.rename σ) }

/-- The path with its chain renamed. -/
def Path.rename (p : Path) : Path := { p with chain := p.chain.map (FieldId.rename σ) }

def SearchParam.rename (p : SearchParam) : SearchParam := { p with path := p.path.rename σ }

def SortOrder.rename (o : SortOrder) : SortOrder := { o with path := o.path.rename σ }

def Aggregate.rename (a : Aggregate) : Aggregate :=
  { a with path := a.path.rename σ, group := a.group.rename σ }

def Distinct.rename (x : Distinct) : Distinct := { x with path := x.path.rename σ }

/-- The search with the chains of its paths renamed. -/
def Search.rename (s : Search) : Search :=
  { s with
    params := s.params.map (SearchParam.rename σ)
    orders := s.orders.map (SortOrder.rename σ)
    aggregate := s.aggregate.map (Aggregate.rename σ)
    distinct := s.distinct.map (Distinct.rename σ) }

def Modification.rename (m : Modification) : Modification := { m with path := m.path.rename σ }

def RowConstraint.rename (c : RowConstraint) : RowConstraint := { c with path := c.path.rename σ }

/-- The mutation with the chains of its paths renamed. -/
def Mutation.rename (m : Mutation) : Mutation :=
  { m with
    modify := m.modify.map (Modification.rename σ)
    constrain := m.constrain.map (RowConstraint.rename σ) }

/-- The unique constraint with the chains of its paths renamed. -/
def Unique.rename (u : Unique) : Unique := { u with fields := u.fields.map (Path.rename σ) }

/-- **The entity with every handle of an entity renamed.** -/
def Entity.rename (e : Entity) : Entity :=
  { e with
    id := σ e.id
    fields := e.fields.map (Field.rename σ)
    searches := e.searches.map (Search.rename σ)
    updates := e.updates.map (Mutation.rename σ)
    deletes := e.deletes.map (Mutation.rename σ)
    uniques := e.uniques.map (Unique.rename σ) }

/-! ### Renaming back -/

@[simp]
theorem FieldId.rename_symm (id : FieldId) : (id.rename σ).rename σ.symm = id := by
  simp [rename]

@[simp]
theorem Reference.rename_symm (r : Reference) : (r.rename σ).rename σ.symm = r := by
  simp [rename, Binding.rename, Option.map_map, Function.comp_def]

@[simp]
theorem StructSource.rename_symm (s : StructSource) : (s.rename σ).rename σ.symm = s := by
  simp [rename, Binding.rename, Option.map_map, Function.comp_def]

@[simp]
theorem Field.rename_symm (f : Field) : (f.rename σ).rename σ.symm = f := by
  simp [rename, Option.map_map, Function.comp_def]

@[simp]
theorem Path.rename_symm (p : Path) : (p.rename σ).rename σ.symm = p := by
  simp [rename, Function.comp_def]

@[simp]
theorem Search.rename_symm (s : Search) : (s.rename σ).rename σ.symm = s := by
  simp [rename, SearchParam.rename, SortOrder.rename, Aggregate.rename, Distinct.rename,
    Option.map_map, Function.comp_def]

@[simp]
theorem Mutation.rename_symm (m : Mutation) : (m.rename σ).rename σ.symm = m := by
  simp [rename, Modification.rename, RowConstraint.rename, Function.comp_def]

@[simp]
theorem Unique.rename_symm (u : Unique) : (u.rename σ).rename σ.symm = u := by
  simp [rename, Function.comp_def]

@[simp]
theorem Entity.rename_symm (e : Entity) : (e.rename σ).rename σ.symm = e := by
  simp [rename, Function.comp_def]

/-! ### What was declared -/

theorem Unique.unlinked_rename (u : Unique) : (u.rename σ).unlinked = u.unlinked := by
  simp only [unlinked, rename, List.map_map]
  rfl

/-- The fields are found by their names as before. -/
theorem Entity.field?_rename (e : Entity) (name : String) :
    (e.rename σ).field? name = (e.field? name).map (Field.rename σ) := by
  rw [field?, rename, List.find?_map]
  rfl

/-- What a field leads to is renamed. -/
theorem Field.next?_rename (f : Field) : (f.rename σ).next? = f.next?.map σ := by
  unfold next? rename
  rcases f.reference with _ | ⟨_, _, _, _ | b⟩ <;> rcases f.structSource with _ | ⟨_, _ | s⟩ <;> rfl

/-- **The checks of the declarations do not see the renaming.** -/
theorem Entity.checkDeclared_rename (e : Entity) :
    (e.rename σ).checkDeclared = e.checkDeclared := by
  have hfields : (e.rename σ).fields.map Field.name = e.fields.map Field.name := by
    rw [rename, List.map_map]
    rfl
  have hsearches : (e.rename σ).searches.filterMap Search.name = e.searches.filterMap Search.name :=
    List.filterMap_map
  have hupdates :
      (e.rename σ).updates.filterMap Mutation.name = e.updates.filterMap Mutation.name :=
    List.filterMap_map
  have hdeletes :
      (e.rename σ).deletes.filterMap Mutation.name = e.deletes.filterMap Mutation.name :=
    List.filterMap_map
  have huniques : Unique.checkDeclared [] (e.rename σ).uniques =
      Unique.checkDeclared [] e.uniques := by
    have hmap : (e.rename σ).uniques.map Unique.unlinked = e.uniques.map Unique.unlinked := by
      rw [rename, List.map_map]
      exact List.map_congr_left fun u _ => u.unlinked_rename σ
    rw [← Unique.checkDeclared_unlinked, hmap, Unique.checkDeclared_unlinked]
  have hrowids : (e.rename σ).fields.countP (·.flags.rowid) = e.fields.countP (·.flags.rowid) :=
    List.countP_map
  rw [checkDeclared, hfields, hsearches, hupdates, hdeletes, huniques, hrowids]
  rfl

end

/-! ### Corresponding look-ups -/

/-- What the second document finds is what the first one finds, renamed. -/
structure Document.Renamed (σ : Equiv.Perm (Handle .entity)) (d d' : Document) : Prop where
  entity? : ∀ id, d'.entity? (σ id) = (d.entity? id).map (Entity.rename σ)
  findEntity? : ∀ name, d'.findEntity? name = (d.findEntity? name).map (Entity.rename σ)
  enums : d'.enums = d.enums
  bitfields : d'.bitfields = d.bitfields

section

variable {σ : Equiv.Perm (Handle .entity)} {d d' : Document} (h : d.Renamed σ d') {e e' : Entity}

include h

theorem Document.Renamed.field? (id : FieldId) :
    d'.field? (id.rename σ) = (d.field? id).map (Field.rename σ) := by
  have hentity : d'.entity? (id.rename σ).entity = (d.entity? id.entity).map (Entity.rename σ) :=
    h.entity? id.entity
  rw [Document.field?, Document.field?, hentity]
  cases d.entity? id.entity with
  | none => rfl
  | some e =>
    have hfields : (e.rename σ).fields = e.fields.map (Field.rename σ) := rfl
    rw [Option.map_some, Option.bind_some, Option.bind_some, hfields, List.getElem?_map]
    rfl

/-! ### Fields -/

namespace Field

variable {f f' : Field}

theorem resolveReference_rename {o : Option Reference.Binding}
    (hf : f.resolveReference d e = .ok o) :
    (f.rename σ).resolveReference d' (e.rename σ) = .ok (o.map (Reference.Binding.rename σ)) := by
  cases hr : f.reference with
  | none =>
    obtain ⟨hupdate, hdelete, rfl⟩ := (resolveReference_none hr).1 hf
    have hr' : (f.rename σ).reference = none := by rw [rename, hr]; rfl
    exact (resolveReference_none hr').2 ⟨hupdate, hdelete, rfl⟩
  | some r =>
    obtain ⟨hsource, target, htarget, key, hkey, hfits, hnull, rfl⟩ :=
      (resolveReference_some hr).1 hf
    have hr' : (f.rename σ).reference = some (r.rename σ) := by rw [rename, hr]; rfl
    refine (resolveReference_some hr').2 ⟨hsource, target.rename σ, ?_, key.rename σ, ?_, hfits,
      hnull, rfl⟩
    · show d'.findEntity? r.targetEntity = _
      rw [h.findEntity?, htarget]
      rfl
    · show (target.rename σ).field? r.targetField = _
      rw [Entity.field?_rename, hkey]
      rfl

theorem resolveStruct_rename {o : Option StructSource.Binding} (hf : f.resolveStruct d e = .ok o) :
    (f.rename σ).resolveStruct d' (e.rename σ) = .ok (o.map (StructSource.Binding.rename σ)) := by
  cases hs : f.structSource with
  | none =>
    obtain rfl := (resolveStruct_none hs).1 hf
    have hs' : (f.rename σ).structSource = none := by rw [rename, hs]; rfl
    exact (resolveStruct_none hs').2 rfl
  | some source =>
    obtain ⟨carrier, hcarrier, r, hr, embedded, hembedded, rfl⟩ := (resolveStruct_some hs).1 hf
    have hs' : (f.rename σ).structSource = some (source.rename σ) := by rw [rename, hs]; rfl
    refine (resolveStruct_some hs').2 ⟨carrier.rename σ, ?_, r.rename σ, ?_, embedded.rename σ, ?_,
      rfl⟩
    · show (e.rename σ).field? source.field = _
      rw [Entity.field?_rename, hcarrier]
      rfl
    · rw [rename, hr]
      rfl
    · show d'.findEntity? r.targetEntity = _
      rw [h.findEntity?, hembedded]
      rfl

/-- A field that is bound in the one document is bound in the other. -/
theorem bind_rename (hf : f.bind d e = .ok f') :
    (f.rename σ).bind d' (e.rename σ) = .ok (f'.rename σ) := by
  obtain ⟨reference, hreference, source, hsource, enumeration, henumeration, bitfield, hbitfield,
    hstruct, rfl⟩ := bind_eq_ok_iff.1 hf
  refine bind_eq_ok_iff.2 ⟨_, resolveReference_rename h hreference, _,
    resolveStruct_rename h hsource, enumeration, ?_, bitfield, ?_, ?_, ?_⟩
  · rw [← henumeration]
    unfold resolveEnumeration Document.findEnumeration? Document.enumeration?
    rw [h.enums]
    rfl
  · rw [← hbitfield]
    unfold resolveBitfield Document.findBitfield?
    rw [h.bitfields]
    rfl
  · intro htype
    have hsome := hstruct htype
    rwa [rename, Option.isSome_map]
  · simp only [withBindings, rename, Option.map_map]
    rfl

end Field

/-- **The fields of a renamed entity are bound.** -/
theorem Entity.bindFields_rename (he : e.bindFields d = .ok e') :
    (e.rename σ).bindFields d' = .ok (e'.rename σ) := by
  obtain ⟨fields, hfields, hput⟩ := bind_eq_ok.1 he
  obtain rfl := pure_eq_ok.1 hput
  refine bind_eq_ok.2 ⟨fields.map (Field.rename σ), ?_, rfl⟩
  refine mapM_map_of_ok (fun f hf f' hbind => ?_) hfields
  rw [placed_eq_ok] at hbind ⊢
  exact Field.bind_rename h hbind

/-! ### Grants -/

omit h in
/-- The targets of grants are found by declared names. -/
theorem Entity.target?_rename (op : Operation) (target : String) :
    (e.rename σ).target? op target = e.target? op target := by
  have hsearches : (e.rename σ).searches = e.searches.map (Search.rename σ) := rfl
  have hupdates : (e.rename σ).updates = e.updates.map (Mutation.rename σ) := rfl
  have hdeletes : (e.rename σ).deletes = e.deletes.map (Mutation.rename σ) := rfl
  have hfields : (e.rename σ).fields = e.fields.map (Field.rename σ) := rfl
  unfold target?
  simp only [hsearches, hupdates, hdeletes, hfields, List.findIdx?_map]
  rfl

omit h in
/-- **The grants of a renamed entity are bound as before.** -/
theorem Entity.bindGrants_rename {t : RoleTree} (he : e.bindGrants t = .ok e') :
    (e.rename σ).bindGrants t = .ok (e'.rename σ) := by
  obtain ⟨grants, hgrants, hput⟩ := bind_eq_ok.1 he
  obtain rfl := pure_eq_ok.1 hput
  have hbind (g : Grant) : g.bind t (e.rename σ) = g.bind t e := by
    unfold Grant.bind Grant.bindTarget
    simp only [target?_rename]
  refine bind_eq_ok.2 ⟨grants, ?_, rfl⟩
  simp only [hbind]
  exact hgrants

/-! ### Specifications -/

namespace Path

variable {p p' : Path}

/-- The chain of a path is renamed. -/
theorem walk_rename {text : String} {ending : Ending} {names : List String} {chain : List FieldId}
    (hw : walk d text ending e names = .ok chain) :
    walk d' text ending (e.rename σ) names = .ok (chain.map (FieldId.rename σ)) := by
  induction names generalizing e chain with
  | nil =>
    obtain rfl := Except.ok.inj hw
    rfl
  | cons name names ih =>
    rw [walk, bind_eq_ok] at hw ⊢
    obtain ⟨f, hf, hw⟩ := hw
    have hf' : orFail ((e.rename σ).field? name) (.unknownField e.name name) =
        .ok (f.rename σ) := by
      rw [Entity.field?_rename, orFail_eq_ok.1 hf]
      rfl
    refine ⟨f.rename σ, hf', ?_⟩
    by_cases hlast : names.isEmpty ∧ ending = .value
    · rw [if_pos hlast, guardFlaw_eq_ok] at hw ⊢
      obtain ⟨htype, hchain⟩ := hw
      obtain rfl := pure_eq_ok.1 hchain
      exact ⟨htype, rfl⟩
    · rw [if_neg hlast, bind_eq_ok] at hw ⊢
      obtain ⟨next, hnext, hw⟩ := hw
      obtain ⟨rest, hrest, hchain⟩ := bind_eq_ok.1 hw
      obtain rfl := pure_eq_ok.1 hchain
      refine ⟨next.rename σ, ?_, bind_eq_ok.2 ⟨_, ih hrest, rfl⟩⟩
      obtain ⟨id, hid, hentity⟩ := Option.bind_eq_some_iff.1 (orFail_eq_ok.1 hnext)
      rw [orFail_eq_ok, Field.next?_rename, hid, Option.map_some, Option.bind_some, h.entity?,
        hentity]
      rfl

theorem link_rename {ending : Ending} (hp : p.link d e ending = .ok p') :
    (p.rename σ).link d' (e.rename σ) ending = .ok (p'.rename σ) := by
  obtain ⟨chain, hchain, rfl⟩ := map_eq_ok.1 hp
  refine map_eq_ok.2 ⟨chain.map (FieldId.rename σ), ?_, rfl⟩
  have hnames : (p.rename σ).names = p.names := rfl
  rw [resolve, hnames]
  rw [resolve] at hchain
  by_cases hempty : p.names.isEmpty ∧ ending = .value
  · rw [if_pos hempty] at hchain
    exact absurd hchain failFlaw_ne_ok
  · rw [if_neg hempty] at hchain ⊢
    exact walk_rename h hchain

theorem linkLocal_rename (hp : p.linkLocal d e = .ok p') :
    (p.rename σ).linkLocal d' (e.rename σ) = .ok (p'.rename σ) := by
  have hnames : (p.rename σ).isLocal = p.isLocal := rfl
  rw [linkLocal, hnames]
  rw [linkLocal] at hp
  by_cases hlocal : p.isLocal = true
  · rw [if_pos hlocal] at hp ⊢
    exact link_rename h hp
  · rw [if_neg hlocal] at hp
    exact absurd hp failFlaw_ne_ok

/-- The type at the end of a path does not change. -/
theorem terminalType?_rename : (p.rename σ).terminalType? d' = p.terminalType? d := by
  have hterminal : (p.rename σ).terminal = p.terminal.map (FieldId.rename σ) := List.getLast?_map
  rw [terminalType?, terminalType?, hterminal]
  cases p.terminal with
  | none => rfl
  | some id =>
    rw [Option.map_some, Option.bind_some, Option.bind_some, h.field?, Option.map_map]
    rfl

theorem linkCompared_rename {op : Operator} (hp : p.linkCompared d e op = .ok p') :
    (p.rename σ).linkCompared d' (e.rename σ) op = .ok (p'.rename σ) := by
  rw [linkCompared_eq_ok, terminalType?_rename h]
  obtain ⟨hlink, happlies⟩ := linkCompared_eq_ok.1 hp
  exact ⟨link_rename h hlink, happlies⟩

theorem linkModified_rename {modifier : Modifier} (hp : p.linkModified d e modifier = .ok p') :
    (p.rename σ).linkModified d' (e.rename σ) modifier = .ok (p'.rename σ) := by
  rw [linkModified_eq_ok, terminalType?_rename h]
  obtain ⟨hlink, happlies⟩ := linkModified_eq_ok.1 hp
  exact ⟨linkLocal_rename h hlink, happlies⟩

end Path

/-- Whether a parameter asks for a key does not change. -/
theorem Search.asksForKey_rename (p : SearchParam) :
    asksForKey d' (p.rename σ) = asksForKey d p := by
  have hhead : (p.rename σ).path.chain.head? = p.path.chain.head?.map (FieldId.rename σ) :=
    List.head?_map
  unfold asksForKey
  rw [hhead]
  cases p.path.chain.head? with
  | none => rfl
  | some id =>
    rw [Option.map_some, Option.bind_some, Option.bind_some, h.field?, Option.any_map]
    rfl

theorem Search.link_rename {s s' : Search} (hs : s.link d e = .ok s') :
    (s.rename σ).link d' (e.rename σ) = .ok (s'.rename σ) := by
  unfold link at hs ⊢
  simp only [bind_eq_ok, pure_eq_ok] at hs ⊢
  obtain ⟨params, hparams, orders, horders, aggregate, haggregate, distinct, hdistinct, rfl⟩ := hs
  refine ⟨params.map (SearchParam.rename σ), ?_, orders.map (SortOrder.rename σ), ?_,
    aggregate.map (Aggregate.rename σ), ?_, distinct.map (Distinct.rename σ), ?_, ?_⟩
  · refine mapM_map_of_ok (fun p _ p' hp => ?_) hparams
    obtain ⟨path, hpath, hput⟩ := bind_eq_ok.1 hp
    obtain rfl := pure_eq_ok.1 hput
    exact bind_eq_ok.2 ⟨path.rename σ, Path.linkCompared_rename h hpath, rfl⟩
  · refine mapM_map_of_ok (fun o _ o' ho => ?_) horders
    obtain ⟨path, hpath, hput⟩ := bind_eq_ok.1 ho
    obtain rfl := pure_eq_ok.1 hput
    exact bind_eq_ok.2 ⟨path.rename σ, Path.link_rename h hpath, rfl⟩
  · refine option_mapM_map_of_ok (fun a a' ha => ?_) haggregate
    obtain ⟨path, hpath, ha⟩ := bind_eq_ok.1 ha
    obtain ⟨group, hgroup, hput⟩ := bind_eq_ok.1 ha
    obtain rfl := pure_eq_ok.1 hput
    exact bind_eq_ok.2 ⟨path.rename σ, Path.link_rename h hpath, bind_eq_ok.2
      ⟨group.rename σ, Path.link_rename h hgroup, rfl⟩⟩
  · refine option_mapM_map_of_ok (fun x x' hx => ?_) hdistinct
    obtain ⟨path, hpath, hput⟩ := bind_eq_ok.1 hx
    obtain rfl := pure_eq_ok.1 hput
    exact bind_eq_ok.2 ⟨path.rename σ, Path.link_rename h hpath, rfl⟩
  · have hany : (params.map (SearchParam.rename σ)).any (asksForKey d') =
        params.any (asksForKey d) := by
      rw [List.any_map]
      exact congrArg params.any (funext (asksForKey_rename h))
    rw [hany]
    rfl

theorem Mutation.link_rename {m m' : Mutation} (hm : m.link d e = .ok m') :
    (m.rename σ).link d' (e.rename σ) = .ok (m'.rename σ) := by
  unfold link at hm ⊢
  rw [guardFlaw_eq_ok] at hm ⊢
  simp only [bind_eq_ok, pure_eq_ok] at hm ⊢
  obtain ⟨hkind, modify, hmodify, constrain, hconstrain, rfl⟩ := hm
  refine ⟨?_, modify.map (Modification.rename σ), ?_, constrain.map (RowConstraint.rename σ), ?_,
    rfl⟩
  · rw [rename, List.isEmpty_map]
    exact hkind
  · refine mapM_map_of_ok (fun f _ f' hf => ?_) hmodify
    obtain ⟨path, hpath, hput⟩ := bind_eq_ok.1 hf
    obtain rfl := pure_eq_ok.1 hput
    exact bind_eq_ok.2 ⟨path.rename σ, Path.linkModified_rename h hpath, rfl⟩
  · refine mapM_map_of_ok (fun c _ c' hc => ?_) hconstrain
    obtain ⟨path, hpath, hput⟩ := bind_eq_ok.1 hc
    obtain rfl := pure_eq_ok.1 hput
    exact bind_eq_ok.2 ⟨path.rename σ, Path.linkCompared_rename h hpath, rfl⟩

theorem Unique.link_rename {u u' : Unique} (hu : u.link d e = .ok u') :
    (u.rename σ).link d' (e.rename σ) = .ok (u'.rename σ) := by
  obtain ⟨fields, hfields, hput⟩ := bind_eq_ok.1 hu
  obtain rfl := pure_eq_ok.1 hput
  refine bind_eq_ok.2 ⟨fields.map (Path.rename σ), ?_, rfl⟩
  exact mapM_map_of_ok (fun _ _ _ => Path.linkLocal_rename h) hfields

/-- **The specifications of a renamed entity are linked.** -/
theorem Entity.bindSpecs_rename (he : e.bindSpecs d = .ok e') :
    (e.rename σ).bindSpecs d' = .ok (e'.rename σ) := by
  unfold bindSpecs at he ⊢
  simp only [bind_eq_ok, pure_eq_ok] at he ⊢
  obtain ⟨searches, hsearches, updates, hupdates, deletes, hdeletes, uniques, huniques, rfl⟩ := he
  refine ⟨searches.map (Search.rename σ), ?_, updates.map (Mutation.rename σ), ?_,
    deletes.map (Mutation.rename σ), ?_, uniques.map (Unique.rename σ), ?_, rfl⟩
  · refine mapM_map_of_ok (fun s _ s' hs => ?_) hsearches
    rw [placed_eq_ok] at hs ⊢
    exact Search.link_rename h hs
  · refine mapM_map_of_ok (fun u _ u' hu => ?_) hupdates
    rw [placed_eq_ok] at hu ⊢
    exact Mutation.link_rename h hu
  · refine mapM_map_of_ok (fun u _ u' hu => ?_) hdeletes
    rw [placed_eq_ok] at hu ⊢
    exact Mutation.link_rename h hu
  · refine mapM_map_of_ok (fun u _ u' hu => ?_) huniques
    rw [placed_eq_ok] at hu ⊢
    exact Unique.link_rename h hu

end

end DataModel
