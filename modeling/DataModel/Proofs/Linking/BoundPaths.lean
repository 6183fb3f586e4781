import DataModel.Proofs.Linking.Walks

/-!
# Paths of a linked document

`Document.paths_walked`: a path resolves to the fields on the walk along its names, or fails on the
first obstacle; and in a linked document every path of a search, a mutation or a unique constraint
has the chain of such a walk, whose last field fits the operator or the modifier that is applied to
it.

What an entity's specifications say of their paths is put together from the paths upwards:
`Path.Bound` for one path, `Search.Bound`, `Mutation.Bound` and `Unique.Bound` for a specification,
`Entity.SpecsBound` for all of them.  The proofs go the same way, from a specification that linking
leaves as it is.  That a linked document is left as it is (`Document.LinkSteps.bindSpecs_self`)
follows from what linking keeps: no chain is read before it is written, so linking the
specifications of the linked document repeats what was done.
-/

namespace DataModel

/-! ### Bound paths -/

/-- The path has the chain of a walk from an entity, whose fields are `fs`. -/
structure Path.Bound (d : Document) (e : Entity) (ending : Ending) (p : Path) (fs : List Field) :
    Prop where
  walk : d.Walk ending e p.names fs
  chain : p.chain = fs.map Field.id
  resolved : p.isResolved = true

/-- The path has one name, and is bound to the field `f` of the entity. -/
structure Path.BoundLocal (d : Document) (e : Entity) (p : Path) (f : Field) : Prop where
  single : p.names.length = 1
  bound : p.Bound d e .value [f]

/-- Every comparison that needs a kind of value finds it in a field of type `t`. -/
structure Operator.Fits (op : Operator) (t : FieldType) : Prop where
  like : op = .like → t.isTextual = true
  bits : op = .and ∨ op = .or → t.isIntegral = true

/-- Every change that needs a kind of value finds it in a field of type `t`. -/
structure Modifier.Fits (m : Modifier) (t : FieldType) : Prop where
  count : m = .inc ∨ m = .dec → t.isIntegral = true ∨ t = .real
  concat : m = .concat → t.isTextual = true

/-- The path is bound to a value that the operator can compare. -/
def Path.Compared (d : Document) (e : Entity) (p : Path) (op : Operator) : Prop :=
  ∃ fs f, p.Bound d e .value (fs ++ [f]) ∧ op.Fits f.type

/-- The paths of a search are bound. -/
structure Search.Bound (d : Document) (e : Entity) (s : Search) : Prop where
  params : ∀ p ∈ s.params, p.path.Compared d e p.op
  orders : ∀ o ∈ s.orders, ∃ fs, o.path.Bound d e .value fs
  aggregate : ∀ a ∈ s.aggregate,
    (∃ fs, a.path.Bound d e .value fs) ∧ ∃ fs, a.group.Bound d e .value fs
  distinct : ∀ x ∈ s.distinct, ∃ fs, x.path.Bound d e .entity fs

/-- The paths of a mutation are bound, those of modified fields to a field of the entity. -/
structure Mutation.Bound (d : Document) (e : Entity) (m : Mutation) : Prop where
  modify : ∀ c ∈ m.modify, ∃ f, c.path.BoundLocal d e f ∧ c.modifier.Fits f.type
  constrain : ∀ c ∈ m.constrain, c.path.Compared d e c.op

/-- The paths of a unique constraint are bound to fields of the entity. -/
def Unique.Bound (d : Document) (e : Entity) (u : Unique) : Prop :=
  ∀ p ∈ u.fields, ∃ f, p.BoundLocal d e f

/-- The paths of all specifications of an entity are bound. -/
structure Entity.SpecsBound (d : Document) (e : Entity) : Prop where
  searches : ∀ s ∈ e.searches, s.Bound d e
  updates : ∀ m ∈ e.updates, m.Bound d e
  deletes : ∀ m ∈ e.deletes, m.Bound d e
  uniques : ∀ u ∈ e.uniques, u.Bound d e

theorem Operator.fits_of_applies {op : Operator} {t : FieldType} (h : op.applies t = true) :
    op.Fits t := by
  constructor
  · rintro rfl
    exact h
  · rintro (rfl | rfl)
    · exact h
    · exact h

theorem Modifier.fits_of_applies {m : Modifier} {t : FieldType} (h : m.applies t = true) :
    m.Fits t := by
  constructor
  · rintro (rfl | rfl)
    · simpa [applies] using h
    · simpa [applies] using h
  · rintro rfl
    exact h

/-! ### Paths that linking leaves as they are -/

namespace Path

variable {d : Document} {e : Entity} {ending : Ending} {p : Path}

theorem bound_of_link_self (h : p.link d e ending = .ok p) : ∃ fs, p.Bound d e ending fs := by
  rw [link, map_eq_ok] at h
  obtain ⟨chain, hchain, hp⟩ := h
  obtain ⟨fs, hfs, rfl⟩ := resolve_eq_ok_iff.1 hchain
  have hc : p.chain = fs.map Field.id := (congrArg Path.chain hp).symm
  refine ⟨fs, hfs, hc, ?_⟩
  rw [isResolved, hc, List.length_map, hfs.length_eq, beq_self_eq_true]

/-- A path to a value has a last field. -/
theorem Bound.exists_last {fs : List Field} (h : p.Bound d e .value fs) :
    ∃ init f, fs = init ++ [f] := by
  rcases List.eq_nil_or_concat fs with rfl | ⟨init, f, hfs⟩
  · have hnames : p.names = [] := List.length_eq_zero_iff.1 h.walk.length_eq.symm
    cases h.walk.ends_at_entity hnames
  · exact ⟨init, f, by rw [hfs, List.concat_eq_append]⟩

/-- The type at the end of a bound path is that of its last field. -/
theorem Bound.terminalType? (hd : d.Placed) (he : e ∈ d.entities) {fs : List Field} {f : Field}
    (h : p.Bound d e ending (fs ++ [f])) : p.terminalType? d = some f.type := by
  obtain ⟨e', he', hf⟩ := h.walk.mem_fields he f (by simp)
  rw [Path.terminalType?, terminal, h.chain, List.map_append, List.map_singleton,
    List.getLast?_concat, Option.bind_some, hd.field?_id he' hf, Option.map_some]

/-- A check of the type at the end of a linked path passes the path on. -/
theorem checked_eq_ok {linked : Except Error Path} {applies : FieldType → Bool}
    {flaw : FieldType → Flaw} {p' : Path} :
    (do
      let q ← linked
      match q.terminalType? d with
      | some t => if !applies t then failFlaw (flaw t)
      | none => pure ()
      return q) = .ok p' ↔
      linked = .ok p' ∧ ∀ t, p'.terminalType? d = some t → applies t = true := by
  rw [bind_eq_ok]
  constructor
  · rintro ⟨q, hq, h⟩
    cases ht : q.terminalType? d with
    | none =>
      rw [ht] at h
      obtain rfl := pure_eq_ok.1 h
      exact ⟨hq, fun t h => absurd (ht.symm.trans h) nofun⟩
    | some t =>
      rw [ht] at h
      obtain ⟨happlies, h⟩ := guardFlaw_eq_ok.1 h
      obtain rfl := pure_eq_ok.1 h
      refine ⟨hq, fun t' ht' => ?_⟩
      obtain rfl := Option.some.inj (ht.symm.trans ht')
      simpa using happlies
  · rintro ⟨hq, happlies⟩
    refine ⟨p', hq, ?_⟩
    cases ht : p'.terminalType? d with
    | none => rfl
    | some t => exact guardFlaw_eq_ok.2 ⟨by simpa using happlies t ht, rfl⟩

theorem linkCompared_eq_ok {op : Operator} {p' : Path} :
    p.linkCompared d e op = .ok p' ↔ p.link d e .value = .ok p' ∧
      ∀ t, p'.terminalType? d = some t → op.applies t = true :=
  checked_eq_ok

theorem linkModified_eq_ok {modifier : Modifier} {p' : Path} :
    p.linkModified d e modifier = .ok p' ↔ p.linkLocal d e = .ok p' ∧
      ∀ t, p'.terminalType? d = some t → modifier.applies t = true :=
  checked_eq_ok

theorem compared_of_linkCompared_self (hd : d.Placed) (he : e ∈ d.entities) {op : Operator}
    (h : p.linkCompared d e op = .ok p) : p.Compared d e op := by
  obtain ⟨hlink, happlies⟩ := linkCompared_eq_ok.1 h
  obtain ⟨fs, hfs⟩ := bound_of_link_self hlink
  obtain ⟨init, f, rfl⟩ := hfs.exists_last
  exact ⟨init, f, hfs, Operator.fits_of_applies (happlies _ (hfs.terminalType? hd he))⟩

theorem boundLocal_of_linkLocal_self (h : p.linkLocal d e = .ok p) : ∃ f, p.BoundLocal d e f := by
  rw [linkLocal] at h
  split_ifs at h with hlocal
  · obtain ⟨fs, hfs⟩ := bound_of_link_self h
    have hsingle : p.names.length = 1 := by simpa [isLocal] using hlocal
    obtain ⟨f, rfl⟩ := List.length_eq_one_iff.1 (hfs.walk.length_eq.trans hsingle)
    exact ⟨f, hsingle, hfs⟩
  · exact absurd h failFlaw_ne_ok

end Path

/-! ### Specifications that linking leaves as they are -/

section

variable {d : Document} {e : Entity} (hd : d.Placed) (he : e ∈ d.entities)

include hd he

theorem Search.bound_of_link_self {s : Search} (h : s.link d e = .ok s) : s.Bound d e := by
  unfold link at h
  simp only [bind_eq_ok, pure_eq_ok] at h
  obtain ⟨params, hparams, orders, horders, aggregate, haggregate, distinct, hdistinct, hs⟩ := h
  obtain rfl : params = s.params := congrArg Search.params hs
  obtain rfl : orders = s.orders := congrArg Search.orders hs
  obtain rfl : aggregate = s.aggregate := congrArg Search.aggregate hs
  obtain rfl : distinct = s.distinct := congrArg Search.distinct hs
  constructor
  · intro p hp
    have hpath := eq_ok_of_put SearchParam.path (fun _ => rfl) (mapM_eq_self_iff.1 hparams p hp)
    exact Path.compared_of_linkCompared_self hd he hpath
  · intro o ho
    have hpath := eq_ok_of_put SortOrder.path (fun _ => rfl) (mapM_eq_self_iff.1 horders o ho)
    exact Path.bound_of_link_self hpath
  · intro a ha
    obtain ⟨path, hpath, h⟩ := bind_eq_ok.1 (option_mapM_eq_self_iff.1 haggregate a ha)
    obtain ⟨group, hgroup, h⟩ := bind_eq_ok.1 h
    rw [pure_eq_ok] at h
    obtain rfl : path = a.path := congrArg Aggregate.path h
    obtain rfl : group = a.group := congrArg Aggregate.group h
    exact ⟨Path.bound_of_link_self hpath, Path.bound_of_link_self hgroup⟩
  · intro x hx
    have hpath :=
      eq_ok_of_put Distinct.path (fun _ => rfl) (option_mapM_eq_self_iff.1 hdistinct x hx)
    exact Path.bound_of_link_self hpath

theorem Mutation.bound_of_link_self {m : Mutation} (h : m.link d e = .ok m) : m.Bound d e := by
  unfold link at h
  replace h := (guardFlaw_eq_ok.1 h).2
  simp only [bind_eq_ok, pure_eq_ok] at h
  obtain ⟨modify, hmodify, constrain, hconstrain, hm⟩ := h
  obtain rfl : modify = m.modify := congrArg Mutation.modify hm
  obtain rfl : constrain = m.constrain := congrArg Mutation.constrain hm
  constructor
  · intro c hc
    have hpath := eq_ok_of_put Modification.path (fun _ => rfl) (mapM_eq_self_iff.1 hmodify c hc)
    obtain ⟨hlocal, happlies⟩ := Path.linkModified_eq_ok.1 hpath
    obtain ⟨f, hf⟩ := Path.boundLocal_of_linkLocal_self hlocal
    have htype : c.path.terminalType? d = some f.type :=
      Path.Bound.terminalType? hd he (show c.path.Bound d e .value ([] ++ [f]) from hf.bound)
    exact ⟨f, hf, Modifier.fits_of_applies (happlies _ htype)⟩
  · intro c hc
    have hpath :=
      eq_ok_of_put RowConstraint.path (fun _ => rfl) (mapM_eq_self_iff.1 hconstrain c hc)
    exact Path.compared_of_linkCompared_self hd he hpath

omit hd he in
theorem Unique.bound_of_link_self {u : Unique} (h : u.link d e = .ok u) : u.Bound d e := by
  have hfields := eq_ok_of_put Unique.fields (fun _ => rfl) h
  exact fun p hp => Path.boundLocal_of_linkLocal_self (mapM_eq_self_iff.1 hfields p hp)

omit hd he in
/-- The specifications of an entity that linking leaves as it is are left as they are. -/
theorem Entity.link_self_of_bindSpecs_self (h : e.bindSpecs d = .ok e) :
    (∀ s ∈ e.searches, s.link d e = .ok s) ∧ (∀ m ∈ e.updates, m.link d e = .ok m) ∧
      (∀ m ∈ e.deletes, m.link d e = .ok m) ∧ ∀ u ∈ e.uniques, u.link d e = .ok u := by
  unfold bindSpecs at h
  simp only [bind_eq_ok, pure_eq_ok] at h
  obtain ⟨searches, hsearches, updates, hupdates, deletes, hdeletes, uniques, huniques, heq⟩ := h
  obtain rfl : searches = e.searches := congrArg Entity.searches heq
  obtain rfl : updates = e.updates := congrArg Entity.updates heq
  obtain rfl : deletes = e.deletes := congrArg Entity.deletes heq
  obtain rfl : uniques = e.uniques := congrArg Entity.uniques heq
  simp only [mapM_eq_self_iff, placed_eq_ok] at hsearches hupdates hdeletes huniques
  exact ⟨hsearches, hupdates, hdeletes, huniques⟩

theorem Entity.specsBound_of_bindSpecs_self (h : e.bindSpecs d = .ok e) : e.SpecsBound d := by
  obtain ⟨hsearches, hupdates, hdeletes, huniques⟩ := link_self_of_bindSpecs_self h
  constructor
  · exact fun s hs => Search.bound_of_link_self hd he (hsearches s hs)
  · exact fun m hm => Mutation.bound_of_link_self hd he (hupdates m hm)
  · exact fun m hm => Mutation.bound_of_link_self hd he (hdeletes m hm)
  · exact fun u hu => Unique.bound_of_link_self (huniques u hu)

end

/-! ### Linked documents -/

namespace Document

/-- Linking the specifications of a linked document changes nothing. -/
theorem LinkSteps.bindSpecs_self {options : LinkOptions} {d bound high granted : Document}
    {l : LinkedDocument} (s : LinkSteps options d bound high granted l) :
    l.document.bindSpecs = .ok l.document := by
  rw [← bindSpecs_beforeChains l.document, beforeChains_of_bindSpecs s.specs,
    bindSpecs_beforeChains, s.specs]

theorem specsBound_of_bindSpecs_self {d : Document} (hd : d.Placed) (h : d.bindSpecs = .ok d) :
    ∀ e ∈ d.entities, e.SpecsBound d := by
  have hentities := eq_ok_of_put Document.entities (fun _ => rfl) h
  exact fun e he => Entity.specsBound_of_bindSpecs_self hd he (mapM_eq_self_iff.1 hentities e he)

/-- **Paths follow walks.**  Resolving a path returns the fields on the walk along its names, or the
first obstacle in its way.  In a linked document every path of a specification has the chain of its
walk, and every operator and modifier fits the type of the field at its end. -/
theorem paths_walked :
    (∀ (d : Document) (owner : Entity) (ending : Ending) (p : Path),
      (∀ chain, p.resolve d owner ending = .ok chain ↔
        ∃ fs, d.Walk ending owner p.names fs ∧ fs.map Field.id = chain) ∧
      ∀ err, p.resolve d owner ending = .error err ↔
        ∃ c, d.Obstacle p.dotted ending owner p.names c ∧ err = { cause := c }) ∧
    ∀ (options : LinkOptions) (d : Document) (l : LinkedDocument), d.link options = .ok l →
      ∀ e ∈ l.document.entities, e.SpecsBound l.document := by
  constructor
  · intro d owner ending p
    exact ⟨fun chain => Path.resolve_eq_ok_iff, fun err => Path.resolve_eq_error_iff⟩
  · intro options d l h
    obtain ⟨bound, high, granted, s⟩ := link_eq_ok_iff.1 h
    exact specsBound_of_bindSpecs_self s.placed s.bindSpecs_self

/-- The paths of the sessions follow walks, one of them through the person that holds a session. -/
theorem paths_walked_sessions :
    ∃ l, (sessions true).link .trusted = .ok l ∧
      (∃ e ∈ l.document.entities, ∃ s ∈ e.searches, ∃ p ∈ s.params, p.path.chain.length = 2) ∧
      ∀ e ∈ l.document.entities, e.SpecsBound l.document := by
  obtain ⟨l, h, hcross⟩ := exists_ok_of_any (r := (sessions true).link .trusted)
    (p := fun l => decide (∃ e ∈ l.document.entities, ∃ s ∈ e.searches, ∃ p ∈ s.params,
      p.path.chain.length = 2)) (by decide +kernel)
  exact ⟨l, h, of_decide_eq_true hcross, paths_walked.2 .trusted (sessions true) l h⟩

end Document

end DataModel
