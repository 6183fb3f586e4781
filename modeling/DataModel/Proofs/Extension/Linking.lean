import DataModel.Proofs.Extension.Bindings

/-!
# Linking what was added to

`Document.link_run`: adding to a document never rebinds what it already had.  If a document links,
and links again after edits that only add to it, then the second linked document extends the first
(`Document.Extends`): the references, the struct sources and the links of the old fields, the chains
of the old paths, the uniqueness of the old searches, the old grants and the values of the old items
are the same, and no old entity has sunk.

Each pass of the two links keeps what the one document is to the other.  Those that bind look up
names, and Bindings has it that look-ups stay.  Numbering goes through the items from the front, so
what stands behind an item does not count (`Enumeration.numberItems_prefix`).  The heights are
lengths of longest chains, and what was added takes no chain away (`Document.Extends.height_le`).
-/

namespace DataModel

/-! ### Lists of declarations -/

/-- A computation over a list has at every place the result of the member there. -/
theorem getElem?_of_mapM {α β : Type} {f : α → Except Error β} {as : List α} {bs : List β}
    (hm : as.mapM f = .ok bs) {n : Nat} {b : β} (hb : bs[n]? = some b) :
    ∃ a, as[n]? = some a ∧ f a = .ok b := by
  rw [mapM_eq_ok] at hm
  induction hm generalizing n with
  | nil => cases hb
  | cons ha _ ih =>
    cases n with
    | zero =>
      obtain rfl := Option.some.inj hb
      exact ⟨_, rfl, ha⟩
    | succ n => exact ih hb

/-- **What every step makes of a member and of what the member became, two computations over lists
make of the lists.** -/
theorem ExtendedBy.mapM {α β : Type} {R : α → α → Prop} {S : β → β → Prop}
    {f f' : α → Except Error β} {as as' : List α} {bs bs' : List β} (h : ExtendedBy R as as')
    (hf : ∀ a ∈ as, ∀ a' b b', R a a' → f a = .ok b → f' a' = .ok b' → S b b')
    (hm : as.mapM f = .ok bs) (hm' : as'.mapM f' = .ok bs') : ExtendedBy S bs bs' := by
  intro n b hb
  obtain ⟨a, ha, hab⟩ := getElem?_of_mapM hm hb
  obtain ⟨a', ha', hR⟩ := h n a ha
  have hlength : as'.length = bs'.length := (mapM_eq_ok.1 hm').length_eq
  have hn : n < bs'.length := hlength ▸ (List.getElem?_eq_some_iff.1 ha').1
  obtain ⟨a'', ha'', hab'⟩ := getElem?_of_mapM hm' (List.getElem?_eq_getElem hn)
  obtain rfl := Option.some.inj (ha''.symm.trans ha')
  exact ⟨_, List.getElem?_eq_getElem hn, hf a (List.mem_of_getElem? ha) _ _ _ hR hab hab'⟩

/-! ### Enumerations -/

namespace Enumeration

variable {e e' n n' : Enumeration}

/-- Items have the values that they had before others were added behind. -/
theorem numberItems_prefix {before : List Int64} {items more found found' : List EnumItem}
    (hf : e.numberItems before items = .ok found)
    (hf' : e'.numberItems before (items ++ more) = .ok found') : found <+: found' := by
  induction items generalizing before found found' with
  | nil =>
    obtain rfl := Except.ok.inj hf
    exact List.nil_prefix
  | cons i items ih =>
    obtain ⟨v, hv, _, rest, hrest, rfl⟩ := numberItems_cons_eq_ok.1 hf
    obtain ⟨v', hv', _, rest', hrest', rfl⟩ := numberItems_cons_eq_ok.1 hf'
    obtain rfl := Option.some.inj (hv.symm.trans hv')
    exact List.cons_prefix_cons.2 ⟨rfl, ih hrest hrest'⟩

theorem Extends.number (h : e.Extends e') (hn : e.number = .ok n) (hn' : e'.number = .ok n') :
    n.Extends n' := by
  obtain ⟨_, found, hfound, rfl⟩ := number_eq_ok_iff.1 hn
  obtain ⟨_, found', hfound', rfl⟩ := number_eq_ok_iff.1 hn'
  obtain ⟨more, hmore⟩ := h.items
  rw [← hmore] at hfound'
  exact { h with items := numberItems_prefix hfound hfound' }

end Enumeration

/-! ### Entities -/

namespace Entity.Extends

variable {d d' : Document} {e e' b b' : Entity}

theorem bindFields (he : e.Extends e') (h : d.Extends d') (hb : e.bindFields d = .ok b)
    (hb' : e'.bindFields d' = .ok b') : b.Extends b' := by
  obtain ⟨fields, hfields, hput⟩ := bind_eq_ok.1 hb
  obtain ⟨fields', hfields', hput'⟩ := bind_eq_ok.1 hb'
  obtain rfl := pure_eq_ok.1 hput
  obtain rfl := pure_eq_ok.1 hput'
  refine { he with fields := mapM_prefix he.fields (fun f _ bound hbound => ?_) hfields hfields' }
  rw [placed_eq_ok] at hbound ⊢
  exact Field.bind_extends h he hbound

theorem bindGrants (he : e.Extends e') {t t' : RoleTree} (ht : t.Extends t')
    (hb : e.bindGrants t = .ok b) (hb' : e'.bindGrants t' = .ok b') : b.Extends b' := by
  obtain ⟨grants, hgrants, hput⟩ := bind_eq_ok.1 hb
  obtain ⟨grants', hgrants', hput'⟩ := bind_eq_ok.1 hb'
  obtain rfl := pure_eq_ok.1 hput
  obtain rfl := pure_eq_ok.1 hput'
  rw [he.rolemap] at hgrants'
  -- The grants are the same, so that the second computation has the result of the first.
  have hsame : (e.rolemap.grants.mapM fun g =>
      placed { entity := some e'.name, spec := some g.label } (g.bind t' e')) = .ok grants := by
    refine mapM_of_ok (fun g _ bound hbound => ?_) hgrants
    rw [placed_eq_ok] at hbound ⊢
    exact Grant.bind_extends ht he hbound
  obtain rfl := Except.ok.inj (hgrants'.symm.trans hsame)
  exact { he with rolemap := rfl }

theorem bindSpecs (he : e.Extends e') (h : d.Extends d') (hd : d.Placed) (hmem : e ∈ d.entities)
    (hb : e.bindSpecs d = .ok b) (hb' : e'.bindSpecs d' = .ok b') : b.Extends b' := by
  unfold Entity.bindSpecs at hb hb'
  simp only [bind_eq_ok, pure_eq_ok] at hb hb'
  obtain ⟨searches, hsearches, updates, hupdates, deletes, hdeletes, uniques, huniques, rfl⟩ := hb
  obtain ⟨searches', hsearches', updates', hupdates', deletes', hdeletes', uniques', huniques',
    rfl⟩ := hb'
  refine { he with
    searches := mapM_prefix he.searches (fun s _ s' hs => ?_) hsearches hsearches'
    updates := mapM_prefix he.updates (fun u _ u' hu => ?_) hupdates hupdates'
    deletes := mapM_prefix he.deletes (fun u _ u' hu => ?_) hdeletes hdeletes'
    uniques := mapM_prefix he.uniques (fun u _ u' hu => ?_) huniques huniques' }
  · rw [placed_eq_ok] at hs ⊢
    exact Search.link_extends h hd hmem he hs
  · rw [placed_eq_ok] at hu ⊢
    exact Mutation.link_extends h hd hmem he hu
  · rw [placed_eq_ok] at hu ⊢
    exact Mutation.link_extends h hd hmem he hu
  · rw [placed_eq_ok] at hu ⊢
    exact Unique.link_extends h he hu

end Entity.Extends

/-! ### Passes -/

namespace Document

variable {d d' b b' : Document}

/-- **The second pass keeps what the document is to the other.** -/
theorem Extends.bindFields (h : d.Extends d') (hd : d.Placed) (hd' : d'.Placed)
    (hb : d.bindFields = .ok b) (hb' : d'.bindFields = .ok b') : b.Extends b' := by
  obtain ⟨enums, henums, _, entities, hentities, rfl⟩ := (bindFields_eq_ok_iff hd).1 hb
  obtain ⟨enums', henums', _, entities', hentities', rfl⟩ := (bindFields_eq_ok_iff hd').1 hb'
  -- The fields are bound in the documents whose enumerations are numbered.
  have hnumbered : ({ d with enums } : Document).Extends { d' with enums := enums' } := by
    refine { h with enums := h.enums.mapM (fun e _ e' n n' he hn hn' => ?_) henums henums' }
    rw [placed_eq_ok] at hn hn'
    exact he.number hn hn'
  have hfields : ExtendedBy Entity.Extends entities entities' :=
    h.entities.mapM (fun _ _ _ _ _ he hn hn' => he.bindFields hnumbered hn hn') hentities hentities'
  exact { hnumbered with entities := hfields }

/-- What refers to something goes on doing so. -/
theorem Extends.refers (h : d.Extends d') {v w : Nat} (hvw : d.Refers v w) : d'.Refers v w := by
  obtain ⟨e, he, f, hf, hr⟩ := hvw
  obtain ⟨e', he', hR⟩ := h.entities v e he
  exact ⟨e', he', f, hR.fields.subset hf, hr⟩

/-- **No entity sinks**: the longest chain from it is still there. -/
theorem Extends.height_le (h : d.Extends d') {height height' : Nat → Nat}
    (hh : Heights.IsHeight d.edges height) (hh' : Heights.IsHeight d'.edges height') (v : Nat) :
    height v ≤ height' v := by
  obtain ⟨chain, hchain, hlength⟩ := hh.exists_chain v
  rw [← hlength]
  refine hh'.length_le (hchain.imp fun u w huw => ?_)
  rw [edge_eq_refers] at huw ⊢
  exact h.refers huw

theorem Extends.setHeights (h : d.Extends d') (hd : d.ReferencesBound) (hd' : d'.ReferencesBound)
    (hb : d.setHeights = .ok b) (hb' : d'.setHeights = .ok b') : b.Extends b' := by
  -- Neither document has a cycle, which would have ended its link.
  rcases setHeights_spec hd with ⟨height, hok, hh⟩ | ⟨_, names, herr, _⟩
  · rcases setHeights_spec hd' with ⟨height', hok', hh'⟩ | ⟨_, names, herr, _⟩
    · obtain rfl := Except.ok.inj (hok.symm.trans hb)
      obtain rfl := Except.ok.inj (hok'.symm.trans hb')
      refine { h with entities := fun n e he => ?_ }
      simp only [withHeights, List.getElem?_map, List.getElem?_zipIdx, Option.map_map,
        Option.map_eq_some_iff] at he ⊢
      obtain ⟨e₀, he₀, rfl⟩ := he
      obtain ⟨e₁, he₁, hR⟩ := h.entities n e₀ he₀
      exact ⟨_, ⟨e₁, he₁, rfl⟩, { hR with height := h.height_le hh hh' _ }⟩
    · rw [herr] at hb'
      exact absurd hb' fail_ne_ok
  · rw [herr] at hb
    exact absurd hb fail_ne_ok

theorem Extends.bindGrants (h : d.Extends d') (hb : d.bindGrants = .ok b)
    (hb' : d'.bindGrants = .ok b') : b.Extends b' := by
  obtain ⟨entities, hentities, hput⟩ := bind_eq_ok.1 hb
  obtain ⟨entities', hentities', hput'⟩ := bind_eq_ok.1 hb'
  obtain rfl := pure_eq_ok.1 hput
  obtain rfl := pure_eq_ok.1 hput'
  have hgrants : ExtendedBy Entity.Extends entities entities' :=
    h.entities.mapM (fun _ _ _ _ _ he hn hn' => he.bindGrants h.roles hn hn') hentities hentities'
  exact { h with entities := hgrants }

theorem Extends.bindSpecs (h : d.Extends d') (hd : d.Placed) (hb : d.bindSpecs = .ok b)
    (hb' : d'.bindSpecs = .ok b') : b.Extends b' := by
  obtain ⟨entities, hentities, hput⟩ := bind_eq_ok.1 hb
  obtain ⟨entities', hentities', hput'⟩ := bind_eq_ok.1 hb'
  obtain rfl := pure_eq_ok.1 hput
  obtain rfl := pure_eq_ok.1 hput'
  have hspecs : ExtendedBy Entity.Extends entities entities' :=
    h.entities.mapM (fun _ hmem _ _ _ he hn hn' => he.bindSpecs h hd hmem hn hn') hentities
      hentities'
  exact { h with entities := hspecs }

/-! ### The link -/

/-- The last pass is run on a placed document. -/
theorem LinkSteps.placed_granted {options : LinkOptions} {d bound high granted : Document}
    {l : LinkedDocument} (s : LinkSteps options d bound high granted l) : granted.Placed := by
  have hunlinked := unlinked_congr
    (beforeHeight_congr (beforeGrants_congr (beforeChains_of_bindSpecs s.specs)))
  rw [← checkPlacement_eq_ok_iff (u := ()), ← checkPlacement_unlinked, ← hunlinked,
    checkPlacement_unlinked]
  exact checkPlacement_eq_ok_iff.2 s.placed

variable {options : LinkOptions} {l l' : LinkedDocument}

/-- **Linked documents are to each other what the documents were.** -/
theorem Extends.linked (h : d.Extends d') (hl : d.link options = .ok l)
    (hl' : d'.link options = .ok l') : l.document.Extends l'.document := by
  obtain ⟨bound, high, granted, s⟩ := link_eq_ok_iff.1 hl
  obtain ⟨bound', high', granted', s'⟩ := link_eq_ok_iff.1 hl'
  have hd : d.Placed := checkPlacement_eq_ok_iff.1 s.placement
  have hd' : d'.Placed := checkPlacement_eq_ok_iff.1 s'.placement
  have hbound : bound.Extends bound' := h.bindFields hd hd' s.fields s'.fields
  have hhigh : high.Extends high' := hbound.setHeights
    (referencesBound_of_bindFields hd s.fields) (referencesBound_of_bindFields hd' s'.fields)
    s.heights s'.heights
  have hgranted : granted.Extends granted' := hhigh.bindGrants s.grants s'.grants
  exact hgranted.bindSpecs s.placed_granted s.specs s'.specs

/-- **Adding to a document never rebinds what it already had.** -/
theorem link_run {edits : List Edit} (hadds : AddsOnly d d edits) (hl : d.link options = .ok l)
    (hl' : (d.run (edits.map .edit)).link options = .ok l') : l.document.Extends l'.document :=
  (extends_run hadds).linked hl hl'

/-- A second state, a role for visitors, and places: each person has a home among them, and by its
home a person is searched for. -/
def moreSessions : List Edit :=
  let place (edit : EntityEdit) : Edit := .onEntity (.name "place") edit
  let person (edit : EntityEdit) : Edit := .onEntity (.name "person") edit
  [.addEntity "place", place (.addField "id"),
    place (.onField (.name "id") (.setFlag .rowid true)),
    person (.addField "home"), person (.onField (.name "home") (.setReference "place" "id")),
    person (.addSearch .search (some "residents")),
    person (.onSearch 0 (.addParam (.ofNames ["home", "id"]) .eq)),
    .addEnumItem 0 { name := "expired" },
    .addRole none "visitor"]

/-- The persons come to stand above the places, and the sessions above both; what was bound is bound
as before. -/
theorem link_run_moreSessions :
    ∃ l l', (sessions false).link .trusted = .ok l ∧
      ((sessions false).run (moreSessions.map .edit)).link .trusted = .ok l' ∧
      l.document.entities.map Entity.height = [0, 1] ∧
      l'.document.entities.map Entity.height = [1, 2, 0] ∧ l.document.Extends l'.document := by
  obtain ⟨l, hl, hheights⟩ := exists_ok_of_any (r := (sessions false).link .trusted)
    (p := fun l => decide (l.document.entities.map Entity.height = [0, 1])) (by decide +kernel)
  -- One evaluation serves both facts about the run, whose names are looked up only once.
  obtain ⟨l', hl', hparts⟩ := exists_ok_of_any
    (r := ((sessions false).run (moreSessions.map .edit)).link .trusted)
    (p := fun l => decide (l.document.entities.map Entity.height = [1, 2, 0] ∧
      AddsOnly (sessions false) (sessions false) moreSessions)) (by decide +kernel)
  obtain ⟨hheights', hadds⟩ := of_decide_eq_true hparts
  exact ⟨l, l', hl, hl', of_decide_eq_true hheights, hheights',
    link_run hadds hl hl'⟩

end Document

end DataModel
