import DataModel.Proofs.Safety.HeightWalk

/-!
# Heights of a document

`Document.heights_or_cycle`: when the references of a document are bound, its heights are found
exactly if no chain of references leads from an entity back to it.  The heights are then the lengths
of the longest chains; else the error names the entities along a cycle, the first one twice.  In
either case the walk has come to its end, within its steps and without a fault
(`Watched.setHeights_eq`).

The references are a relation on positions, `Document.Refers`, which several fields of an entity may
bear witness to.  The walk sees them as the lists `Document.edges` (`mem_edges_iff`), where none is
repeated, and what it finds on these lists (`Heights.compute_spec`) is what the document says.
-/

namespace DataModel

/-- The document with the height of every entity. The names along a cycle are read by position. -/
def Watched.setHeights (d : Document) : Watched Error Document :=
  (walk d.edges).andThen
    (fun cycle => do
      let names ← cycle.mapM fun v => return (← read d.entities.toArray v).name
      of (fail (.referenceCycle names)))
    (fun heights => do
      let entities ← d.entities.zipIdx.mapM fun (e, i) => do
        return { e with height := ← read heights i }
      return { d with entities })

namespace Document

variable (d : Document)

/-- The document with the heights that a function of the position gives. -/
def withHeights (height : Nat → Nat) : Document :=
  { d with entities := d.entities.zipIdx.map fun (e, i) => { e with height := height i } }

/-- The entity at `v` has a field with a reference that is bound to a field of the entity at `w`. -/
def Refers (v w : Nat) : Prop :=
  ∃ e ∈ d.entities[v]?, ∃ f ∈ e.fields, ∃ r ∈ f.reference, ∃ b ∈ r.binding,
    b.target.entity.index = w

/-- Every reference is bound to a field of the document. -/
def ReferencesBound : Prop :=
  ∀ e ∈ d.entities, ∀ f ∈ e.fields, ∀ r ∈ f.reference, ∃ b ∈ r.binding, (d.field? b.target).isSome

/-- A height of every position as chains of references give it: zero for an entity without
references, else one more than the greatest height among the entities referred to; and always the
length of the longest chain. -/
structure IsHeight (height : Nat → Nat) : Prop where
  zero : ∀ v, ∀ e ∈ d.entities[v]?, e.hasReferences = false → height v = 0
  succ : ∀ v, ∀ e ∈ d.entities[v]?, e.hasReferences = true →
    IsGreatest {m | ∃ w, d.Refers v w ∧ m = height w + 1} (height v)
  longest : ∀ v, IsGreatest
    {m | ∃ chain : List Nat, (v :: chain).IsChain d.Refers ∧ chain.length = m} (height v)

instance : Decidable d.ReferencesBound :=
  inferInstanceAs (Decidable (∀ e ∈ d.entities, ∀ f ∈ e.fields, ∀ r ∈ f.reference,
    ∃ b ∈ r.binding, (d.field? b.target).isSome))

variable {d}

theorem setHeights_of_ok {heights : Array Nat} (h : Heights.compute d.edges = .ok heights) :
    d.setHeights = .ok (d.withHeights fun v => heights.getD v 0) := by
  rw [setHeights, h]
  rfl

theorem setHeights_of_error {cycle : List Nat} (h : Heights.compute d.edges = .error cycle) :
    d.setHeights =
      fail (.referenceCycle (cycle.map fun v => (d.entities[v]?).elim "" Entity.name)) := by
  rw [setHeights, h]

/-! ### References as edges -/

theorem size_edges : d.edges.size = d.entities.length := by
  rw [edges, List.size_toArray, List.length_map]

theorem mem_edges_iff {v w : Nat} : w ∈ d.edges.out v ↔ d.Refers v w := by
  have hout : d.edges.out v = ((d.entities[v]?).map Entity.targets).getD [] := by
    rw [edges, Heights.Edges.out, Array.getD_eq_getD_getElem?, List.getElem?_toArray,
      List.getElem?_map]
  rw [hout, Refers]
  -- Both sides name a field, its reference and the binding of the reference.
  cases d.entities[v]? with
  | none => simp
  | some e =>
    simp only [Option.map_some, Option.getD_some, Entity.targets, List.mem_eraseDups,
      List.mem_filterMap, Option.map_eq_some_iff, Option.bind_eq_some_iff, Reference.entity?,
      Option.mem_def]
    grind

theorem Refers.lt_length {v w : Nat} (h : d.Refers v w) : v < d.entities.length := by
  obtain ⟨e, he, _⟩ := h
  exact (List.getElem?_eq_some_iff.1 he).1

/-- A bound reference leads to an entity of the document. -/
theorem ReferencesBound.lt_length (hd : d.ReferencesBound) {v w : Nat} (h : d.Refers v w) :
    w < d.entities.length := by
  obtain ⟨e, he, f, hf, r, hr, b, hb, rfl⟩ := h
  obtain ⟨b', hb', hfield⟩ := hd e (List.mem_of_getElem? he) f hf r hr
  obtain rfl : b = b' := Option.some.inj (hb.symm.trans hb')
  obtain ⟨key, hkey⟩ := Option.isSome_iff_exists.1 hfield
  rw [field?, Option.bind_eq_some_iff] at hkey
  obtain ⟨e', he', _⟩ := hkey
  exact (List.getElem?_eq_some_iff.1 he').1

/-- An entity has references exactly if it refers to some entity. -/
theorem ReferencesBound.hasReferences_iff (hd : d.ReferencesBound) {v : Nat} {e : Entity}
    (he : d.entities[v]? = some e) : e.hasReferences = true ↔ ∃ w, d.Refers v w := by
  rw [Entity.hasReferences, List.any_eq_true]
  constructor
  · rintro ⟨f, hf, hr⟩
    obtain ⟨r, hr⟩ := Option.isSome_iff_exists.1 hr
    obtain ⟨b, hb, _⟩ := hd e (List.mem_of_getElem? he) f hf r hr
    exact ⟨_, e, he, f, hf, r, hr, b, hb, rfl⟩
  · rintro ⟨w, e', he', f, hf, r, hr, _⟩
    obtain rfl : e = e' := Option.some.inj (he.symm.trans he')
    exact ⟨f, hf, by rw [Option.mem_def.1 hr]; rfl⟩

theorem edge_eq_refers : Heights.Edge d.edges = d.Refers := by
  funext v w
  exact propext mem_edges_iff

/-- Heights of the lists of edges are heights of the document. -/
theorem ReferencesBound.isHeight (hd : d.ReferencesBound) {height : Nat → Nat}
    (h : Heights.IsHeight d.edges height) : d.IsHeight height := by
  constructor
  · intro v e he hnone
    by_contra h0
    obtain ⟨w, hw, _⟩ := h.attained v h0
    have hsome := (hd.hasReferences_iff he).2 ⟨w, mem_edges_iff.1 hw⟩
    rw [hnone] at hsome
    cases hsome
  · intro v e he hsome
    obtain ⟨w, hw⟩ := (hd.hasReferences_iff he).1 hsome
    have hg := h.isGreatest_succ (mem_edges_iff.2 hw)
    simpa only [mem_edges_iff] using hg
  · intro v
    have hg := h.isGreatest_chain v
    rwa [edge_eq_refers] at hg

/-! ### Heights or a cycle -/

/-- The names of a cycle are the names of entities. -/
theorem forall₂_cycleNames {vs : List Nat} (hvs : ∀ v ∈ vs, v < d.entities.length) :
    List.Forall₂ (fun v name => ∃ e ∈ d.entities[v]?, e.name = name) vs
      (vs.map fun v => (d.entities[v]?).elim "" Entity.name) := by
  rw [List.forall₂_map_right_iff, List.forall₂_same]
  intro v hv
  have he := List.getElem?_eq_getElem (hvs v hv)
  rw [he]
  exact ⟨_, rfl, rfl⟩

/-- **The heights are found, or else a cycle.** -/
theorem setHeights_spec (hd : d.ReferencesBound) :
    (∃ height, d.setHeights = .ok (d.withHeights height) ∧
      Heights.IsHeight d.edges height) ∨
    ∃ cycle names, d.setHeights = fail (.referenceCycle names) ∧
      Heights.IsCycle d.edges cycle ∧
      List.Forall₂ (fun v name => ∃ e ∈ d.entities[v]?, e.name = name) cycle names := by
  have hedges : ∀ v, ∀ w ∈ d.edges.out v, w < d.edges.size := by
    intro v w hw
    rw [size_edges]
    exact hd.lt_length (mem_edges_iff.1 hw)
  have hspec := Heights.compute_spec hedges
  cases hr : Heights.compute d.edges with
  | ok heights =>
    rw [hr] at hspec
    exact .inl ⟨_, setHeights_of_ok hr, hspec⟩
  | error cycle =>
    rw [hr] at hspec
    refine .inr ⟨cycle, _, setHeights_of_error hr, hspec, forall₂_cycleNames ?_⟩
    intro u hu
    obtain ⟨w, hw⟩ := hspec.exists_edge hu
    exact (mem_edges_iff.1 hw).lt_length

end Document

namespace Watched

open Heights

/-- **Heights are computed without a fault** where the references are bound, and the walk ends. -/
theorem setHeights_eq {d : Document} (hd : d.ReferencesBound) :
    setHeights d = of d.setHeights := by
  have hedges : ∀ v, ∀ t ∈ d.edges.out v, t < d.edges.size := by
    intro v t ht
    rw [Document.size_edges]
    exact hd.lt_length (Document.mem_edges_iff.1 ht)
  have hspec := compute_spec hedges
  rw [setHeights, walk_eq hedges]
  cases hr : compute d.edges with
  | ok heights =>
    have hsize : heights.size = d.entities.length := by
      rw [size_of_compute hedges hr, Document.size_edges]
    have hread : (d.entities.zipIdx.mapM fun (e, i) => do
        return { e with height := ← read heights i } : Watched Error (List Entity)) =
        of (d.entities.zipIdx.mapM fun (e, i) => pure { e with height := heights.getD i 0 }) := by
      refine mapM_eq fun (e, i) hmem => ?_
      have hi : i < heights.size := by
        have hlt := (List.mk_mem_zipIdx_iff_getElem?.1 hmem)
        rw [hsize]
        exact (List.getElem?_eq_some_iff.1 hlt).1
      dsimp only
      rw [read_eq hi 0, pure_bind]
      rfl
    rw [Document.setHeights_of_ok hr]
    show (do return { d with entities := ← d.entities.zipIdx.mapM _ }) = _
    rw [hread, List.mapM_pure, of_pure, pure_bind]
    rfl
  | error cycle =>
    rw [hr] at hspec
    have hread : (cycle.mapM fun v => do
        return (← read d.entities.toArray v).name : Watched Error (List String)) =
        of (cycle.mapM fun v => pure ((d.entities[v]?).elim "" Entity.name)) := by
      refine mapM_eq fun v hv => ?_
      obtain ⟨t, ht⟩ := hspec.exists_edge hv
      have hlt : v < d.entities.length := (Document.mem_edges_iff.1 ht).lt_length
      rw [read, List.getElem?_toArray, List.getElem?_eq_getElem hlt]
      rfl
    rw [Document.setHeights_of_error hr]
    show (do of (fail (.referenceCycle (← cycle.mapM _)))) = _
    rw [hread, List.mapM_pure, of_pure, pure_bind]

end Watched

namespace Document

variable {d : Document}

/-- **Heights or a cycle.**  With its references bound, the walk over a document comes to its end.
The document gets heights exactly if no chain of references comes back to its start.  They are the
lengths of the longest chains.  Else the error names the entities along a cycle, which repeats none
but its first, at the end. -/
theorem heights_or_cycle (hd : d.ReferencesBound) :
    Watched.setHeights d = Watched.of d.setHeights ∧
    ((∃ d', d.setHeights = .ok d') ↔ ∀ v, ¬ Relation.TransGen d.Refers v v) ∧
    (∀ d', d.setHeights = .ok d' → ∃ height, d' = d.withHeights height ∧ d.IsHeight height) ∧
    (∀ err, d.setHeights = .error err →
      ∃ v rest names, (v :: rest).Nodup ∧ (v :: rest ++ [v]).IsChain d.Refers ∧
        List.Forall₂ (fun u name => ∃ e ∈ d.entities[u]?, e.name = name) (v :: rest ++ [v]) names ∧
        err = { cause := .referenceCycle names }) := by
  refine ⟨Watched.setHeights_eq hd, ?_⟩
  rcases setHeights_spec hd with ⟨height, hok, hheight⟩ | ⟨cycle, names, herr, hcycle, hnames⟩
  -- Where heights were found, they rule out a cycle.
  · have hacyclic : ∀ v, ¬ Relation.TransGen d.Refers v v := by
      intro v
      rw [← edge_eq_refers]
      exact hheight.acyclic v
    refine ⟨⟨fun _ => hacyclic, fun _ => ⟨_, hok⟩⟩, ?_, ?_⟩
    · intro d' hd'
      rw [hok] at hd'
      exact ⟨height, (Except.ok.inj hd').symm, hd.isHeight hheight⟩
    · intro err herr
      rw [hok] at herr
      cases herr
  -- Where a cycle was found, it leads from an entity back to it.
  · obtain ⟨u, hu⟩ := hcycle.transGen
    rw [edge_eq_refers] at hu
    obtain ⟨v, rest, rfl, hnodup, hc⟩ := hcycle
    rw [edge_eq_refers] at hc
    refine ⟨⟨?_, ?_⟩, ?_, ?_⟩
    · rintro ⟨d', hd'⟩
      rw [herr] at hd'
      cases hd'
    · intro hacyclic
      exact absurd hu (hacyclic u)
    · intro d' hd'
      rw [herr] at hd'
      cases hd'
    · intro err herr'
      rw [herr] at herr'
      exact ⟨v, rest, names, hnodup, hc, hnames, (Except.error.inj herr').symm⟩

/-- Entities `a`, `b` and `c` of one key each; `a` refers twice to `b`, and `b` to `c`.  When `ring`
is set, `c` refers to `a`. -/
def threeInARow (ring : Bool) : Document :=
  let entity (i : Fin 3) : Handle .entity := ⟨i, Nat.lt_trans i.isLt (by decide)⟩
  let field (i k : Fin 3) : FieldId := ⟨entity i, k, Nat.lt_trans k.isLt (by decide)⟩
  let key (i : Fin 3) : Field := { id := field i 0, name := "id", flags := { rowid := true } }
  let refer (i k : Fin 3) (name : String) (j : Fin 3) (target : String) : Field :=
    { id := field i k, name
      reference := some
        { sourceField := name, targetEntity := target, targetField := "id"
          binding := some ⟨field j 0, field i k⟩ } }
  { entities :=
      [{ Entity.declare (entity 0) "a" with
          fields := [key 0, refer 0 1 "first" 1 "b", refer 0 2 "second" 1 "b"] },
        { Entity.declare (entity 1) "b" with fields := [key 1, refer 1 1 "next" 2 "c"] },
        { Entity.declare (entity 2) "c" with
          fields := if ring then [key 2, refer 2 1 "back" 0 "a"] else [key 2] }] }

/-- Entities in a row have heights, and entities in a ring have none. -/
theorem heights_or_cycle_threeInARow :
    (∃ height, (threeInARow false).setHeights = .ok ((threeInARow false).withHeights height) ∧
      (threeInARow false).IsHeight height) ∧
    ∃ v rest names, (v :: rest).Nodup ∧ (v :: rest ++ [v]).IsChain (threeInARow true).Refers ∧
      List.Forall₂ (fun u name => ∃ e ∈ (threeInARow true).entities[u]?, e.name = name)
        (v :: rest ++ [v]) names ∧
      (threeInARow true).setHeights = .error { cause := .referenceCycle names } := by
  constructor
  · have hok : (threeInARow false).setHeights.isOk = true := by decide +kernel
    cases hd : (threeInARow false).setHeights with
    | ok d' =>
      obtain ⟨height, rfl, hheight⟩ := (heights_or_cycle (by decide +kernel)).2.2.1 d' hd
      exact ⟨height, rfl, hheight⟩
    | error err =>
      rw [hd] at hok
      cases hok
  · have herr : (threeInARow true).setHeights.isOk = false := by decide +kernel
    cases hd : (threeInARow true).setHeights with
    | ok d' =>
      rw [hd] at herr
      cases herr
    | error err =>
      obtain ⟨v, rest, names, hnodup, hc, hnames, rfl⟩ :=
        (heights_or_cycle (by decide +kernel)).2.2.2 err hd
      exact ⟨v, rest, names, hnodup, hc, hnames, rfl⟩

end Document

end DataModel
