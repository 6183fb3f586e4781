import DataModel.Proofs.Linking.BoundPaths
import DataModel.Proofs.Linking.FallingHeights

/-!
# Descending paths

A path goes from its entity through others: `Document.Route` lists them, the owner of every field on
the path, and last the entity that a path to an entity arrives at.

`Document.paths_descend`: in a linked document the heights fall along the route of every path of a
specification.  So a path comes to no entity twice, and has no more names than the height of its
entity allows: one more for a path to a value, and none more for a path to an entity.

The proof is one induction on the route.  Every field on it but the last leads into the next entity,
and the height falls wherever a field leads (`LinkSteps.height_lt_of_leadsTo`).
-/

namespace DataModel

/-! ### The paths of an entity -/

/-- The paths of a search, each with what it has to end at. -/
def Search.paths (s : Search) : List (Ending × Path) :=
  s.params.map (fun p => (.value, p.path)) ++ s.orders.map (fun o => (.value, o.path)) ++
    s.aggregate.toList.flatMap (fun a => [(.value, a.path), (.value, a.group)]) ++
    s.distinct.toList.map (fun x => (.entity, x.path))

/-- The paths of a mutation. -/
def Mutation.paths (m : Mutation) : List (Ending × Path) :=
  m.modify.map (fun c => (.value, c.path)) ++ m.constrain.map (fun c => (.value, c.path))

/-- The paths of all specifications of an entity. -/
def Entity.paths (e : Entity) : List (Ending × Path) :=
  e.searches.flatMap Search.paths ++ e.updates.flatMap Mutation.paths ++
    e.deletes.flatMap Mutation.paths ++ e.uniques.flatMap fun u => u.fields.map (.value, ·)

section

variable {d : Document} {e : Entity}

theorem Search.Bound.paths {s : Search} (h : s.Bound d e) :
    ∀ x ∈ s.paths, ∃ fs, x.2.Bound d e x.1 fs := by
  intro x hx
  simp only [Search.paths, List.mem_append, List.mem_map, List.mem_flatMap, Option.mem_toList,
    List.mem_cons, List.not_mem_nil, or_false] at hx
  rcases hx with ((⟨p, hp, rfl⟩ | ⟨o, ho, rfl⟩) | ⟨a, ha, rfl | rfl⟩) | ⟨y, hy, rfl⟩
  · obtain ⟨fs, f, hbound, _⟩ := h.params p hp
    exact ⟨_, hbound⟩
  · exact h.orders o ho
  · exact (h.aggregate a ha).1
  · exact (h.aggregate a ha).2
  · exact h.distinct y hy

theorem Mutation.Bound.paths {m : Mutation} (h : m.Bound d e) :
    ∀ x ∈ m.paths, ∃ fs, x.2.Bound d e x.1 fs := by
  intro x hx
  simp only [Mutation.paths, List.mem_append, List.mem_map] at hx
  rcases hx with ⟨c, hc, rfl⟩ | ⟨c, hc, rfl⟩
  · obtain ⟨f, hlocal, _⟩ := h.modify c hc
    exact ⟨_, hlocal.bound⟩
  · obtain ⟨fs, f, hbound, _⟩ := h.constrain c hc
    exact ⟨_, hbound⟩

/-- **Every path of a specification is bound.** -/
theorem Entity.SpecsBound.paths (h : e.SpecsBound d) :
    ∀ x ∈ e.paths, ∃ fs, x.2.Bound d e x.1 fs := by
  intro x hx
  simp only [Entity.paths, List.mem_append, List.mem_flatMap, List.mem_map] at hx
  rcases hx with ((⟨s, hs, hx⟩ | ⟨m, hm, hx⟩) | ⟨m, hm, hx⟩) | ⟨u, hu, p, hp, rfl⟩
  · exact (h.searches s hs).paths x hx
  · exact (h.updates m hm).paths x hx
  · exact (h.deletes m hm).paths x hx
  · obtain ⟨f, hlocal⟩ := h.uniques u hu p hp
    exact ⟨_, hlocal.bound⟩

end

/-! ### Routes -/

namespace Document

variable (d : Document)

/-- **The entities along some fields**, from the first one on.  Each field belongs to the entity at
its place and leads into the next one.  On the way to a value the last field need not lead on; on
the way to an entity it leads into the one that the route ends with. -/
inductive Route : Ending → Entity → List Field → List Entity → Prop
  | arrived {e : Entity} : Route .entity e [] [e]
  | value {e : Entity} {f : Field} (mem : f ∈ e.fields) : Route .value e [f] [e]
  | across {ending : Ending} {e next : Entity} {f : Field} {fs : List Field} {es : List Entity}
      (mem : f ∈ e.fields) (leads : d.LeadsTo f next) (further : Route ending next fs es) :
      Route ending e (f :: fs) (e :: es)

variable {d} {ending : Ending} {e : Entity} {fs : List Field} {es : List Entity}

/-- A walk has a route. -/
theorem Walk.exists_route {names : List String} (h : d.Walk ending e names fs) :
    ∃ es, d.Route ending e fs es := by
  induction h with
  | arrived => exact ⟨_, .arrived⟩
  | value named holds => exact ⟨_, .value named.mem⟩
  | across named leads further ih =>
    obtain ⟨es, hes⟩ := ih
    exact ⟨_, .across named.mem leads hes⟩

namespace Route

theorem mem_entities (h : d.Route ending e fs es) (he : e ∈ d.entities) :
    ∀ a ∈ es, a ∈ d.entities := by
  induction h with
  | arrived => exact List.forall_mem_singleton.2 he
  | value mem => exact List.forall_mem_singleton.2 he
  | across mem leads further ih => exact List.forall_mem_cons.2 ⟨he, ih leads.mem⟩

/-- A route to a value has an entity for each field. -/
theorem length_of_value (h : d.Route .value e fs es) : es.length = fs.length := by
  generalize hending : Ending.value = ending at h
  induction h with
  | arrived => cases hending
  | value mem => rfl
  | across mem leads further ih => rw [List.length_cons, List.length_cons, ih hending]

/-- A route to an entity has one more. -/
theorem length_of_entity (h : d.Route .entity e fs es) : es.length = fs.length + 1 := by
  generalize hending : Ending.entity = ending at h
  induction h with
  | arrived => rfl
  | value mem => cases hending
  | across mem leads further ih => rw [List.length_cons, List.length_cons, ih hending]

/-- The handles of the fields name their owners. -/
theorem owners (h : d.Route ending e fs es) (hd : d.Placed) (he : e ∈ d.entities) :
    (fs.map Field.id).map FieldId.entity = (es.take fs.length).map Entity.id := by
  have howner {e : Entity} (he : e ∈ d.entities) {f : Field} (hf : f ∈ e.fields) :
      f.id.entity = e.id := by
    obtain ⟨i, hi⟩ := List.mem_iff_getElem?.1 hf
    exact (hd.field e he i f hi).1
  induction h with
  | arrived => rfl
  | value mem => simp [howner he mem]
  | across mem leads further ih =>
    simp only [List.map_cons, List.length_cons, List.take_succ_cons, howner he mem, ih leads.mem]

end Route

variable {options : LinkOptions} {bound high granted : Document} {l : LinkedDocument}

/-- **The heights fall along a route.** -/
theorem LinkSteps.route_falls (s : LinkSteps options d bound high granted l)
    (h : l.document.Route ending e fs es) (he : e ∈ l.document.entities) :
    es.Pairwise (fun a b => b.height < a.height) ∧ (∀ a ∈ es, a.height ≤ e.height) ∧
      es.length ≤ e.height + 1 := by
  induction h with
  | arrived => simp
  | value mem => simp
  | @across _ e next _ _ es mem leads further ih =>
    obtain ⟨hfalls, hle, hlength⟩ := ih leads.mem
    have hlt : next.height < e.height := s.height_lt_of_leadsTo he mem leads
    refine ⟨List.pairwise_cons.2 ⟨fun a ha => ?_, hfalls⟩, ?_, ?_⟩
    · have := hle a ha
      omega
    · rw [List.forall_mem_cons]
      refine ⟨Nat.le_refl _, fun a ha => ?_⟩
      have := hle a ha
      omega
    · rw [List.length_cons]
      omega

/-- Entities whose heights fall are different. -/
theorem Placed.nodup_of_falls (hd : d.Placed) (hes : ∀ a ∈ es, a ∈ d.entities)
    (h : es.Pairwise fun a b => b.height < a.height) : (es.map Entity.id).Nodup := by
  rw [List.Nodup, List.pairwise_map]
  refine h.imp_of_mem fun {a b} ha hb hlt heq => ?_
  have hsame : some a = some b := by
    rw [← hd.entity?_id (hes a ha), ← hd.entity?_id (hes b hb), heq]
  obtain rfl := Option.some.inj hsame
  exact Nat.lt_irrefl _ hlt

end Document

/-! ### Descending paths -/

/-- The path of an entity follows the fields `fs` through the entities `es`, and descends. -/
structure Path.Descends (d : Document) (e : Entity) (ending : Ending) (p : Path)
    (fs : List Field) (es : List Entity) : Prop where
  route : d.Route ending e fs es
  chain : p.chain = fs.map Field.id
  owners : p.chain.map FieldId.entity = (es.take p.chain.length).map Entity.id
  resolved : p.chain.length = p.names.length
  falls : es.Pairwise fun a b => b.height < a.height
  /-- No entity is visited twice. -/
  once : (es.map Entity.id).Nodup
  value : ending = .value → p.names.length ≤ e.height + 1
  entity : ending = .entity → p.names.length ≤ e.height

namespace Document

variable {d : Document}

/-- **The paths of a linked document descend.** -/
theorem paths_descend {options : LinkOptions} {l : LinkedDocument} (h : d.link options = .ok l) :
    ∀ e ∈ l.document.entities, ∀ x ∈ e.paths, ∃ fs es, x.2.Descends l.document e x.1 fs es := by
  rintro e he ⟨ending, p⟩ hp
  obtain ⟨bound, high, granted, s⟩ := link_eq_ok_iff.1 h
  have hspecs := specsBound_of_bindSpecs_self s.placed s.bindSpecs_self e he
  obtain ⟨fs, hbound⟩ := hspecs.paths (ending, p) hp
  obtain ⟨es, hroute⟩ := hbound.walk.exists_route
  obtain ⟨hfalls, _, hlength⟩ := s.route_falls hroute he
  have howners := hroute.owners s.placed he
  have hnames : fs.length = p.names.length := hbound.walk.length_eq
  refine ⟨fs, es, hroute, hbound.chain, ?_, ?_, hfalls, ?_, ?_, ?_⟩
  · rw [hbound.chain, howners, List.length_map]
  · rw [hbound.chain, List.length_map, hnames]
  · exact s.placed.nodup_of_falls (hroute.mem_entities he) hfalls
  · rintro rfl
    have hes := hroute.length_of_value
    show p.names.length ≤ e.height + 1
    omega
  · rintro rfl
    have hes := hroute.length_of_entity
    show p.names.length ≤ e.height
    omega

/-- The sessions search through the persons that hold them, and select those persons. -/
theorem paths_descend_sessions :
    ∃ l, (sessions true).link .trusted = .ok l ∧
      (∃ e ∈ l.document.entities, ∃ x ∈ e.paths, x.1 = .value ∧ x.2.chain.length = 2) ∧
      (∃ e ∈ l.document.entities, ∃ x ∈ e.paths, x.1 = .entity ∧ x.2.chain.length = 1) ∧
      ∀ e ∈ l.document.entities, ∀ x ∈ e.paths,
        ∃ fs es, x.2.Descends l.document e x.1 fs es := by
  obtain ⟨l, h, hpaths⟩ := exists_ok_of_any (r := (sessions true).link .trusted)
    (p := fun l => decide (
      (∃ e ∈ l.document.entities, ∃ x ∈ e.paths, x.1 = .value ∧ x.2.chain.length = 2) ∧
      ∃ e ∈ l.document.entities, ∃ x ∈ e.paths, x.1 = .entity ∧ x.2.chain.length = 1))
    (by decide +kernel)
  obtain ⟨hvalue, hentity⟩ := of_decide_eq_true hpaths
  exact ⟨l, h, hvalue, hentity, paths_descend h⟩

end Document

end DataModel
