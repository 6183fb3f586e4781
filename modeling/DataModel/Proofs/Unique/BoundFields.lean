import DataModel.Proofs.Linking.BoundPaths
import DataModel.Proofs.Linking.Trust
import DataModel.Proofs.Snapshot.Acceptance
import DataModel.Proofs.Unique.Keys

/-!
# The fields of bound constraints

Checked again, declarations are compared by their spellings; afterwards names are looked up.
`Document.uniques_apart` says that the fields are as different as the names were: in a document that
was linked with its declarations checked again, or loaded, every unique constraint is bound to two
fields of its entity at least, no two of which are the same, and no two constraints of an entity are
bound to the same fields.

The name of the field that a path is bound to is that of the path, the case aside
(`Path.BoundLocal.fold_name`).  So different names are bound to different fields
(`Unique.BoundTo.nodup`), and constraints that are bound to the same fields have the same names,
hence one key (`Unique.BoundTo.key_eq`).
-/

namespace DataModel

variable {d : Document} {e : Entity}

/-! ### One constraint -/

namespace Path.BoundLocal

variable {p : Path} {f : Field}

/-- A path with one name is bound to the first field of the name. -/
theorem named (h : p.BoundLocal d e f) :
    ∃ name, p.names = [name] ∧ FirstNamed Field.name name e.fields f ∧ f.type ≠ .struct := by
  obtain ⟨name, hname⟩ := List.length_eq_one_iff.1 h.single
  have hwalk := h.bound.walk
  rw [hname] at hwalk
  cases hwalk with
  | value named holds => exact ⟨name, hname, named, holds⟩
  | across _ _ further => cases further

/-- **The field has the name of the path.** -/
theorem fold_name (h : p.BoundLocal d e f) : Ident.fold p.dotted = Ident.fold f.name := by
  obtain ⟨name, hname, ⟨_, _, _, hfold, _⟩, _⟩ := h.named
  have hdotted : p.dotted = name := by
    rw [dotted, hname]
    rfl
  rw [hdotted, hfold]

theorem mem (h : p.BoundLocal d e f) : f ∈ e.fields := by
  obtain ⟨_, _, hfirst, _⟩ := h.named
  exact hfirst.mem

theorem type_ne_struct (h : p.BoundLocal d e f) : f.type ≠ .struct := by
  obtain ⟨_, _, _, htype⟩ := h.named
  exact htype

end Path.BoundLocal

namespace Unique

variable {u v : Unique} {fs gs : List Field}

/-- The handles of the fields that the constraint is bound to. -/
def boundIds (u : Unique) : List FieldId := u.fields.flatMap Path.chain

/-- The constraint is bound to these fields of the entity, in order. -/
structure BoundTo (e : Entity) (u : Unique) (fs : List Field) : Prop where
  chains : u.fields.map Path.chain = fs.map fun f => [f.id]
  names : u.names = fs.map fun f => Ident.fold f.name
  fields : ∀ f ∈ fs, f ∈ e.fields ∧ f.type ≠ .struct

/-- A bound constraint is bound to a list of fields. -/
theorem Bound.exists_fields (h : u.Bound d e) : ∃ fs, u.BoundTo e fs := by
  obtain ⟨ps⟩ := u
  replace h : ∀ p ∈ ps, ∃ f, p.BoundLocal d e f := h
  induction ps with
  | nil => exact ⟨[], rfl, rfl, List.forall_mem_nil _⟩
  | cons p ps ih =>
    rw [List.forall_mem_cons] at h
    obtain ⟨⟨f, hf⟩, hps⟩ := h
    obtain ⟨fs, hchains, hnames, hfields⟩ := ih hps
    refine ⟨f :: fs, ?_, ?_, ?_⟩
    · show p.chain :: ps.map Path.chain = _
      rw [hchains, hf.bound.chain]
      rfl
    · show Ident.fold p.dotted :: names ⟨ps⟩ = _
      rw [hnames, hf.fold_name]
      rfl
    · exact List.forall_mem_cons.2 ⟨⟨hf.mem, hf.type_ne_struct⟩, hfields⟩

theorem BoundTo.boundIds_eq (h : u.BoundTo e fs) : u.boundIds = fs.map Field.id := by
  rw [boundIds, List.flatMap_def, h.chains, ← List.flatMap_def, List.map_eq_flatMap]

theorem BoundTo.length_eq (h : u.BoundTo e fs) : fs.length = u.fields.length := by
  have hlength := congrArg List.length h.chains
  rw [List.length_map, List.length_map] at hlength
  exact hlength.symm

section

variable (hd : d.Placed) (he : e ∈ d.entities)

include hd he

/-- Fields of an entity are told apart by their handles. -/
theorem eq_of_id_eq {f g : Field} (hf : f ∈ e.fields) (hg : g ∈ e.fields) (h : f.id = g.id) :
    f = g := by
  have hfound := hd.field?_id he hf
  rw [h, hd.field?_id he hg] at hfound
  exact (Option.some.inj hfound).symm

/-- **Different names are bound to different fields.** -/
theorem BoundTo.nodup (h : u.BoundTo e fs) (honce : u.repeatedField? = none) :
    u.boundIds.Nodup := by
  rw [repeatedField?_eq_none_iff, h.names] at honce
  rw [h.boundIds_eq]
  refine (List.Nodup.of_map _ honce).map_on fun f hf g hg hid => ?_
  exact eq_of_id_eq hd he (h.fields f hf).1 (h.fields g hg).1 hid

/-- Names that are bound to fields among those of another constraint are among its names. -/
theorem BoundTo.names_subset (hu : u.BoundTo e fs) (hv : v.BoundTo e gs)
    (h : u.boundIds ⊆ v.boundIds) : u.names ⊆ v.names := by
  rw [hu.boundIds_eq, hv.boundIds_eq] at h
  intro n hn
  rw [hu.names] at hn
  obtain ⟨f, hf, rfl⟩ := List.mem_map.1 hn
  obtain ⟨g, hg, hid⟩ := List.mem_map.1 (h (List.mem_map_of_mem hf))
  obtain rfl := eq_of_id_eq hd he (hv.fields g hg).1 (hu.fields f hf).1 hid
  rw [hv.names]
  exact List.mem_map_of_mem hg

/-- **Constraints that are bound to the same fields have one key.** -/
theorem BoundTo.key_eq (hu : u.BoundTo e fs) (hv : v.BoundTo e gs)
    (huonce : u.repeatedField? = none) (hvonce : v.repeatedField? = none)
    (h : ∀ id, id ∈ u.boundIds ↔ id ∈ v.boundIds) : u.key = v.key := by
  apply key_eq_of_perm
  rw [repeatedField?_eq_none_iff] at huonce hvonce
  rw [List.perm_ext_iff_of_nodup huonce hvonce]
  intro n
  constructor
  · exact fun hn => hu.names_subset hd he hv (fun id hid => (h id).1 hid) hn
  · exact fun hn => hv.names_subset hd he hu (fun id hid => (h id).2 hid) hn

end

end Unique

/-! ### Linked documents -/

namespace Document

/-- Every constraint of the entity is bound to two fields of the entity at least, to no field twice
and to no `struct`, and no two constraints are bound to the same fields. -/
structure UniquesApart (d : Document) (e : Entity) : Prop where
  bound : ∀ u ∈ e.uniques, ∃ fs : List Field, u.fields.map Path.chain = fs.map (fun f => [f.id]) ∧
    2 ≤ fs.length ∧ (fs.map Field.id).Nodup ∧
    ∀ f ∈ fs, f ∈ e.fields ∧ d.field? f.id = some f ∧ f.type ≠ .struct
  apart : e.uniques.Pairwise fun u v => ¬∀ id, id ∈ u.boundIds ↔ id ∈ v.boundIds

/-- An entity whose constraints were checked again and are bound. -/
theorem uniquesApart_of_bound (hd : d.Placed) (he : e ∈ d.entities)
    (hchecked : Unique.checkDeclared [] e.uniques = .ok ())
    (hbound : ∀ u ∈ e.uniques, u.Bound d e) : d.UniquesApart e := by
  obtain ⟨hformed, hkeys, _⟩ := Unique.checkDeclared_eq_ok_iff.1 hchecked
  constructor
  · intro u hu
    obtain ⟨fs, hfs⟩ := (hbound u hu).exists_fields
    obtain ⟨hlong, honce⟩ := hformed u hu
    refine ⟨fs, hfs.chains, hfs.length_eq ▸ hlong, ?_, fun f hf => ?_⟩
    · rw [← hfs.boundIds_eq]
      exact hfs.nodup hd he honce
    · obtain ⟨hmem, htype⟩ := hfs.fields f hf
      exact ⟨hmem, hd.field?_id he hmem, htype⟩
  · rw [List.Nodup, List.pairwise_map] at hkeys
    refine hkeys.imp_of_mem fun {u v} hu hv hne hsame => hne ?_
    obtain ⟨fs, hfs⟩ := (hbound u hu).exists_fields
    obtain ⟨gs, hgs⟩ := (hbound v hv).exists_fields
    exact hfs.key_eq hd he hgs (hformed u hu).2 (hformed v hv).2 hsame

/-- The constraints of a linked document were checked if its declarations were. -/
theorem LinkSteps.uniques_checked {options : LinkOptions} {bound high granted : Document}
    {l : LinkedDocument} (s : LinkSteps options d bound high granted l)
    (hrecheck : options.recheck = true) :
    ∀ e ∈ l.document.entities, Unique.checkDeclared [] e.uniques = .ok () := by
  have hchecked : ∀ e ∈ l.document.entities, e.checkDeclared = .ok () := by
    rw [s.forall_entities_iff fun e => by rw [Entity.checkDeclared_unlinked]]
    exact (checkDeclared_eq_ok_iff.1 (s.declared hrecheck)).2.1
  intro e he
  have h := hchecked e he
  simp only [Entity.checkDeclared, bind_eq_ok] at h
  obtain ⟨_, _, _, _, _, _, _, _, _, huniques, _⟩ := h
  exact huniques

theorem uniquesApart_of_link {options : LinkOptions} {l : LinkedDocument}
    (hrecheck : options.recheck = true) (h : d.link options = .ok l) :
    ∀ e ∈ l.document.entities, l.document.UniquesApart e := by
  obtain ⟨bound, high, granted, s⟩ := link_eq_ok_iff.1 h
  intro e he
  have hspecs := specsBound_of_bindSpecs_self s.placed s.bindSpecs_self e he
  exact uniquesApart_of_bound s.placed he (s.uniques_checked hrecheck e he) hspecs.uniques

/-- **The unique constraints of a checked document are apart.**  This is for documents that are
linked with their declarations checked again, and for those that are loaded from a snapshot. -/
theorem uniques_apart {options : LinkOptions} {l : LinkedDocument}
    (h : (∃ d : Document, options.recheck = true ∧ d.link options = .ok l) ∨
      ∃ bytes, Snapshot.load options bytes = .ok l) :
    ∀ e ∈ l.document.entities, l.document.UniquesApart e := by
  rcases h with ⟨d, hrecheck, h⟩ | ⟨bytes, h⟩
  · exact uniquesApart_of_link hrecheck h
  · obtain ⟨d, _, h⟩ := Snapshot.load_eq_ok_iff.1 h
    exact uniquesApart_of_link rfl h

/-- An entity with two constraints, which share a field. -/
def subscriber : Entity :=
  let field (i : Nat) (hi : i < Handle.bound) (name : String) : Field :=
    { id := ⟨⟨0, Handle.bound_pos⟩, i, hi⟩, name }
  { Entity.declare ⟨0, Handle.bound_pos⟩ "subscriber" with
    fields := [field 0 Handle.bound_pos "Email", field 1 Handle.one_lt_bound "phone",
      field 2 Handle.two_lt_bound "tenant"]
    uniques := [.ofTexts ["email", "Tenant"], .ofTexts ["PHONE", "tenant"]] }

/-- The constraints of the subscriber are admitted. -/
theorem checkDeclared_subscriber :
    checkDeclared { entities := [subscriber] } = .ok () := by
  have hnames : (Unique.ofTexts ["email", "Tenant"]).names = ["email", "tenant"] ∧
      (Unique.ofTexts ["PHONE", "tenant"]).names = ["phone", "tenant"] := by
    rw [Unique.names_ofTexts, Unique.names_ofTexts]
    decide +kernel
  have huniques : Unique.checkDeclared [] subscriber.uniques = .ok () := by
    refine Unique.checkDeclared_eq_ok_iff.2 ⟨?_, ?_, fun _ _ => List.not_mem_nil⟩
    · simp only [subscriber, List.forall_mem_cons, Unique.WellFormed,
        Unique.repeatedField?_eq_none_iff, hnames]
      decide
    · have hkeys : subscriber.uniques.map Unique.key = ["email,tenant", "phone,tenant"] := by
        simp only [subscriber, List.map_cons, List.map_nil]
        rw [Unique.key_of_pairwise (by rw [hnames.1]; decide),
          Unique.key_of_pairwise (by rw [hnames.2]; decide), hnames.1, hnames.2]
        decide +kernel
      rw [hkeys]
      decide
  have hsubscriber : subscriber.checkDeclared = .ok () := by
    have hfields : Scope.field.checkDeclared [] (subscriber.fields.map Field.name) = .ok () := by
      decide +kernel
    rw [Entity.checkDeclared, hfields, huniques]
    rfl
  refine checkDeclared_eq_ok_iff.2 ⟨by decide +kernel, ?_, List.forall_mem_nil _,
    List.forall_mem_nil _⟩
  exact List.forall_mem_singleton.2 hsubscriber

/-- The subscriber links with its declarations checked again, and has two constraints. -/
theorem uniques_apart_subscriber :
    ∃ l, link {} { entities := [subscriber] } = .ok l ∧
      ∃ e ∈ l.document.entities, e.uniques.length = 2 ∧ l.document.UniquesApart e := by
  obtain ⟨l, h, hp⟩ := exists_ok_of_any (r := link .trusted { entities := [subscriber] })
    (p := fun l => decide (∃ e ∈ l.document.entities, e.uniques.length = 2)) (by decide +kernel)
  obtain ⟨e, he, htwo⟩ := of_decide_eq_true hp
  obtain ⟨bound, high, granted, s⟩ := link_eq_ok_iff.1 h
  have hlink : link {} { entities := [subscriber] } = .ok l :=
    link_eq_ok_iff.2
      ⟨bound, high, granted, { s with declared := fun _ => checkDeclared_subscriber }⟩
  exact ⟨l, hlink, e, he, htwo, uniques_apart (.inl ⟨_, rfl, hlink⟩) e he⟩

end Document

end DataModel
