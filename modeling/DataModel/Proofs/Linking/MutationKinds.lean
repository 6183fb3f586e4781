import DataModel.Proofs.Editing
import DataModel.Proofs.Linking.BoundPaths
import DataModel.Proofs.Snapshot.Acceptance

/-!
# Updates and deletes of a linked document

A mutation is in the list of the updates or in that of the deletes of its entity, and holds its kind
besides.  Declaring it writes the two together, and no edit changes the kind
(`Entity.Filed.perform`), so every mutation of a document that was built is filed under its kind.

Linking refuses a mutation of kind `delete` that modifies fields, whichever list it is in, and does
not compare the kind with the list.  So the deletes of a linked document modify nothing exactly
where its mutations were filed under their kinds (`Document.deletes_modify_nothing`).  A snapshot
can hold others, and is loaded with them (`Snapshot.load_misfiled`).
-/

namespace DataModel

theorem Mutation.kind_perform (m : Mutation) (edit : MutationEdit) :
    (m.perform edit).kind = m.kind := by
  cases edit with
  | addModification | addConstraint | setDoc => rfl

namespace Entity

/-- Every mutation of the entity has the kind of the list that it is in. -/
structure Filed (e : Entity) : Prop where
  updates : ∀ m ∈ e.updates, m.kind = .update
  deletes : ∀ m ∈ e.deletes, m.kind = .delete

/-- Every mutation of kind `delete` modifies nothing, in either list. -/
def DeletesModifyNothing (e : Entity) : Prop :=
  ∀ m ∈ e.updates ++ e.deletes, m.kind = .delete → m.modify = []

/-- The updates are of kind `update`, and the deletes are of kind `delete` and modify nothing. -/
structure PureDeletes (e : Entity) : Prop extends e.Filed where
  modify : ∀ m ∈ e.deletes, m.modify = []

instance (e : Entity) : Decidable e.Filed :=
  decidable_of_iff ((∀ m ∈ e.updates, m.kind = .update) ∧ ∀ m ∈ e.deletes, m.kind = .delete)
    ⟨fun h => ⟨h.1, h.2⟩, fun h => ⟨h.updates, h.deletes⟩⟩

instance (e : Entity) : Decidable e.PureDeletes :=
  decidable_of_iff (e.Filed ∧ ∀ m ∈ e.deletes, m.modify = [])
    ⟨fun h => ⟨h.1, h.2⟩, fun h => ⟨h.toFiled, h.modify⟩⟩

variable {e e' : Entity}

theorem filed_unlinked : e.unlinked.Filed ↔ e.Filed := by
  have hupdates : (∀ m ∈ e.unlinked.updates, m.kind = .update) ↔
      ∀ m ∈ e.updates, m.kind = .update := List.forall_mem_map
  have hdeletes : (∀ m ∈ e.unlinked.deletes, m.kind = .delete) ↔
      ∀ m ∈ e.deletes, m.kind = .delete := List.forall_mem_map
  exact ⟨fun h => ⟨hupdates.1 h.updates, hdeletes.1 h.deletes⟩,
    fun h => ⟨hupdates.2 h.updates, hdeletes.2 h.deletes⟩⟩

/-! ### Edits -/

theorem filed_declare (id : Handle .entity) (name : String) : (declare id name).Filed :=
  ⟨fun _ hm => (nomatch hm), fun _ hm => (nomatch hm)⟩

/-- **No edit takes a mutation out of its kind.** -/
theorem Filed.perform {edit : EntityEdit} {r : Receipt} (he : e.Filed)
    (h : e.perform edit = .ok (r, e')) : e'.Filed := by
  cases change_of_perform h with
  | addUpdate fresh =>
    refine ⟨?_, he.deletes⟩
    rw [List.forall_mem_append, List.forall_mem_singleton]
    exact ⟨he.updates, rfl⟩
  | addDelete fresh =>
    refine ⟨he.updates, ?_⟩
    rw [List.forall_mem_append, List.forall_mem_singleton]
    exact ⟨he.deletes, rfl⟩
  | onUpdate found =>
    refine ⟨forall_mem_set he.updates ?_, he.deletes⟩
    rw [Mutation.kind_perform]
    exact he.updates _ (List.mem_of_getElem? found)
  | onDelete found =>
    refine ⟨he.updates, forall_mem_set he.deletes ?_⟩
    rw [Mutation.kind_perform]
    exact he.deletes _ (List.mem_of_getElem? found)
  | addField | addSearch | addUnique | grant | onField | onSearch | setUniqueFields | setInsert
  | setDoc | setHeight | swapFields =>
    -- These write other parts of the entity.
    exact ⟨he.updates, he.deletes⟩

end Entity

/-! ### Linking -/

variable {d : Document} {e : Entity}

/-- Linking a mutation checks its kind against what it modifies. -/
theorem Mutation.modify_eq_nil_of_link {m m' : Mutation} (h : m.link d e = .ok m')
    (hkind : m.kind = .delete) : m.modify = [] := by
  unfold link at h
  have hguard := (guardFlaw_eq_ok.1 h).1
  simpa [hkind] using hguard

theorem Entity.deletesModifyNothing_of_bindSpecs_self (h : e.bindSpecs d = .ok e) :
    e.DeletesModifyNothing := by
  obtain ⟨_, hupdates, hdeletes, _⟩ := link_self_of_bindSpecs_self h
  intro m hm
  rcases List.mem_append.1 hm with hm | hm
  · exact Mutation.modify_eq_nil_of_link (hupdates m hm)
  · exact Mutation.modify_eq_nil_of_link (hdeletes m hm)

theorem Entity.DeletesModifyNothing.pureDeletes_iff (h : e.DeletesModifyNothing) :
    e.PureDeletes ↔ e.Filed := by
  refine ⟨PureDeletes.toFiled, fun he => ⟨he, fun m hm => ?_⟩⟩
  exact h m (List.mem_append_right _ hm) (he.deletes m hm)

namespace Document

theorem Built.filed (hd : d.Built) : ∀ e ∈ d.entities, e.Filed :=
  hd.forall_entities Entity.filed_declare fun _ _ _ _ => Entity.Filed.perform

/-- **Deletes modify nothing, as far as they are filed as deletes.**  In a linked document every
mutation of kind `delete` modifies nothing.  The deletes of its entities are such mutations and the
updates are not exactly if the mutations that were declared are filed under their kinds; in a
document that was built they are. -/
theorem deletes_modify_nothing {options : LinkOptions} {l : LinkedDocument}
    (h : d.link options = .ok l) :
    (∀ e ∈ l.document.entities, e.DeletesModifyNothing) ∧
    ((∀ e ∈ l.document.entities, e.PureDeletes) ↔ ∀ e ∈ d.entities, e.Filed) ∧
    (d.Built → ∀ e ∈ l.document.entities, e.PureDeletes) := by
  obtain ⟨bound, high, granted, s⟩ := link_eq_ok_iff.1 h
  have hself := mapM_eq_self_iff.1 (eq_ok_of_put Document.entities (fun _ => rfl) s.bindSpecs_self)
  have hnothing : ∀ e ∈ l.document.entities, e.DeletesModifyNothing :=
    fun e he => Entity.deletesModifyNothing_of_bindSpecs_self (hself e he)
  have hfiled : (∀ e ∈ l.document.entities, e.PureDeletes) ↔ ∀ e ∈ d.entities, e.Filed := by
    rw [← s.forall_entities_iff fun _ => Entity.filed_unlinked]
    exact forall₂_congr fun e he => (hnothing e he).pureDeletes_iff
  exact ⟨hnothing, hfiled, fun hd => hfiled.2 hd.filed⟩

/-- The sessions have a delete, which links with nothing to modify. -/
theorem deletes_modify_nothing_sessions :
    ∃ l, (sessions true).link .trusted = .ok l ∧ (∃ e ∈ l.document.entities, e.deletes ≠ []) ∧
      ∀ e ∈ l.document.entities, e.PureDeletes := by
  obtain ⟨l, h, hdeletes⟩ := exists_ok_of_any (r := (sessions true).link .trusted)
    (p := fun l => decide (∃ e ∈ l.document.entities, e.deletes ≠ [])) (by decide +kernel)
  have hfiled : ∀ e ∈ (sessions true).entities, e.Filed := by decide +kernel
  exact ⟨l, h, of_decide_eq_true hdeletes, (deletes_modify_nothing h).2.1.2 hfiled⟩

/-- The sessions without grants, with their update and their delete, which has no name, in each
other's list. -/
def misfiled : Document :=
  (sessions false).mapEntities fun e =>
    { e with
      updates := e.deletes.map fun m => { m with name := none }
      deletes := e.updates
      rolemap := ⟨[]⟩ }

end Document

/-- **A snapshot brings in mutations that are not filed under their kinds**: sessions are loaded
with a delete that modifies a field, as it says that it is an update, and with an update that says
that it is a delete. -/
theorem Snapshot.load_misfiled :
    ∃ l, load {} (encode Document.misfiled) = .ok l ∧ ∃ e ∈ l.document.entities,
      (∃ m ∈ e.deletes, m.kind = .update ∧ m.modify ≠ []) ∧
      (∃ m ∈ e.updates, m.kind = .delete) ∧ ¬ e.PureDeletes :=
  exists_load_of_any (by decide +kernel) (by decide +kernel)

end DataModel
