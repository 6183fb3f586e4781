import DataModel.Proofs.Editing
import DataModel.Proofs.Linking.Placement
import DataModel.Proofs.Naming.Headings

/-!
# The names within an entity

An entity owns four lists of names (`Entity.Part`), those of its fields and of its named searches,
updates and deletes.  Two facts say what an edit of the entity does to them.  If it is carried out,
it adds the name that it asks for to its list, if it asks for one, and keeps all other names
(`Entity.step_of_perform`).  And whether an edit that asks for a name is carried out is decided
by the check of the name among those of its list (`Entity.decided_of_request`).
-/

namespace DataModel

/-! ### Checks that decide -/

/-- A result that a check decides: it is refused for the error of the check, and if the check passes
and there is room, it is there. -/
structure Decided {α : Type} (check : Except Error Unit) (room : Prop) (result : Except Refusal α) :
    Prop where
  refused : ∀ e, check = .error e → result = .error (.error e)
  carriedOut : check = .ok () → room → ∃ a, result = .ok a

namespace Decided

variable {α β : Type} {check : Except Error Unit} {room : Prop}

/-- A check in front of a computation that succeeds where there is room. -/
theorem attempt {f : Unit → Except Error α} (hf : room → ∃ a, f () = .ok a) :
    Decided check room (attempt (check >>= f)) := by
  constructor
  · rintro e rfl
    rfl
  · rintro rfl hroom
    obtain ⟨a, ha⟩ := hf hroom
    exact ⟨a, attempt_eq_ok.2 ha⟩

/-- A check in front of a declaration that succeeds if there is a handle for it. -/
theorem declare {handle : Except Error β} {f : β → α} (hhandle : room → ∃ id, handle = .ok id) :
    Decided check room
      (DataModel.attempt (check >>= fun _ => handle >>= fun id => pure (f id))) := by
  refine .attempt fun hroom => ?_
  obtain ⟨id, hid⟩ := hhandle hroom
  rw [hid]
  exact ⟨f id, rfl⟩

/-- What follows and always succeeds changes nothing. -/
theorem bind {result : Except Refusal α} {f : α → Except Refusal β}
    (h : Decided check room result) (hf : ∀ a, ∃ b, f a = .ok b) :
    Decided check room (result >>= f) := by
  constructor
  · intro e he
    rw [h.refused e he]
    rfl
  · intro hcheck hroom
    obtain ⟨a, ha⟩ := h.carriedOut hcheck hroom
    rw [ha]
    exact hf a

/-- What was carried out passed the check. -/
theorem check_eq_ok {result : Except Refusal α} {a : α} (h : Decided check room result)
    (hresult : result = .ok a) : check = .ok () := by
  cases hcheck : check with
  | ok u => rfl
  | error e =>
    rw [h.refused e hcheck] at hresult
    cases hresult

end Decided

/-- An edit of a member that is there. -/
theorem editAt_of_getElem? {α β : Type} {l : List α} {i : Nat} {what : Missing}
    {edit : α → Except Refusal (β × α)} {a : α} (ha : l[i]? = some a) :
    editAt l i what edit = edit a >>= fun p => pure (p.1, l.set i p.2) := by
  rw [editAt, ha]
  rfl

/-- A position in bounds has a handle. -/
theorem Handle.exists_allocate {k : Handle.Kind} {n : Nat} (h : n < Handle.bound) :
    ∃ id : Handle k, Handle.allocate n = .ok id :=
  ⟨⟨n, h⟩, allocate_eq_ok.2 rfl⟩

theorem FieldId.exists_allocate (entity : Handle .entity) {n : Nat} (h : n < Handle.bound) :
    ∃ id, FieldId.allocate entity n = .ok id :=
  ⟨⟨entity, n, h⟩, allocate_eq_ok.2 ⟨rfl, rfl⟩⟩

/-! ### Fields, searches and mutations keep their names -/

/-- An edit of a field keeps its handle and its name. -/
theorem Field.identity_of_perform {f f' : Field} {edit : FieldEdit} (h : f.perform edit = .ok f') :
    f'.id = f.id ∧ f'.name = f.name := by
  cases edit with
  | setType | setStruct | setReference | setDefault =>
    have hset := attempt_eq_ok.1 h
    simp only [setType, setStruct, setReference, setDefault] at hset
    split_ifs at hset
    all_goals simp only [failFlaw_ne_ok, fail_ne_ok, Except.ok.injEq] at hset
    subst hset
    exact ⟨rfl, rfl⟩
  | renameSource | renameStructSource =>
    simp only [perform, bind_eq_ok, pure_eq_ok] at h
    obtain ⟨_, _, rfl⟩ := h
    exact ⟨rfl, rfl⟩
  | renameLink name =>
    rw [perform, renameLink] at h
    split at h
    case h_3 => cases h
    all_goals
      obtain rfl := Except.ok.inj h
      exact ⟨rfl, rfl⟩
  | setEnumeration | setBitfield | addValidation | setFlag | setOnUpdate | setOnDelete | setDoc =>
    obtain rfl := Except.ok.inj h
    exact ⟨rfl, rfl⟩

@[simp]
theorem Search.name_perform (s : Search) (edit : SearchEdit) : (s.perform edit).name = s.name := by
  cases edit <;> rfl

@[simp]
theorem Mutation.name_perform (m : Mutation) (edit : MutationEdit) :
    (m.perform edit).name = m.name := by
  cases edit <;> rfl

/-! ### Entities -/

/-- The lists of names that an entity owns. -/
inductive Entity.Part
  | fields
  | searches
  | updates
  | deletes
  deriving DecidableEq

/-- The scope of the names in a list. -/
def Entity.Part.scope : Entity.Part → Scope
  | .fields => .field
  | .searches => .search
  | .updates => .update
  | .deletes => .delete

/-- The name that an edit of an entity asks for. -/
def EntityEdit.request? : EntityEdit → Option (Request Entity.Part)
  | .addField name => some ⟨.fields, name⟩
  | .addSearch _ name => name.map (⟨.searches, ·⟩)
  | .addUpdate name => name.map (⟨.updates, ·⟩)
  | .addDelete name => name.map (⟨.deletes, ·⟩)
  | _ => none

/-- The edit exchanges no members of a list. -/
def EntityEdit.keepsOrder : EntityEdit → Bool
  | .swapFields _ _ => false
  | _ => true

namespace Entity

variable {e e' : Entity} {edit : EntityEdit} {r : Receipt}

/-- The names in a list of an entity. -/
def names (e : Entity) : Part → List String
  | .fields => e.fields.map Field.name
  | .searches => e.searches.filterMap Search.name
  | .updates => e.updates.filterMap Mutation.name
  | .deletes => e.deletes.filterMap Mutation.name

/-- What the naming rules see of an entity. -/
def heading (e : Entity) : Heading .entity Part :=
  { id := e.id, name := e.name, canonical := e.canonical, parts := e.names }

/-- An optional name is asked for in one list. -/
theorem namesIn_optional (listing : Part) (name : Option String) (part : Part) :
    namesIn (name.map (⟨listing, ·⟩)).toList part = if listing = part then name.toList else [] := by
  cases name with
  | none => exact (ite_self _).symm
  | some name =>
    by_cases hpart : listing = part
    · rw [if_pos hpart]
      exact namesIn_of_eq hpart
    · rw [if_neg hpart]
      exact namesIn_of_ne hpart

/-- The change adds the name that is asked for to its list, if one is asked for. -/
structure Step (ordered : Bool) (request : Option (Request Part)) (e e' : Entity) : Prop where
  heading : e'.heading = { e.heading with parts := e'.names }
  names : ∀ part, Arranged ordered (e.names part ++ namesIn request.toList part) (e'.names part)

/-- No name is asked for, and all are kept. -/
theorem Step.of_kept {ordered : Bool} (hheading : e'.heading = { e.heading with parts := e'.names })
    (hfields : e'.fields.map Field.name = e.fields.map Field.name)
    (hsearches : e'.searches.filterMap Search.name = e.searches.filterMap Search.name)
    (hupdates : e'.updates.filterMap Mutation.name = e.updates.filterMap Mutation.name)
    (hdeletes : e'.deletes.filterMap Mutation.name = e.deletes.filterMap Mutation.name) :
    Step ordered none e e' := by
  refine ⟨hheading, fun part => .of_eq ?_⟩
  rw [Option.toList_none, namesIn_nil, List.append_nil]
  cases part with
  | fields => exact hfields.symm
  | searches => exact hsearches.symm
  | updates => exact hupdates.symm
  | deletes => exact hdeletes.symm

/-- **What an edit does to the names of an entity**: it adds the name that it asks for, if it asks
for one. -/
theorem step_of_perform (h : e.perform edit = .ok (r, e')) :
    Step edit.keepsOrder edit.request? e e' := by
  cases change_of_perform h with
  -- What was declared stands at the end of its list.
  | addField =>
    refine ⟨rfl, fun part => .of_eq ?_⟩
    cases part
    all_goals simp [names, EntityEdit.request?, namesIn]
  | @addSearch kind name | @addUpdate name | @addDelete name =>
    refine ⟨rfl, fun part => .of_eq ?_⟩
    rw [EntityEdit.request?, namesIn_optional]
    cases part
    all_goals cases name
    all_goals simp [names]
  -- What was edited has its name.
  | onField addressed found edited =>
    have hname := (Field.identity_of_perform edited).2
    exact .of_kept rfl (map_set_of_eq found hname) rfl rfl rfl
  | @onSearch _ edit s found =>
    exact .of_kept rfl rfl (filterMap_set_of_eq found (s.name_perform edit)) rfl rfl
  | @onUpdate _ edit m found =>
    exact .of_kept rfl rfl rfl (filterMap_set_of_eq found (m.name_perform edit)) rfl
  | @onDelete _ edit m found =>
    exact .of_kept rfl rfl rfl rfl (filterMap_set_of_eq found (m.name_perform edit))
  -- Exchanged fields have changed places.
  | @swapFields i j fields swapped =>
    refine ⟨rfl, fun part => .of_perm ?_⟩
    have hnone : namesIn (EntityEdit.swapFields i j).request?.toList part = [] := rfl
    rw [hnone, List.append_nil]
    cases part with
    | fields => exact (perm_of_swapAt swapped).map Field.name
    | searches | updates | deletes => exact .refl _
  | addUnique | grant | setUniqueFields | setInsert | setDoc | setHeight =>
    exact .of_kept rfl rfl rfl rfl rfl

/-- A name is checked against the names that are there. -/
theorem checkOptional_some {α : Type} (scope : Scope) (name : String) (see : α → Option String)
    (l : List α) :
    checkOptional scope (some name) (l.map see) = scope.checkNew name (l.filterMap see) := by
  rw [checkOptional, List.filterMap_map]
  rfl

/-- **Whether an entity gets a new name** is decided by the check of the name. -/
theorem decided_of_request {q : Request Part} (h : edit.request? = some q) :
    Decided (q.listing.scope.checkNew q.name (e.names q.listing))
      ((e.names q.listing).length < Handle.bound) (e.perform edit) := by
  cases edit with
  | addField name =>
    obtain rfl := Option.some.inj h
    rw [names, List.length_map]
    exact .bind (.declare (FieldId.exists_allocate e.id)) fun _ => ⟨_, rfl⟩
  | addSearch kind name =>
    obtain ⟨name, rfl, rfl⟩ := Option.map_eq_some_iff.1 h
    refine .bind ?_ fun e' => ⟨_, rfl⟩
    rw [addSearch, checkOptional_some]
    exact .attempt fun _ => ⟨_, rfl⟩
  | addUpdate name =>
    obtain ⟨name, rfl, rfl⟩ := Option.map_eq_some_iff.1 h
    refine .bind ?_ fun e' => ⟨_, rfl⟩
    rw [addUpdate, checkOptional_some]
    exact .attempt fun _ => ⟨_, rfl⟩
  | addDelete name =>
    obtain ⟨name, rfl, rfl⟩ := Option.map_eq_some_iff.1 h
    refine .bind ?_ fun e' => ⟨_, rfl⟩
    rw [addDelete, checkOptional_some]
    exact .attempt fun _ => ⟨_, rfl⟩
  | _ => cases h

end Entity

end DataModel
