/-!
# Handles

A *handle* names a declaration by its position: entities, enumerations and bit-field sets in
declaration order, roles in the order of the role tree, fields by their entity and their position in
it. Positions of 2³² and more have no handle. Linking stores handles where declarations stored
names, so that a consumer never looks a name up again.
-/

namespace DataModel

/-- What a handle can name. -/
inductive Handle.Kind
  | entity
  | role
  | enumeration
  | bitfield
  deriving DecidableEq

namespace Handle.Kind

/-- The kind as messages write it. -/
def noun : Kind → String
  | .entity => "entity"
  | .role => "role"
  | .enumeration => "enumeration"
  | .bitfield => "bitfield"

/-- The label in front of a printed handle of the kind. -/
def label : Kind → String
  | .entity => "EntityId"
  | .role => "RoleId"
  | .enumeration => "EnumId"
  | .bitfield => "BitfieldId"

end Handle.Kind

/-- The first position without a handle, 2³². -/
def Handle.bound : Nat := 0x100000000

/-- The position of a declaration of kind `k`. -/
structure Handle (k : Handle.Kind) where
  /-- The position. -/
  index : Nat
  index_lt : index < Handle.bound
  deriving DecidableEq

namespace Handle

variable {k : Kind}

/-- The handle of a position, if it has one. -/
def ofIndex? (n : Nat) : Option (Handle k) :=
  if h : n < bound then some ⟨n, h⟩ else none

/-- The handle as messages write it. -/
def text (h : Handle k) : String := k.label ++ "(" ++ toString h.index ++ ")"

@[ext]
theorem ext {a b : Handle k} (h : a.index = b.index) : a = b := by
  cases a; cases b; cases h; rfl

/-- The first position has a handle. -/
theorem bound_pos : 0 < bound := by decide

theorem one_lt_bound : 1 < bound := by decide

theorem two_lt_bound : 2 < bound := by decide

theorem ofIndex?_eq_some_iff {n : Nat} {h : Handle k} : ofIndex? n = some h ↔ h.index = n := by
  unfold ofIndex?
  split
  · exact ⟨fun e => by cases e; rfl, fun e => congrArg some (ext e.symm)⟩
  · next hn => exact ⟨nofun, fun e => absurd h.index_lt (e ▸ hn)⟩

theorem ofIndex?_index (h : Handle k) : ofIndex? h.index = some h := ofIndex?_eq_some_iff.2 rfl

/-- Every position has a handle or is out of bounds. -/
theorem ofIndex?_eq_none_iff {n : Nat} : ofIndex? (k := k) n = none ↔ bound ≤ n := by
  unfold ofIndex?
  split <;> simp <;> omega

end Handle

/-- The position of a field: its entity and its place among the fields of it. -/
structure FieldId where
  /-- The entity that holds the field. -/
  entity : Handle .entity
  /-- The place among its fields. -/
  index : Nat
  index_lt : index < Handle.bound
  deriving DecidableEq

namespace FieldId

/-- The handle of the field at a place of an entity, if it has one. -/
def ofIndex? (entity : Handle .entity) (n : Nat) : Option FieldId :=
  if h : n < Handle.bound then some ⟨entity, n, h⟩ else none

/-- The handle as messages write it. -/
def text (f : FieldId) : String :=
  "FieldId(" ++ toString f.entity.index ++ "." ++ toString f.index ++ ")"

/-- Handles of fields are ordered by entity, then by place. -/
def le (a b : FieldId) : Bool :=
  a.entity.index < b.entity.index || a.entity.index == b.entity.index && a.index ≤ b.index

@[ext]
theorem ext {a b : FieldId} (he : a.entity = b.entity) (hi : a.index = b.index) : a = b := by
  cases a; cases b; cases he; cases hi; rfl

theorem ofIndex?_eq_some_iff {entity : Handle .entity} {n : Nat} {f : FieldId} :
    ofIndex? entity n = some f ↔ f.entity = entity ∧ f.index = n := by
  unfold ofIndex?
  split
  · exact ⟨fun e => by cases e; exact ⟨rfl, rfl⟩,
      fun e => congrArg some (ext e.1.symm e.2.symm)⟩
  · next hn => exact ⟨nofun, fun e => absurd f.index_lt (e.2 ▸ hn)⟩

end FieldId

end DataModel
