import DataModel.Inventory
import DataModel.Linking.Grants
import DataModel.Proofs.Linking.RoleNames
import DataModel.Proofs.Safety.Watched

/-!
# Flags for roles, and the release of the tree

A role tree that was read from a snapshot may list any handle as a child, any number of times, and
may go round in circles.  Three computations follow its handles all the same.

* The check that it is a forest keeps a flag for every role and looks at the flag of a role once it
  was found.  It ends because every round but the last one sets a flag (`Watched.checkForest_eq`).
* The search for unused roles sets the flags of the roles that were granted; these were found by
  their names (`Watched.unusedRoles_eq`).
* The release of the tree takes the children of a role out of the tree before it follows them, so
  that every listed child is followed once, whatever the lists hold (`Watched.teardown_eq`).  What
  following a child takes from the stack of a machine is not modelled.
-/

namespace DataModel.Watched

/-! ### Watched forms -/

/-- Visits the roles that are still `pending`, each with the role that lists it. There is a flag for
every role, set for those that were `reached`. -/
def reach (t : RoleTree) : (steps : Nat) → (reached : Array Bool) →
    (pending : List (Option (Handle .role) × Handle .role)) → Watched Error (Array Bool)
  | _, reached, [] => return reached
  | 0, _, _ :: _ => stop .endless
  | steps + 1, reached, (lister, id) :: pending =>
    match t.get? id with
    | none => of (failFlaw (.unknownRoleListed id.index))
    | some role =>
      if role.parent ≠ lister then of (.error (t.broken id .wrongParent))
      else do
        if ← read reached id.index then of (.error (t.broken id .repeated))
        else
          let reached ← write reached id.index true
          reach t steps reached (role.children.map (some id, ·) ++ pending)

/-- Checks that parents and children describe one forest, in which no flag is left unset. -/
def checkForest (t : RoleTree) : Watched Error Unit := do
  let n := t.roles.length
  let reached ← reach t (n + 1) (Array.replicate n false) (t.roots.map (none, ·))
  match reached.toList.findIdx? (!·) with
  | none => return
  | some i => of (do throw (t.broken (← Handle.allocate i) .detached))

/-- Sets the flags of some roles. -/
def setFlags (flags : Array Bool) : List (Handle .role) → Watched Error (Array Bool)
  | [] => return flags
  | id :: ids => do setFlags (← write flags id.index true) ids

/-- The declared ones among some roles whose flag is not set. -/
def unflagged (t : RoleTree) (flags : Array Bool) :
    List (Handle .role) → Watched Error (List (Handle .role))
  | [] => return []
  | id :: ids => do
    if (t.get? id).any (!·.implicit) then
      if ← read flags id.index then unflagged t flags ids
      else return id :: (← unflagged t flags ids)
    else unflagged t flags ids

/-- The declared roles that no bound grant names, in the order of their handles. -/
def unusedRoles (d : Document) : Watched Error (List (Handle .role)) := do
  let n := d.roles.roles.length
  unflagged d.roles (← setFlags (Array.replicate n false) d.grantedRoles) (RoleTree.handles n)

/-- The role without what it releases. -/
def emptied (r : Role) : Role := { r with doc := none, children := [] }

/-- The number of declared roles met from the `pending` ones on, when the children of a role are
taken out of the list of roles before they are followed. -/
def release : (steps : Nat) → (roles : List Role) → (pending : List (Handle .role)) →
    Watched Error Nat
  | _, _, [] => return 0
  | 0, _, _ :: _ => stop .endless
  | steps + 1, roles, id :: pending =>
    match roles[id.index]? with
    | none => release steps roles pending
    | some role => do
      let roles := roles.modify id.index emptied
      return (if role.implicit then 0 else 1) + (← release steps roles (role.children ++ pending))

/-- How many children some roles list. -/
def listed (roles : List Role) : Nat := (roles.flatMap Role.children).length

/-- The number of declarations that go away with a document. -/
def teardown (d : Document) : Watched Error Inventory := do
  let roots := d.roles.roots
  let roles ← release (roots.length + listed d.roles.roles) d.roles.roles roots
  return { d.inventory with roles }

/-! ### The forest -/

/-- The flags that are not set are those of the unreached roles, and of roles without a handle. -/
structure Flags (t : RoleTree) (reached : Array Bool) (unreached : List (Handle .role)) : Prop where
  size : reached.size = t.roles.length
  handles : unreached =
    (RoleTree.handles t.roles.length).filter fun id => !reached.getD id.index false
  beyond : ∀ i, Handle.bound ≤ i → reached.getD i false = false

variable {t : RoleTree} {reached : Array Bool} {unreached : List (Handle .role)}
  {id : Handle .role} {role : Role}

theorem lt_length_of_get? (h : t.get? id = some role) : id.index < t.roles.length :=
  (List.getElem?_eq_some_iff.1 h).1

theorem Flags.mem_iff (h : Flags t reached unreached) (hid : t.get? id = some role) :
    id ∈ unreached ↔ reached.getD id.index false = false := by
  rw [h.handles, List.mem_filter, RoleTree.mem_handles_iff, Bool.not_eq_true']
  exact ⟨fun hmem => hmem.2, fun hflag => ⟨⟨role, hid⟩, hflag⟩⟩

theorem getD_setIfInBounds {flags : Array Bool} {i : Nat} (hi : i < flags.size) (j : Nat) :
    (flags.setIfInBounds i true).getD j false = (flags.getD j false || decide (i = j)) := by
  rw [Array.getD_eq_getD_getElem?, Array.getD_eq_getD_getElem?, Array.getElem?_setIfInBounds]
  by_cases hij : i = j
  · simp [← hij, hi]
  · simp [hij]

/-- Setting the flag of a role takes it from the unreached ones. -/
theorem Flags.set (h : Flags t reached unreached) (hid : t.get? id = some role) :
    Flags t (reached.setIfInBounds id.index true) (unreached.erase id) := by
  have hlt : id.index < reached.size := by
    rw [h.size]
    exact lt_length_of_get? hid
  have hnodup : unreached.Nodup := by
    rw [h.handles]
    refine List.Nodup.filter _ ?_
    exact (RoleTree.pairwise_handles _).imp fun hlt heq => by rw [heq] at hlt; omega
  refine ⟨by rw [Array.size_setIfInBounds, h.size], ?_, fun i hi => ?_⟩
  · rw [hnodup.erase_eq_filter, h.handles, List.filter_filter]
    refine List.filter_congr fun id' _ => ?_
    have hindex : (id' != id) = !decide (id.index = id'.index) := by
      by_cases heq : id' = id
      · simp [heq]
      · have hne : id.index ≠ id'.index := fun hi => heq (Handle.ext hi.symm)
        simp [heq, hne]
    rw [getD_setIfInBounds hlt, Bool.not_or, hindex, Bool.and_comm]
  · have hne : id.index ≠ i := by
      have := id.index_lt
      omega
    rw [getD_setIfInBounds hlt, h.beyond i hi]
    simp [hne]

/-- **The roles are visited without a fault**, and every round but the last one sets a flag. -/
theorem reach_spec {steps : Nat} (h : Flags t reached unreached) (hsteps : unreached.length < steps)
    (pending : List (Option (Handle .role) × Handle .role)) :
    (∃ e, t.visit unreached pending = .error e ∧
      reach t steps reached pending = of (.error e)) ∨
    ∃ rest reached', t.visit unreached pending = .ok rest ∧
      reach t steps reached pending = pure reached' ∧ Flags t reached' rest := by
  induction steps generalizing reached unreached pending with
  | zero => exact absurd hsteps (Nat.not_lt_zero _)
  | succ steps ih =>
    match pending with
    | [] =>
      refine .inr ⟨unreached, reached, ?_, ?_, h⟩
      · rw [RoleTree.visit]
      · rw [reach]
    | (lister, id) :: pending =>
      rw [RoleTree.visit, reach]
      cases hid : t.get? id with
      | none => exact .inl ⟨_, rfl, rfl⟩
      | some role =>
        dsimp only
        by_cases hparent : role.parent ≠ lister
        · rw [if_pos hparent, if_pos hparent]
          exact .inl ⟨_, rfl, rfl⟩
        · have hlt : id.index < reached.size := by
            rw [h.size]
            exact lt_length_of_get? hid
          rw [if_neg hparent, if_neg hparent, read_eq hlt false, pure_bind]
          by_cases hmem : id ∈ unreached
          · have hflag : reached.getD id.index false = false := (h.mem_iff hid).1 hmem
            have hlength : (unreached.erase id).length < steps := by
              rw [List.length_erase_of_mem hmem]
              have := List.length_pos_of_mem hmem
              omega
            rw [if_pos hmem, hflag, if_neg Bool.false_ne_true, write_eq hlt, pure_bind]
            exact ih (h.set hid) hlength _
          · have hflag : reached.getD id.index false = true := by
              rw [h.mem_iff hid, Bool.not_eq_false] at hmem
              exact hmem
            rw [if_neg hmem, hflag, if_pos rfl]
            exact .inl ⟨_, rfl, rfl⟩

theorem getD_replicate (n i : Nat) : (Array.replicate n false).getD i false = false := by
  rw [Array.getD_eq_getD_getElem?, Array.getElem?_replicate]
  split_ifs <;> rfl

/-- At first no role is reached. -/
theorem flags_replicate (t : RoleTree) :
    Flags t (Array.replicate t.roles.length false) (RoleTree.handles t.roles.length) := by
  refine ⟨Array.size_replicate, ?_, fun i _ => getD_replicate _ i⟩
  rw [eq_comm, List.filter_eq_self]
  exact fun id _ => by rw [getD_replicate]; rfl

/-- The first flag that is not set. -/
theorem findIdx?_eq_some_iff {flags : Array Bool} {i : Nat} :
    flags.toList.findIdx? (!·) = some i ↔
      i < flags.size ∧ flags.getD i false = false ∧ ∀ j < i, flags.getD j false = true := by
  have hget {j : Nat} (hj : j < flags.size) : flags.getD j false = flags.toList[j] := by
    rw [Array.getD_eq_getD_getElem?, Array.getElem?_eq_getElem hj]
    rfl
  rw [List.findIdx?_eq_some_iff_getElem]
  constructor
  · rintro ⟨hi, hflag, hbefore⟩
    refine ⟨hi, ?_, fun j hj => ?_⟩
    · rw [hget hi]
      simpa using hflag
    · rw [hget (Nat.lt_trans hj hi)]
      simpa using hbefore j hj
  · rintro ⟨hi, hflag, hbefore⟩
    refine ⟨hi, ?_, fun j hj => ?_⟩
    · rw [hget hi] at hflag
      simpa using hflag
    · have hset := hbefore j hj
      rw [hget (Nat.lt_trans hj hi)] at hset
      simpa using hset

/-- A role that is not among the unreached ones has its flag set. -/
theorem Flags.getD_eq_true (h : Flags t reached unreached) {i : Nat} (hi : i < t.roles.length)
    (hbound : i < Handle.bound) (hnot : ⟨i, hbound⟩ ∉ unreached) : reached.getD i false = true := by
  have hrole : t.get? ⟨i, hbound⟩ = some t.roles[i] := List.getElem?_eq_getElem hi
  rw [h.mem_iff hrole, Bool.not_eq_false] at hnot
  exact hnot

/-- Once every role with a handle was reached, the flags that are not set begin behind the
handles. -/
theorem Flags.findIdx?_of_nil (h : Flags t reached []) :
    reached.toList.findIdx? (!·) =
      if Handle.bound < t.roles.length then some Handle.bound else none := by
  by_cases hbound : Handle.bound < t.roles.length
  · rw [if_pos hbound, findIdx?_eq_some_iff, h.size]
    refine ⟨hbound, h.beyond _ (Nat.le_refl _), fun j hj => ?_⟩
    exact h.getD_eq_true (Nat.lt_trans hj hbound) hj List.not_mem_nil
  · rw [if_neg hbound]
    cases hfirst : reached.toList.findIdx? (!·) with
    | none => rfl
    | some i =>
      obtain ⟨hi, hflag, _⟩ := findIdx?_eq_some_iff.1 hfirst
      rw [h.size] at hi
      rw [h.getD_eq_true hi (by omega) List.not_mem_nil] at hflag
      cases hflag

/-- The first one of the unreached roles has the first flag that is not set. -/
theorem Flags.findIdx?_of_cons {rest : List (Handle .role)} (h : Flags t reached (id :: rest)) :
    reached.toList.findIdx? (!·) = some id.index := by
  have hhandles := h.handles
  have hmem : id ∈ RoleTree.handles t.roles.length := by
    have hmem' : id ∈ id :: rest := List.mem_cons_self
    rw [hhandles] at hmem'
    exact (List.mem_filter.1 hmem').1
  obtain ⟨role, hid⟩ := RoleTree.mem_handles_iff.1 hmem
  have hlt := lt_length_of_get? hid
  -- The unreached roles are in the order of their positions.
  have hsorted : (id :: rest).Pairwise (·.index < ·.index) := by
    rw [hhandles]
    exact (RoleTree.pairwise_handles _).filter _
  rw [findIdx?_eq_some_iff, h.size]
  refine ⟨hlt, (h.mem_iff hid).1 List.mem_cons_self, fun j hj => ?_⟩
  refine h.getD_eq_true (Nat.lt_trans hj hlt) (Nat.lt_trans hj id.index_lt) fun hbefore => ?_
  rcases List.mem_cons.1 hbefore with heq | hlater
  · rw [← heq] at hj
    exact Nat.lt_irrefl j hj
  · have hgt := (List.pairwise_cons.1 hsorted).1 _ hlater
    exact Nat.lt_irrefl j (Nat.lt_trans hj hgt)

/-- **The check of the tree has no fault.** -/
theorem checkForest_eq (t : RoleTree) : checkForest t = of t.checkForest := by
  have hlength : (RoleTree.handles t.roles.length).length < t.roles.length + 1 := by
    have hle := List.length_filterMap_le (Handle.ofIndex? (k := .role)) (List.range t.roles.length)
    rw [List.length_range] at hle
    exact Nat.lt_succ_of_le hle
  rw [checkForest, RoleTree.checkForest]
  rcases reach_spec (flags_replicate t) hlength (t.roots.map (none, ·)) with
    ⟨e, hvisit, hreach⟩ | ⟨rest, reached, hvisit, hreach, h⟩
  · rw [hvisit, hreach]
    rfl
  rw [hvisit, hreach, pure_bind, ok_bind]
  cases rest with
  | nil =>
    have hallocate : (Handle.allocate Handle.bound : Except Error (Handle .role)) =
        fail (.exhausted Handle.Kind.role.noun) := by
      rw [Handle.allocate, Handle.ofIndex?_eq_none_iff.2 (Nat.le_refl _)]
    rw [h.findIdx?_of_nil]
    split_ifs
    · dsimp only
      rw [hallocate]
      rfl
    · rfl
  | cons id rest =>
    have hallocate : (Handle.allocate id.index : Except Error (Handle .role)) = .ok id := by
      rw [Handle.allocate, Handle.ofIndex?_index]
    rw [h.findIdx?_of_cons]
    dsimp only
    rw [hallocate, ok_bind]

/-! ### Unused roles -/

/-- The flags of some roles are set, and no other. -/
theorem setFlags_spec {flags : Array Bool} {ids : List (Handle .role)}
    (hids : ∀ id ∈ ids, id.index < flags.size) :
    ∃ flags', setFlags flags ids = pure flags' ∧ flags'.size = flags.size ∧
      ∀ id : Handle .role,
        flags'.getD id.index false = (flags.getD id.index false || ids.contains id) := by
  induction ids generalizing flags with
  | nil => exact ⟨flags, rfl, rfl, fun id => by simp⟩
  | cons id ids ih =>
    rw [List.forall_mem_cons] at hids
    have hsize : (flags.setIfInBounds id.index true).size = flags.size := Array.size_setIfInBounds
    have hrest : ∀ id' ∈ ids, id'.index < (flags.setIfInBounds id.index true).size := by
      rw [hsize]
      exact hids.2
    obtain ⟨flags', hset, hsize', hflags⟩ := ih hrest
    refine ⟨flags', ?_, hsize'.trans hsize, fun id' => ?_⟩
    · rw [setFlags, write_eq hids.1, pure_bind, hset]
    · have hsame : decide (id.index = id'.index) = (id' == id) := by
        by_cases heq : id' = id
        · simp [heq]
        · have hne : id.index ≠ id'.index := fun hi => heq (Handle.ext hi.symm)
          simp [heq, hne]
      rw [hflags, getD_setIfInBounds hids.1, List.contains_cons, hsame, Bool.or_assoc]

theorem unflagged_eq (t : RoleTree) {flags : Array Bool} {ids : List (Handle .role)}
    (hids : ∀ id ∈ ids, id.index < flags.size) :
    unflagged t flags ids = pure (ids.filter fun id =>
      (t.get? id).any (!·.implicit) && !flags.getD id.index false) := by
  induction ids with
  | nil => rfl
  | cons id ids ih =>
    rw [List.forall_mem_cons] at hids
    rw [unflagged, ih hids.2, read_eq hids.1 false, List.filter_cons, pure_bind, pure_bind]
    cases (t.get? id).any (!·.implicit) with
    | false => rfl
    | true =>
      cases flags.getD id.index false with
      | false => rfl
      | true => rfl

/-- **The flags of the granted roles are set without a fault**, when they are roles of the tree. -/
theorem unusedRoles_eq {d : Document}
    (hd : ∀ id ∈ d.grantedRoles, id.index < d.roles.roles.length) :
    unusedRoles d = pure d.unusedRoles := by
  have hgranted : ∀ id ∈ d.grantedRoles,
      id.index < (Array.replicate d.roles.roles.length false).size := by
    rw [Array.size_replicate]
    exact hd
  obtain ⟨flags, hset, hsize, hflags⟩ := setFlags_spec hgranted
  have hids : ∀ id ∈ RoleTree.handles d.roles.roles.length, id.index < flags.size := by
    intro id hid
    obtain ⟨role, hrole⟩ := RoleTree.mem_handles_iff.1 hid
    rw [hsize, Array.size_replicate]
    exact lt_length_of_get? hrole
  rw [unusedRoles]
  rw [hset, pure_bind, unflagged_eq d.roles hids]
  simp only [hflags, getD_replicate, Bool.false_or]
  rfl

/-! ### The release of the tree -/

theorem listed_cons (r : Role) (roles : List Role) :
    listed (r :: roles) = r.children.length + listed roles := by
  rw [listed, List.flatMap_cons, List.length_append, listed]

/-- Opening a role takes its children from those that are still listed. -/
theorem listed_modify {roles : List Role} {i : Nat} {role : Role} (h : roles[i]? = some role) :
    listed (roles.modify i emptied) + role.children.length = listed roles := by
  induction roles generalizing i with
  | nil => cases h
  | cons r roles ih =>
    cases i with
    | zero =>
      obtain rfl : r = role := Option.some.inj h
      have hnone : (emptied r).children.length = 0 := rfl
      rw [List.modify_zero_cons, listed_cons, listed_cons, hnone]
      omega
    | succ i =>
      have hrest := ih h
      rw [List.modify_succ_cons, listed_cons, listed_cons]
      omega

/-- The roles are those of the tree, the opened ones without their children. -/
structure Opened (t : RoleTree) (unopened : List (Handle .role)) (roles : List Role) : Prop where
  nodup : unopened.Nodup
  roles : ∀ id : Handle .role,
    roles[id.index]? = (t.get? id).map fun r => if id ∈ unopened then r else emptied r

variable {unopened : List (Handle .role)} {roles : List Role}

/-- Whether a role was open or not, it is open when its children were taken out. -/
theorem Opened.modify (h : Opened t unopened roles) (id : Handle .role) :
    Opened t (unopened.erase id) (roles.modify id.index emptied) := by
  refine ⟨h.nodup.erase id, fun id' => ?_⟩
  rw [List.getElem?_modify, h.roles id']
  by_cases heq : id = id'
  · rw [← heq]
    have hnot : id ∉ unopened.erase id := h.nodup.not_mem_erase
    cases t.get? id with
    | none => rfl
    | some r =>
      simp only [hnot, if_true, if_false, Option.map_some, Functor.map]
      split_ifs
      · rfl
      · rfl
  · have hne : id.index ≠ id'.index := fun hi => heq (Handle.ext hi)
    simp only [hne, if_false, List.mem_erase_of_ne (Ne.symm heq), Functor.map, Option.map_id']

/-- **The release ends and has no fault**: every listed child is followed once at most. -/
theorem release_eq {steps : Nat} (h : Opened t unopened roles) {pending : List (Handle .role)}
    (hsteps : pending.length + listed roles ≤ steps) :
    release steps roles pending = pure (t.release unopened pending) := by
  induction steps generalizing unopened roles pending with
  | zero =>
    have hempty : pending = [] := List.eq_nil_of_length_eq_zero (by omega)
    rw [hempty, release, RoleTree.release]
  | succ steps ih =>
    cases pending with
    | nil => rw [release, RoleTree.release]
    | cons id pending =>
      rw [List.length_cons] at hsteps
      rw [release, RoleTree.release, h.roles id]
      cases hid : t.get? id with
      | none => exact ih h (by omega)
      | some role =>
        rw [Option.map_some]
        dsimp only
        have hat := h.roles id
        rw [hid, Option.map_some] at hat
        have hlisted := listed_modify hat
        have hopened := h.modify id
        by_cases hmem : id ∈ unopened
        · rw [if_pos hmem] at hlisted ⊢
          rw [if_pos hmem, ih hopened (by rw [List.length_append]; omega), pure_bind]
        · rw [if_neg hmem] at hlisted ⊢
          rw [List.erase_of_not_mem hmem] at hopened
          have hnone : (emptied role).children ++ pending = pending := rfl
          rw [if_neg hmem, hnone, ih hopened (by omega), pure_bind]
          rfl

/-- **A document is torn down without a fault**, whatever its role tree is. -/
theorem teardown_eq (d : Document) : teardown d = pure d.inventory := by
  have hopened : Opened d.roles (RoleTree.handles d.roles.roles.length) d.roles.roles := by
    refine ⟨?_, fun id => ?_⟩
    · exact (RoleTree.pairwise_handles _).imp fun hlt heq => by rw [heq] at hlt; omega
    · show d.roles.get? id = _
      cases hid : d.roles.get? id with
      | none => rfl
      | some r => rw [Option.map_some, if_pos (RoleTree.mem_handles_iff.2 ⟨r, hid⟩)]
  rw [teardown]
  dsimp only
  rw [release_eq hopened (Nat.le_refl _), pure_bind]
  rfl

end DataModel.Watched
