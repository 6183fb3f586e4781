import DataModel.Proofs.Linking.RoleNames

/-!
# Forests of roles

The links of a role tree are stored twice: a role records its parent, and it is listed, among the
children of that parent or among the roots.  `RoleTree.listings` is all that is listed and
`RoleTree.records` all that is recorded.  The tree is a *forest* (`RoleTree.Forest`) if the two hold
the same links, each once, and if parents do not go round in circles.

The check of the tree passes on every forest (`RoleTree.Forest.checkForest`).  Its visit follows
what is listed and takes away what is recorded.  So what is pending, together with what the
unreached roles list, is at any time what the unreached roles record: at the start this is the
property of a forest, and a step takes the same link from both sides
(`RoleTree.outstanding_cons_iff`).  The other way round, a visit that reaches every role has taken
away as much as it followed, so what is listed in a tree that passes is what is recorded
(`RoleTree.listed_of_checkForest`).
-/

namespace DataModel.RoleTree

variable (t : RoleTree)

/-! ### Listed and recorded links -/

/-- The parent that a role records. -/
def parent? (id : Handle .role) : Option (Handle .role) := (t.get? id).bind Role.parent

/-- The children that a role lists, each with the role. -/
def listedBy (id : Handle .role) : List (Option (Handle .role) × Handle .role) :=
  ((t.get? id).elim [] Role.children).map (some id, ·)

/-- The roles that are listed, each with the role that lists it. A root is listed by none. -/
def listings : List (Option (Handle .role) × Handle .role) :=
  t.roots.map (none, ·) ++ (handles t.roles.length).flatMap t.listedBy

/-- The roles, each with the parent that it records. -/
def records : List (Option (Handle .role) × Handle .role) :=
  (handles t.roles.length).map fun id => (t.parent? id, id)

/-- **A forest**: every role is listed once, by the parent that it records, and parents do not go
round in circles. -/
structure Forest : Prop where
  listed : t.listings.Perm t.records
  climbs : ∃ rank : Handle .role → Nat, ∀ id p, t.parent? id = some p → rank p < rank id

variable {t} {id : Handle .role} {lister : Option (Handle .role)} {role : Role}

theorem parent?_of_get? (h : t.get? id = some role) : t.parent? id = role.parent := by
  rw [parent?, h, Option.bind_some]

theorem listedBy_of_get? (h : t.get? id = some role) :
    t.listedBy id = role.children.map (some id, ·) := by
  rw [listedBy, h, Option.elim_some]

theorem nodup_handles (n : Nat) : (handles n).Nodup := by
  refine (pairwise_handles n).imp fun hlt heq => ?_
  rw [heq] at hlt
  exact Nat.lt_irrefl _ hlt

theorem mem_records_iff :
    (lister, id) ∈ t.records ↔ (∃ r, t.get? id = some r) ∧ t.parent? id = lister := by
  rw [records, List.mem_map, ← mem_handles_iff]
  constructor
  · rintro ⟨id', hmem, heq⟩
    obtain ⟨hparent, rfl⟩ := Prod.mk.inj heq
    exact ⟨hmem, hparent⟩
  · rintro ⟨hmem, hparent⟩
    exact ⟨id, hmem, by rw [hparent]⟩

theorem mem_listings_none : (none, id) ∈ t.listings ↔ id ∈ t.roots := by
  simp [listings, listedBy]

theorem mem_listings_some {p : Handle .role} :
    (some p, id) ∈ t.listings ↔ ∃ r, t.get? p = some r ∧ id ∈ r.children := by
  rw [listings, List.mem_append, List.mem_flatMap]
  constructor
  · rintro (hroot | ⟨q, hq, hchild⟩)
    · obtain ⟨_, _, heq⟩ := List.mem_map.1 hroot
      cases heq
    · obtain ⟨r, hr⟩ := mem_handles_iff.1 hq
      rw [listedBy_of_get? hr] at hchild
      obtain ⟨_, hmem, heq⟩ := List.mem_map.1 hchild
      obtain ⟨hp, rfl⟩ := Prod.mk.inj heq
      obtain rfl := Option.some.inj hp
      exact ⟨r, hr, hmem⟩
  · rintro ⟨r, hr, hmem⟩
    exact .inr ⟨p, mem_handles_iff.2 ⟨r, hr⟩, listedBy_of_get? hr ▸ List.mem_map_of_mem hmem⟩

/-! ### Visiting a forest -/

variable (t) in
/-- What is pending and what the unreached roles list is what the unreached roles record. -/
def Outstanding (unreached : List (Handle .role))
    (pending : List (Option (Handle .role) × Handle .role)) : Prop :=
  (pending ++ unreached.flatMap t.listedBy).Perm (unreached.map fun id => (t.parent? id, id))

variable {unreached : List (Handle .role)} {pending : List (Option (Handle .role) × Handle .role)}

/-- The next role was not reached before and is listed by its parent. -/
theorem Outstanding.next (h : t.Outstanding unreached ((lister, id) :: pending)) :
    id ∈ unreached ∧ t.parent? id = lister := by
  have hmem : (lister, id) ∈ unreached.map fun id => (t.parent? id, id) :=
    h.mem_iff.1 List.mem_cons_self
  obtain ⟨id', hid', heq⟩ := List.mem_map.1 hmem
  obtain ⟨hparent, rfl⟩ := Prod.mk.inj heq
  exact ⟨hid', hparent⟩

/-- **A step of the visit** puts the children of a role in the place of the role. -/
theorem outstanding_cons_iff (hmem : id ∈ unreached) (hparent : t.parent? id = lister) :
    t.Outstanding unreached ((lister, id) :: pending) ↔
      t.Outstanding (unreached.erase id) (t.listedBy id ++ pending) := by
  have hunreached := List.perm_cons_erase hmem
  have hlisted : (unreached.flatMap t.listedBy).Perm
      (t.listedBy id ++ (unreached.erase id).flatMap t.listedBy) :=
    hunreached.flatMap_right t.listedBy
  have hrecorded := hunreached.map fun id => (t.parent? id, id)
  rw [List.map_cons, hparent] at hrecorded
  have hmoved : (pending ++ unreached.flatMap t.listedBy).Perm
      (t.listedBy id ++ pending ++ (unreached.erase id).flatMap t.listedBy) := by
    refine (hlisted.append_left pending).trans ?_
    rw [← List.append_assoc]
    exact List.perm_append_comm.append_right _
  -- The link to the role stands on both sides.
  have hboth : ((lister, id) :: pending ++ unreached.flatMap t.listedBy).Perm
      ((lister, id) :: (t.listedBy id ++ pending ++ (unreached.erase id).flatMap t.listedBy)) :=
    hmoved.cons _
  constructor
  · intro h
    exact (hboth.symm.trans (h.trans hrecorded)).cons_inv
  · intro h
    exact hboth.trans ((h.cons _).trans hrecorded.symm)

/-- **The visit passes** where what is listed is what is recorded. The roles that it does not reach
record one another only. -/
theorem Outstanding.visit (hknown : ∀ id ∈ unreached, ∃ r, t.get? id = some r)
    (h : t.Outstanding unreached pending) :
    ∃ rest, t.visit unreached pending = .ok rest ∧ t.Outstanding rest [] := by
  induction hn : unreached.length generalizing unreached pending with
  | zero =>
    cases pending with
    | nil => exact ⟨unreached, by rw [RoleTree.visit], h⟩
    | cons next pending =>
      have hpos := List.length_pos_of_mem h.next.1
      omega
  | succ n ih =>
    cases pending with
    | nil => exact ⟨unreached, by rw [RoleTree.visit], h⟩
    | cons next pending =>
      obtain ⟨lister, id⟩ := next
      obtain ⟨hmem, hparent⟩ := h.next
      obtain ⟨role, hrole⟩ := hknown id hmem
      have hlength : (unreached.erase id).length = n := by
        rw [List.length_erase_of_mem hmem]
        omega
      have hstep := (outstanding_cons_iff hmem hparent).1 h
      rw [listedBy_of_get? hrole] at hstep
      rw [parent?_of_get? hrole] at hparent
      have hknown' : ∀ id' ∈ unreached.erase id, ∃ r, t.get? id' = some r :=
        fun id' hid' => hknown id' (List.mem_of_mem_erase hid')
      rw [RoleTree.visit, hrole]
      simp only [hparent, hmem, ne_eq, not_true_eq_false, if_false, if_true]
      exact ih hknown' hstep hlength

/-- Where parents do not go round in circles, roles that record one another only are none. -/
theorem Outstanding.eq_nil {rank : Handle .role → Nat}
    (hrank : ∀ id p, t.parent? id = some p → rank p < rank id) (h : t.Outstanding unreached []) :
    unreached = [] := by
  -- No role is unreached, by induction on its rank: its parent would be unreached too.
  have hnone (n : Nat) : ∀ id ∈ unreached, rank id ≠ n := by
    induction n using Nat.strongRecOn with
    | ind n ih =>
      rintro id hid rfl
      have hmem : (t.parent? id, id) ∈ unreached.flatMap t.listedBy :=
        h.mem_iff.2 (List.mem_map.2 ⟨id, hid, rfl⟩)
      obtain ⟨p, hp, hlisted⟩ := List.mem_flatMap.1 hmem
      obtain ⟨_, _, heq⟩ := List.mem_map.1 hlisted
      exact ih (rank p) (hrank id p (Prod.mk.inj heq).1.symm) p hp rfl
  exact List.eq_nil_iff_forall_not_mem.2 fun id hid => hnone (rank id) id hid rfl

/-- **The check of the tree passes on a forest** whose roles all have handles. -/
theorem Forest.checkForest (h : t.Forest) (hlength : t.roles.length ≤ Handle.bound) :
    t.checkForest = .ok () := by
  obtain ⟨rank, hrank⟩ := h.climbs
  obtain ⟨rest, hvisit, hrest⟩ :=
    Outstanding.visit (fun id hid => mem_handles_iff.1 hid) h.listed
  obtain rfl := hrest.eq_nil hrank
  rw [RoleTree.checkForest, hvisit, ok_bind]
  simp only [Nat.not_lt.2 hlength, if_false]
  rfl

/-! ### Trees that pass -/

/-- A visit that reaches all roles follows what they record. -/
theorem outstanding_of_visit (h : t.visit unreached pending = .ok []) :
    t.Outstanding unreached pending := by
  fun_induction t.visit unreached pending with
  | case1 unreached =>
    obtain rfl := Except.ok.inj h
    exact .nil
  | case2 unreached lister id pending hnone => exact absurd h failFlaw_ne_ok
  | case3 unreached lister id pending role hrole hparent => cases h
  | case4 unreached lister id pending role hrole hparent hmem ih =>
    rw [not_not, ← parent?_of_get? hrole] at hparent
    rw [outstanding_cons_iff hmem hparent, listedBy_of_get? hrole]
    exact ih h
  | case5 => cases h

/-- **In a tree that passes the check** every role has a handle, and what is listed is what is
recorded. -/
theorem listed_of_checkForest (h : t.checkForest = .ok ()) :
    t.roles.length ≤ Handle.bound ∧ t.listings.Perm t.records := by
  obtain ⟨rest, hvisit, h⟩ := bind_eq_ok.1 h
  cases rest with
  | nil =>
    refine ⟨Nat.le_of_not_lt fun hlt => ?_, outstanding_of_visit hvisit⟩
    simp only [if_pos hlt] at h
    exact fail_ne_ok h
  | cons id rest => cases h

end DataModel.RoleTree
