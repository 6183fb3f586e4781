import DataModel.Proofs.Roles.Forest
import DataModel.Proofs.Safety.Roles
import Mathlib.Data.List.Chain

/-!
# The check of the role tree

The role tree of a snapshot may list any handles, out of range, repeated or in a circle.
`RoleTree.forest_checked` says what the check of the tree is worth on all of them.  It ends, and it
passes exactly if the links are a *single forest* (`RoleTree.SingleForest`): what is listed is in
range and recorded where it is listed, and every role is listed once and reached from the roots.

A visit that passes has reached what it did not leave over (`RoleTree.reached_of_visit`), and took
every role from the list that it is on, so a tree that passes is a single forest
(`RoleTree.singleForest_of_checkForest`).  The other way round, the roles of a single forest all
have a way up to a root (`RoleTree.SingleForest.exists_ascent`).  The way is the only one, so it
meets no role twice and is no longer than there are roles, which is what the ancestors of a role are
cut off at (`RoleTree.SingleForest.ascent_ancestors`).  Its length ranks the roles, so the tree is a
forest and the check passes.
-/

namespace DataModel.RoleTree

variable (t : RoleTree)

/-! ### Single forests -/

/-- The role is reached from the roots, by way of children. -/
inductive Reached : Handle .role → Prop
  | root {id : Handle .role} (listed : id ∈ t.roots) : Reached id
  | child {p id : Handle .role} {role : Role} (reached : Reached p) (found : t.get? p = some role)
      (listed : id ∈ role.children) : Reached id

/-- The handles that are listed, as roots and as children. -/
def listed : List (Handle .role) := t.roots ++ t.roles.flatMap Role.children

/-- **The links form a single forest.** -/
structure SingleForest : Prop where
  /-- A listed root is in range and has no parent. -/
  roots : ∀ id ∈ t.roots, ∃ role, t.get? id = some role ∧ role.parent = none
  /-- A listed child is in range and records the role that lists it as its parent. -/
  children : ∀ (i : Nat) (role : Role), t.roles[i]? = some role → ∀ id ∈ role.children,
    ∃ child, t.get? id = some child ∧ child.parent.map Handle.index = some i
  /-- Every role is listed exactly once. -/
  once : ∀ i < t.roles.length, t.listed.countP (·.index = i) = 1
  /-- Every role is reached from the roots. -/
  reached : ∀ i < t.roles.length, ∃ id, id.index = i ∧ t.Reached id

/-- The roles are the way up from the parent of a role to a root. -/
inductive Ascent : Handle .role → List (Handle .role) → Prop
  | root {id : Handle .role} (listed : id ∈ t.roots) (parent : t.parent? id = none) : Ascent id []
  | step {id p : Handle .role} {above : List (Handle .role)} (parent : t.parent? id = some p)
      (ascent : Ascent p above) : Ascent id (p :: above)

variable {t} {id p : Handle .role} {role : Role} {above above' : List (Handle .role)}

/-! ### Listed handles -/

theorem length_handles_le (n : Nat) : (handles n).length ≤ n := by
  have hle := List.length_filterMap_le (Handle.ofIndex? (k := .role)) (List.range n)
  rwa [List.length_range] at hle

/-- The roles are what their handles lead to, if all of them have handles. -/
theorem filterMap_get?_handles (h : t.roles.length ≤ Handle.bound) :
    (handles t.roles.length).filterMap t.get? = t.roles := by
  have hget : ∀ i ∈ List.range t.roles.length,
      (Handle.ofIndex? i).bind t.get? = t.roles[i]? := by
    intro i hi
    have hbound : i < Handle.bound := lt_of_lt_of_le (List.mem_range.1 hi) h
    have hhandle : Handle.ofIndex? i = some (⟨i, hbound⟩ : Handle .role) :=
      Handle.ofIndex?_eq_some_iff.2 rfl
    rw [hhandle, Option.bind_some, get?]
  have hrange : (List.range t.roles.length).map (fun i => t.roles[i]?) = t.roles.map some := by
    refine List.ext_getElem (by simp) fun i hi _ => ?_
    rw [List.getElem_map, List.getElem_map, List.getElem_range, List.getElem?_eq_getElem]
  rw [handles, List.filterMap_filterMap, List.filterMap_congr hget]
  simpa using congrArg (List.filterMap id) hrange

/-- What is listed, if all roles have handles. -/
theorem map_listings (h : t.roles.length ≤ Handle.bound) : t.listings.map Prod.snd = t.listed := by
  have hchildren : (handles t.roles.length).flatMap (fun id => (t.get? id).elim [] Role.children) =
      t.roles.flatMap Role.children := by
    have hroles := congrArg (List.flatMap Role.children) (filterMap_get?_handles h)
    rw [← hroles, List.filterMap_eq_flatMap_toList, List.flatMap_assoc]
    refine List.flatMap_congr fun id _ => ?_
    cases t.get? id <;> simp
  rw [listed, ← hchildren, listings, List.map_append, List.map_map, List.map_flatMap]
  congr 1
  · exact List.map_id' _
  · refine List.flatMap_congr fun id _ => ?_
    rw [listedBy, List.map_map]
    exact List.map_id' _

theorem map_records : t.records.map Prod.snd = handles t.roles.length := by
  rw [records, List.map_map]
  exact List.map_id' _

/-- How often a role is listed. -/
theorem countP_index (ids : List (Handle .role)) (id : Handle .role) :
    ids.countP (·.index = id.index) = ids.count id := by
  rw [List.count]
  refine List.countP_congr fun id' _ => ?_
  rw [decide_eq_true_eq, beq_iff_eq]
  exact ⟨Handle.ext, congrArg Handle.index⟩

/-! ### Trees that pass -/

/-- **A visit reaches what it does not leave over**, from roles that are reached. -/
theorem reached_of_visit {unreached rest : List (Handle .role)}
    {pending : List (Option (Handle .role) × Handle .role)}
    (hpending : ∀ l ∈ pending, t.Reached l.2) (h : t.visit unreached pending = .ok rest) :
    ∀ id ∈ unreached, id ∈ rest ∨ t.Reached id := by
  fun_induction t.visit unreached pending with
  | case1 unreached =>
    obtain rfl := Except.ok.inj h
    exact fun id hid => .inl hid
  | case2 => exact absurd h failFlaw_ne_ok
  | case3 => cases h
  | case4 unreached lister id pending role hrole hparent hmem ih =>
    rw [List.forall_mem_cons] at hpending
    obtain ⟨hid, hpending⟩ := hpending
    have hchildren : ∀ l ∈ role.children.map (some id, ·), t.Reached l.2 := by
      rw [List.forall_mem_map]
      exact fun child hchild => .child hid hrole hchild
    intro id' hid'
    by_cases heq : id' = id
    · exact .inr (heq ▸ hid)
    · exact ih (List.forall_mem_append.2 ⟨hchildren, hpending⟩) h id'
        ((List.mem_erase_of_ne heq).2 hid')
  | case5 => cases h

/-- **A tree that passes the check is a single forest.** -/
theorem singleForest_of_checkForest (h : t.checkForest = .ok ()) : t.SingleForest := by
  obtain ⟨hlength, hlisted⟩ := listed_of_checkForest h
  constructor
  case roots =>
    intro id hid
    obtain ⟨⟨role, hrole⟩, hparent⟩ :=
      mem_records_iff.1 (hlisted.mem_iff.1 (mem_listings_none.2 hid))
    rw [parent?_of_get? hrole] at hparent
    exact ⟨role, hrole, hparent⟩
  case children =>
    intro i role hrole id hid
    have hbound : i < Handle.bound :=
      lt_of_lt_of_le (List.getElem?_eq_some_iff.1 hrole).1 hlength
    have hchild : (some ⟨i, hbound⟩, id) ∈ t.listings := mem_listings_some.2 ⟨role, hrole, hid⟩
    obtain ⟨⟨child, hget⟩, hparent⟩ := mem_records_iff.1 (hlisted.mem_iff.1 hchild)
    rw [parent?_of_get? hget] at hparent
    exact ⟨child, hget, by rw [hparent, Option.map_some]⟩
  case once =>
    intro i hi
    have hbound : i < Handle.bound := lt_of_lt_of_le hi hlength
    have hmem : (⟨i, hbound⟩ : Handle .role) ∈ handles t.roles.length :=
      mem_handles_iff.2 ⟨_, List.getElem?_eq_getElem hi⟩
    have hhandles : t.listed.Perm (handles t.roles.length) := by
      have hsnd := hlisted.map Prod.snd
      rwa [map_listings hlength, map_records] at hsnd
    rw [countP_index t.listed ⟨i, hbound⟩, hhandles.count_eq,
      List.count_eq_one_of_mem (nodup_handles _) hmem]
  case reached =>
    intro i hi
    obtain ⟨rest, hvisit, h⟩ := bind_eq_ok.1 h
    cases rest with
    | cons id rest => cases h
    | nil =>
      have hbound : i < Handle.bound := lt_of_lt_of_le hi hlength
      have hpending : ∀ l ∈ t.roots.map ((none, ·) : _ → Option (Handle .role) × Handle .role),
          t.Reached l.2 := by
        rw [List.forall_mem_map]
        exact fun id hid => .root hid
      rcases reached_of_visit hpending hvisit ⟨i, hbound⟩
        (mem_handles_iff.2 ⟨_, List.getElem?_eq_getElem hi⟩) with hrest | hreached
      · cases hrest
      · exact ⟨_, rfl, hreached⟩

/-! ### Ways up -/

/-- The way up goes on with the parent. -/
theorem Ascent.eq_cons (h : t.Ascent id above) (hparent : t.parent? id = some p) :
    ∃ rest, above = p :: rest ∧ t.Ascent p rest := by
  cases h with
  | root _ hnone => cases hparent.symm.trans hnone
  | step hparent' hrest =>
    obtain rfl := Option.some.inj (hparent.symm.trans hparent')
    exact ⟨_, rfl, hrest⟩

/-- There is one way up from a role. -/
theorem Ascent.unique (h : t.Ascent id above) (h' : t.Ascent id above') : above = above' := by
  induction h generalizing above' with
  | root _ hparent =>
    cases h' with
    | root => rfl
    | step hparent' => cases hparent.symm.trans hparent'
  | step hparent _ ih =>
    obtain ⟨rest, rfl, hrest⟩ := h'.eq_cons hparent
    rw [ih hrest]

/-- The way up from a role on the way is the rest of the way. -/
theorem Ascent.of_mem (h : t.Ascent id above) (hp : p ∈ above) :
    ∃ rest, t.Ascent p rest ∧ rest.length < above.length := by
  induction h with
  | root => cases hp
  | step _ hrest ih =>
    rcases List.mem_cons.1 hp with rfl | hp
    · exact ⟨_, hrest, Nat.lt_succ_self _⟩
    · obtain ⟨rest, h, hlt⟩ := ih hp
      exact ⟨rest, h, Nat.lt_succ_of_lt hlt⟩

/-- **No role is met twice on the way up**: the way up from it would be shorter than itself. -/
theorem Ascent.nodup (h : t.Ascent id above) : (id :: above).Nodup := by
  induction h with
  | root => exact List.nodup_singleton _
  | @step id p above parent ascent ih =>
    refine List.nodup_cons.2 ⟨fun hmem => ?_, ih⟩
    have hid : t.Ascent id (p :: above) := .step parent ascent
    obtain ⟨rest, hrest, hlt⟩ := hid.of_mem hmem
    rw [hid.unique hrest] at hlt
    exact Nat.lt_irrefl _ hlt

/-- The way up is what is climbed, in any number of steps that is not too small. -/
theorem Ascent.climb (h : t.Ascent id above) {steps : Nat} (hsteps : above.length ≤ steps) :
    t.climb steps (t.parent? id) = above := by
  induction h generalizing steps with
  | root _ hparent =>
    rw [hparent]
    cases steps <;> rfl
  | @step id p above parent _ ih =>
    rw [parent]
    cases steps with
    | zero => cases hsteps
    | succ steps => exact congrArg (p :: ·) (ih (Nat.le_of_succ_le_succ hsteps))

namespace SingleForest

variable (h : t.SingleForest)

include h

/-- There is a way up from every role that is reached. -/
theorem exists_ascent (hid : t.Reached id) : ∃ above, t.Ascent id above := by
  induction hid with
  | root listed =>
    obtain ⟨role, hrole, hparent⟩ := h.roots _ listed
    exact ⟨[], .root listed ((parent?_of_get? hrole).trans hparent)⟩
  | @child p id role _ found listed ih =>
    obtain ⟨above, habove⟩ := ih
    obtain ⟨child, hchild, hindex⟩ := h.children p.index role found id listed
    obtain ⟨p', hparent, heq⟩ := Option.map_eq_some_iff.1 hindex
    obtain rfl : p' = p := Handle.ext heq
    exact ⟨p' :: above, .step ((parent?_of_get? hchild).trans hparent) habove⟩

/-- The ways up lead through roles. -/
theorem mem_handles_of_ascent (hid : t.Ascent id above) : id ∈ handles t.roles.length := by
  cases hid with
  | root listed =>
    obtain ⟨role, hrole, _⟩ := h.roots id listed
    exact mem_handles_iff.2 ⟨role, hrole⟩
  | step parent =>
    obtain ⟨role, hrole, _⟩ := Option.bind_eq_some_iff.1 parent
    exact mem_handles_iff.2 ⟨role, hrole⟩

theorem length_ascent (hid : t.Ascent id above) : above.length < t.roles.length := by
  have hsubset : id :: above ⊆ handles t.roles.length := by
    intro p hp
    rcases List.mem_cons.1 hp with rfl | hp
    · exact h.mem_handles_of_ascent hid
    · obtain ⟨rest, hrest, _⟩ := hid.of_mem hp
      exact h.mem_handles_of_ascent hrest
  have hlength : (id :: above).length ≤ (handles t.roles.length).length :=
    (List.subperm_of_subset hid.nodup hsubset).length_le
  have hhandles := length_handles_le t.roles.length
  rw [List.length_cons] at hlength
  omega

theorem reached_of_get? (hid : t.get? id = some role) : t.Reached id := by
  obtain ⟨id', heq, hreached⟩ := h.reached id.index (List.getElem?_eq_some_iff.1 hid).1
  rwa [Handle.ext heq] at hreached

/-- **The ancestors of a role are the way up from it.** -/
theorem ascent_ancestors (hid : t.get? id = some role) : t.Ascent id (t.ancestors id) := by
  obtain ⟨above, habove⟩ := h.exists_ascent (h.reached_of_get? hid)
  rwa [ancestors, ← parent?, habove.climb (h.length_ascent habove).le]

/-! ### Single forests pass -/

/-- Every role of a single forest has a handle. -/
theorem length_le : t.roles.length ≤ Handle.bound := by
  by_contra hlt
  obtain ⟨id, hid, _⟩ := h.reached Handle.bound (Nat.lt_of_not_le hlt)
  exact absurd id.index_lt (hid ▸ Nat.lt_irrefl _)

/-- What is listed is recorded. -/
theorem mem_records {lister : Option (Handle .role)} (hmem : (lister, id) ∈ t.listings) :
    (lister, id) ∈ t.records := by
  cases lister with
  | none =>
    obtain ⟨role, hrole, hparent⟩ := h.roots id (mem_listings_none.1 hmem)
    exact mem_records_iff.2 ⟨⟨role, hrole⟩, (parent?_of_get? hrole).trans hparent⟩
  | some p =>
    obtain ⟨role, hrole, hchild⟩ := mem_listings_some.1 hmem
    obtain ⟨child, hget, hindex⟩ := h.children p.index role hrole id hchild
    obtain ⟨p', hparent, heq⟩ := Option.map_eq_some_iff.1 hindex
    obtain rfl : p' = p := Handle.ext heq
    exact mem_records_iff.2 ⟨⟨child, hget⟩, (parent?_of_get? hget).trans hparent⟩

/-- What is listed is the roles, each of them once. -/
theorem listed_perm : t.listed.Perm (handles t.roles.length) := by
  refine List.perm_iff_count.2 fun id => ?_
  by_cases hid : id ∈ handles t.roles.length
  · obtain ⟨role, hrole⟩ := mem_handles_iff.1 hid
    rw [List.count_eq_one_of_mem (nodup_handles _) hid, ← countP_index]
    exact h.once id.index (List.getElem?_eq_some_iff.1 hrole).1
  · rw [List.count_eq_zero_of_not_mem hid, List.count_eq_zero]
    intro hlisted
    rw [← map_listings h.length_le, List.mem_map] at hlisted
    obtain ⟨⟨lister, id'⟩, hmem, rfl⟩ := hlisted
    exact hid (mem_handles_iff.2 (mem_records_iff.1 (h.mem_records hmem)).1)

/-- **A single forest is a forest**, ranked by the number of ancestors. -/
theorem forest : t.Forest := by
  constructor
  case listed =>
    have hrecorded : ∀ l ∈ t.listings, (t.parent? l.2, l.2) = l := by
      rintro ⟨lister, id⟩ hmem
      rw [(mem_records_iff.1 (h.mem_records hmem)).2]
    have hperm := h.listed_perm.map fun id => (t.parent? id, id)
    rw [← map_listings h.length_le, List.map_map] at hperm
    have hlistings := List.map_congr_left (g := id) hrecorded
    rw [List.map_id] at hlistings
    exact (List.Perm.of_eq hlistings.symm).trans hperm
  case climbs =>
    refine ⟨fun id => (t.ancestors id).length, fun id p hparent => ?_⟩
    obtain ⟨role, hrole, _⟩ := Option.bind_eq_some_iff.1 hparent
    obtain ⟨rest, hancestors, hrest⟩ := (h.ascent_ancestors hrole).eq_cons hparent
    obtain ⟨role', hrole'⟩ := mem_handles_iff.1 (h.mem_handles_of_ascent hrest)
    dsimp only
    rw [hancestors, ← hrest.unique (h.ascent_ancestors hrole'), List.length_cons]
    exact Nat.lt_succ_self _

/-- **The check passes on a single forest.** -/
theorem checkForest : t.checkForest = .ok () := h.forest.checkForest h.length_le

end SingleForest

/-! ### The check -/

/-- **The check of a role tree**, whatever its handles are.  It ends without a fault, in one round
more than there are roles at most, and it passes exactly if the links form a single forest.  Then
the climb from every role ends, and the ancestors of the role are the way up from its parent to a
root. -/
theorem forest_checked (t : RoleTree) :
    Watched.checkForest t = Watched.of t.checkForest ∧
    (t.checkForest = .ok () ↔ t.SingleForest) ∧
    (t.checkForest = .ok () → ∀ id role, t.get? id = some role →
      t.Ascent id (t.ancestors id) ∧
      ∀ steps, t.roles.length ≤ steps → t.climb steps role.parent = t.ancestors id) := by
  refine ⟨Watched.checkForest_eq t,
    ⟨singleForest_of_checkForest, SingleForest.checkForest⟩, fun h id role hrole => ?_⟩
  have hsingle := singleForest_of_checkForest h
  have hascent := hsingle.ascent_ancestors hrole
  refine ⟨hascent, fun steps hsteps => ?_⟩
  rw [← parent?_of_get? hrole]
  exact hascent.climb ((hsingle.length_ascent hascent).le.trans hsteps)

/-- A tree in which a clerk is older than its parent, the staff. -/
def elderClerk : RoleTree where
  roles := initial.roles ++ [{ name := "clerk", parent := Handle.ofIndex? 4 },
    { name := "staff", children := (Handle.ofIndex? 3).toList }]
  roots := initial.roots ++ (Handle.ofIndex? 4).toList

/-- The tree passes, though no requests build it, and the way up from the clerk is the staff. -/
theorem forest_checked_elderClerk :
    elderClerk.SingleForest ∧
      ∃ clerk staff, elderClerk.get? clerk = some elderClerk.roles[3] ∧ clerk.index < staff.index ∧
        elderClerk.Ascent clerk [staff] := by
  obtain ⟨_, hsingle, hascent⟩ := forest_checked elderClerk
  have hpasses : elderClerk.checkForest = .ok () := by decide +kernel
  have hclerk : elderClerk.get? ⟨3, by decide⟩ = some elderClerk.roles[3] := rfl
  have hancestors : elderClerk.ancestors ⟨3, by decide⟩ = [⟨4, by decide⟩] := by decide +kernel
  have h := (hascent hpasses _ _ hclerk).1
  rw [hancestors] at h
  exact ⟨hsingle.1 hpasses, _, _, hclerk, by decide, h⟩

end DataModel.RoleTree
