import DataModel.Proofs.Roles.SingleForest
import DataModel.Report

/-!
# Outlines of a role tree

A role tree is printed as an outline: each role is followed by its children, one level deeper, and
each of these by its own.  Printing calls itself from role to role, along handles that may have been
read from a snapshot, so it need not end.  `RoleTree.Outline` is what it prints if it ends, on
whatever handles, and `RoleTree.lines` cuts it off at a depth.

In a single forest printing ends (`RoleTree.SingleForest.exists_outline`), by induction on the
number of roles that are not on the way up.  A role is printed at the depth of its way up
(`Outline.depth_eq`), so nothing is cut off at the number of roles (`Outline.lines_eq`).  The
outline goes through the roles as the check of the forest visits them, which takes each role once
(`Outline.visit`).  The order is read off the outline where it is split at a role: behind the role
stands the outline of its children (`Outline.exists_of_mem`), and a list of siblings is outlined one
after the other (`Outline.append`).  `RoleTree.Outlined` collects what is known of the outline of a
forest.
-/

namespace DataModel.RoleTree

/-- A role in an outline. -/
structure Entry where
  depth : Nat
  id : Handle .role

variable (t : RoleTree)

/-- The line of an entry. -/
def line (e : Entry) : String := Report.indented e.depth ((t.get? e.id).elim "?" Role.name)

/-- **The outline of some roles.**  A handle that leads nowhere is passed over. -/
inductive Outline : Nat → List (Handle .role) → List Entry → Prop
  | nil {depth : Nat} : Outline depth [] []
  | absent {depth : Nat} {id : Handle .role} {ids : List (Handle .role)} {rest : List Entry}
      (missing : t.get? id = none) (siblings : Outline depth ids rest) :
      Outline depth (id :: ids) rest
  | role {depth : Nat} {id : Handle .role} {ids : List (Handle .role)} {role : Role}
      {below rest : List Entry} (found : t.get? id = some role)
      (children : Outline (depth + 1) role.children below) (siblings : Outline depth ids rest) :
      Outline depth (id :: ids) (⟨depth, id⟩ :: (below ++ rest))

variable {t} {depth : Nat} {id p next : Handle .role} {ids ids' above : List (Handle .role)}
  {role : Role} {out : List Entry} {e : Entry}

namespace Outline

/-! ### Lines -/

/-- **The outline is what is printed**, unless the levels do not reach down to all of its
entries. -/
theorem lines_eq (hout : t.Outline depth ids out) {levels : Nat}
    (hlevels : ∀ e ∈ out, e.depth < depth + levels) :
    ids.flatMap (t.lines levels depth) = out.map t.line := by
  induction hout generalizing levels with
  | nil => rfl
  | absent missing _ ih =>
    rw [List.flatMap_cons, ih hlevels]
    cases levels with
    | zero => rfl
    | succ levels => rw [lines, missing, List.nil_append]
  | @role depth id ids role below rest found _ _ ihchildren ihsiblings =>
    rw [List.forall_mem_cons, List.forall_mem_append] at hlevels
    obtain ⟨hlt, hbelow, hrest⟩ := hlevels
    cases levels with
    | zero => exact absurd hlt (Nat.lt_irrefl _)
    | succ levels =>
      have hchildren : role.children.flatMap (t.lines levels (depth + 1)) = below.map t.line := by
        refine ihchildren fun e he => ?_
        have := hbelow e he
        omega
      rw [List.flatMap_cons, ihsiblings hrest, lines, found]
      dsimp only
      rw [hchildren, List.map_cons, List.map_append, line, found]
      rfl

/-! ### Visits -/

/-- **The check of the forest visits the roles of an outline**, and no role twice. -/
theorem visit (hout : t.Outline depth ids out) {lister : Option (Handle .role)}
    {pending : List (Option (Handle .role) × Handle .role)} {unreached rest : List (Handle .role)}
    (h : t.visit unreached (ids.map (lister, ·) ++ pending) = .ok rest) :
    ∃ unreached', unreached.Perm (out.map Entry.id ++ unreached') ∧
      t.visit unreached' pending = .ok rest := by
  induction hout generalizing lister pending unreached with
  | nil => exact ⟨unreached, .refl _, h⟩
  | absent missing _ ih =>
    rw [List.map_cons, List.cons_append, RoleTree.visit, missing] at h
    exact absurd h failFlaw_ne_ok
  | @role depth id ids role below rest found _ _ ihchildren ihsiblings =>
    rw [List.map_cons, List.cons_append, RoleTree.visit, found] at h
    dsimp only at h
    split_ifs at h with hparent hmem
    obtain ⟨unreached', hbelow, h⟩ := ihchildren h
    obtain ⟨unreached'', hrest, h⟩ := ihsiblings h
    refine ⟨unreached'', ?_, h⟩
    rw [List.map_cons, List.map_append, List.cons_append, List.append_assoc]
    exact (List.perm_cons_erase hmem).trans ((hbelow.trans (hrest.append_left _)).cons id)

/-! ### Order -/

/-- **The children of a role stand behind it**, outlined one level deeper. -/
theorem exists_of_mem (hout : t.Outline depth ids out) (he : e ∈ out) :
    ∃ role before below after, t.get? e.id = some role ∧
      t.Outline (e.depth + 1) role.children below ∧ out = before ++ e :: (below ++ after) := by
  induction hout with
  | nil => cases he
  | absent _ _ ih => exact ih he
  | @role depth id ids role below rest found children siblings ihchildren ihsiblings =>
    rw [List.mem_cons, List.mem_append] at he
    rcases he with rfl | he | he
    · exact ⟨role, [], below, rest, found, children, rfl⟩
    · obtain ⟨role', before, below', after, hrole', hbelow', rfl⟩ := ihchildren he
      exact ⟨role', ⟨depth, id⟩ :: before, below', after ++ rest, hrole', hbelow', by simp⟩
    · obtain ⟨role', before, below', after, hrole', hbelow', rfl⟩ := ihsiblings he
      exact ⟨role', ⟨depth, id⟩ :: (below ++ before), below', after, hrole', hbelow', by simp⟩

/-- **Siblings are outlined one after the other.** -/
theorem append (hout : t.Outline depth (ids ++ ids') out) :
    ∃ before after, t.Outline depth ids before ∧ t.Outline depth ids' after ∧
      out = before ++ after := by
  induction ids generalizing out with
  | nil => exact ⟨[], out, .nil, hout, rfl⟩
  | cons id ids ih =>
    cases hout with
    | absent missing siblings =>
      obtain ⟨before, after, hbefore, hafter, rfl⟩ := ih siblings
      exact ⟨before, after, .absent missing hbefore, hafter, rfl⟩
    | @role _ _ _ role below _ found children siblings =>
      obtain ⟨before, after, hbefore, hafter, rfl⟩ := ih siblings
      exact ⟨⟨depth, id⟩ :: (below ++ before), after, .role found children hbefore, hafter,
        by simp⟩

/-- A role is in its outline. -/
theorem mem_of_mem (hout : t.Outline depth ids out) (hid : id ∈ ids)
    (hrole : t.get? id = some role) : id ∈ out.map Entry.id := by
  induction hout with
  | nil => cases hid
  | absent missing _ ih =>
    rcases List.mem_cons.1 hid with rfl | hid
    · cases missing.symm.trans hrole
    · exact ih hid
  | role _ _ _ _ ih =>
    rcases List.mem_cons.1 hid with rfl | hid
    · exact List.mem_cons_self
    · rw [List.map_cons, List.map_append]
      exact List.mem_cons_of_mem _ (List.mem_append_right _ (ih hid))

/-- **A child stands behind its parent.** -/
theorem sublist_of_child (hout : t.Outline depth ids out) (hp : p ∈ out.map Entry.id)
    {parent child : Role} (hparent : t.get? p = some parent) (hid : id ∈ parent.children)
    (hchild : t.get? id = some child) : [p, id].Sublist (out.map Entry.id) := by
  obtain ⟨e, he, rfl⟩ := List.mem_map.1 hp
  obtain ⟨role, before, below, after, hrole, hbelow, rfl⟩ := hout.exists_of_mem he
  obtain rfl := Option.some.inj (hrole.symm.trans hparent)
  have hmem : id ∈ below.map Entry.id := hbelow.mem_of_mem hid hchild
  have hsub : [id].Sublist ((below ++ after).map Entry.id) := by
    rw [List.singleton_sublist, List.map_append]
    exact List.mem_append_left _ hmem
  rw [List.map_append, List.map_cons]
  exact (hsub.cons_cons e.id).trans (List.sublist_append_right _ _)

end Outline

namespace SingleForest

variable (h : t.SingleForest)

include h

/-! ### Forests -/

/-- The way up from a child goes through its parent. -/
theorem ascent_child (hp : t.Ascent p above) (hrole : t.get? p = some role)
    (hid : id ∈ role.children) : t.Ascent id (p :: above) := by
  have hlisted : (some p, id) ∈ t.listings := mem_listings_some.2 ⟨role, hrole, hid⟩
  exact .step (mem_records_iff.1 (h.mem_records hlisted)).2 hp

/-- A role is listed by its parent. -/
theorem exists_of_parent (hparent : t.parent? id = some p) :
    ∃ parent child, t.get? p = some parent ∧ id ∈ parent.children ∧ t.get? id = some child := by
  obtain ⟨child, hchild, _⟩ := Option.bind_eq_some_iff.1 hparent
  have hrecorded : (some p, id) ∈ t.records := mem_records_iff.2 ⟨⟨child, hchild⟩, hparent⟩
  obtain ⟨parent, hp, hid⟩ := mem_listings_some.1 (h.forest.listed.mem_iff.2 hrecorded)
  exact ⟨parent, child, hp, hid, hchild⟩

theorem ascent_root (hid : id ∈ t.roots) : t.Ascent id [] := by
  obtain ⟨role, hrole, hparent⟩ := h.roots id hid
  exact .root hid ((parent?_of_get? hrole).trans hparent)

/-- **Printing ends**, below roles on whose ways up not too many roles are missing. -/
theorem exists_outline {steps : Nat}
    (hids : ∀ id ∈ ids, ∃ above, t.Ascent id above ∧ t.roles.length ≤ above.length + steps) :
    ∃ out, t.Outline depth ids out := by
  induction steps generalizing depth ids with
  | zero =>
    cases ids with
    | nil => exact ⟨[], .nil⟩
    | cons id ids =>
      -- No way up is as long as there are roles.
      obtain ⟨above, habove, hle⟩ := hids id List.mem_cons_self
      exact absurd hle (Nat.not_le.2 (h.length_ascent habove))
  | succ steps ihsteps =>
    induction ids with
    | nil => exact ⟨[], .nil⟩
    | cons id ids ih =>
      rw [List.forall_mem_cons] at hids
      obtain ⟨⟨above, habove, hle⟩, hids⟩ := hids
      obtain ⟨role, hrole⟩ := mem_handles_iff.1 (h.mem_handles_of_ascent habove)
      have hchildren : ∃ below, t.Outline (depth + 1) role.children below := by
        refine ihsteps fun c hc => ⟨id :: above, h.ascent_child habove hrole hc, ?_⟩
        rw [List.length_cons]
        omega
      obtain ⟨below, hbelow⟩ := hchildren
      obtain ⟨rest, hrest⟩ := ih hids
      exact ⟨_, .role hrole hbelow hrest⟩

end SingleForest

namespace Outline

variable (h : t.SingleForest)

include h

/-- **An entry is as deep as its way up is long.** -/
theorem depth_eq (hout : t.Outline depth ids out)
    (hids : ∀ id ∈ ids, ∃ above, t.Ascent id above ∧ depth = above.length + 1) :
    ∀ e ∈ out, ∃ above, t.Ascent e.id above ∧ e.depth = above.length + 1 := by
  induction hout with
  | nil => exact fun e he => absurd he List.not_mem_nil
  | absent _ _ ih => exact ih (List.forall_mem_cons.1 hids).2
  | @role depth id ids role below rest found _ _ ihchildren ihsiblings =>
    rw [List.forall_mem_cons] at hids
    obtain ⟨⟨above, habove, hdepth⟩, hids⟩ := hids
    rw [List.forall_mem_cons, List.forall_mem_append]
    refine ⟨⟨above, habove, hdepth⟩, ihchildren fun c hc => ?_, ihsiblings hids⟩
    refine ⟨id :: above, h.ascent_child habove found hc, ?_⟩
    rw [List.length_cons, hdepth]

/-- With a role, all roles below it are in an outline. -/
theorem mem_of_ascent (hout : t.Outline depth ids out) (hp : p ∈ out.map Entry.id)
    (hid : t.Ascent id above) (habove : p ∈ above) : id ∈ out.map Entry.id := by
  induction hid with
  | root => cases habove
  | @step id q above hparent _ ih =>
    have hq : q ∈ out.map Entry.id := by
      rcases List.mem_cons.1 habove with rfl | habove
      · exact hp
      · exact ih habove
    obtain ⟨parent, child, hrole, hlisted, hchild⟩ := h.exists_of_parent hparent
    exact (hout.sublist_of_child hq hrole hlisted hchild).subset (by simp)

/-- **A role and all roles below it stand in front of its next sibling.** -/
theorem sublist_of_next {earlier later : List (Handle .role)} {b : Handle .role}
    (hout : t.Outline depth (earlier ++ id :: next :: later) out) {role role' : Role}
    (hrole : t.get? id = some role) (hnext : t.get? next = some role')
    (hb : b = id ∨ ∃ above, t.Ascent b above ∧ id ∈ above) :
    [b, next].Sublist (out.map Entry.id) := by
  obtain ⟨front, out, _, htail, rfl⟩ := hout.append
  rw [← List.singleton_append] at htail
  obtain ⟨first, rest, hfirst, hrest, rfl⟩ := htail.append
  have hid : id ∈ first.map Entry.id := hfirst.mem_of_mem List.mem_cons_self hrole
  have hbmem : b ∈ first.map Entry.id := by
    rcases hb with rfl | ⟨above, hascent, habove⟩
    · exact hid
    · exact hfirst.mem_of_ascent h hid hascent habove
  have hnextmem : next ∈ rest.map Entry.id := hrest.mem_of_mem List.mem_cons_self hnext
  have hsub := (List.singleton_sublist.2 hbmem).append (List.singleton_sublist.2 hnextmem)
  rw [List.map_append, List.map_append]
  exact hsub.trans (List.sublist_append_right _ _)

end Outline

variable (t) in
/-- The roles are listed together: they are the roots, or the children of a role. -/
def Siblings (ids : List (Handle .role)) : Prop :=
  ids = t.roots ∨ ∃ p role, t.get? p = some role ∧ ids = role.children

/-- **The outline of a forest.**  It is what is printed, however many levels are allowed for beyond
the number of roles (`outline`, `lines`), and it shows every role once (`nodup`, `mem`, `length`),
at a depth of one more than its ancestors (`depth`), behind its parent (`parent`), and in front of
its next sibling with all roles below it (`next`). -/
structure Outlined (t : RoleTree) (out : List Entry) : Prop where
  outline : t.Outline 1 t.roots out
  lines : ∀ levels, t.roles.length ≤ levels →
    t.roots.flatMap (t.lines levels 1) = out.map t.line
  nodup : (out.map Entry.id).Nodup
  mem : ∀ id, id ∈ out.map Entry.id ↔ ∃ role, t.get? id = some role
  length : out.length = t.roles.length
  depth : ∀ e ∈ out, e.depth = (t.ancestors e.id).length + 1
  parent : ∀ id p, t.parent? id = some p → [p, id].Sublist (out.map Entry.id)
  next : ∀ earlier id next later, t.Siblings (earlier ++ id :: next :: later) →
    ∀ b, b = id ∨ id ∈ t.ancestors b → [b, next].Sublist (out.map Entry.id)

namespace SingleForest

variable (h : t.SingleForest)

include h

theorem length_handles : (handles t.roles.length).length = t.roles.length := by
  have hge := List.length_filterMap_le t.get? (handles t.roles.length)
  rw [filterMap_get?_handles h.length_le] at hge
  exact Nat.le_antisymm (length_handles_le _) hge

/-- The ancestors are the way up from whatever has any. -/
theorem ascent_of_mem_ancestors (hp : p ∈ t.ancestors id) : t.Ascent id (t.ancestors id) := by
  cases hrole : t.get? id with
  | some role => exact h.ascent_ancestors hrole
  | none =>
    have hnone : t.ancestors id = [] := by
      rw [ancestors, hrole]
      cases t.roles.length <;> rfl
    rw [hnone] at hp
    cases hp

/-- Roles that are listed together are roles. -/
theorem exists_of_siblings (hids : t.Siblings ids) : ∀ id ∈ ids, ∃ role, t.get? id = some role := by
  intro id hid
  rcases hids with rfl | ⟨p, role, hrole, rfl⟩
  · obtain ⟨root, hroot, _⟩ := h.roots id hid
    exact ⟨root, hroot⟩
  · obtain ⟨child, hchild, _⟩ := h.children p.index role hrole id hid
    exact ⟨child, hchild⟩

/-- **The outline from the roots shows every role once.** -/
theorem map_id_perm (hout : t.Outline 1 t.roots out) :
    (out.map Entry.id).Perm (handles t.roles.length) := by
  -- The visit of the check leaves no role over.
  obtain ⟨rest, hvisit, hrest⟩ := bind_eq_ok.1 h.checkForest
  have hnone : rest = [] := by
    cases rest with
    | nil => rfl
    | cons id rest => cases hrest
  rw [hnone, ← List.append_nil (t.roots.map _)] at hvisit
  obtain ⟨unreached, hperm, hnil⟩ := hout.visit hvisit
  rw [RoleTree.visit, Except.ok.injEq] at hnil
  rw [hnil, List.append_nil] at hperm
  exact hperm.symm

/-- A role with all roles below it stands in front of its next sibling, wherever both are listed. -/
theorem sublist_of_siblings (hout : t.Outline 1 t.roots out) {earlier later : List (Handle .role)}
    (hids : t.Siblings (earlier ++ id :: next :: later)) {b : Handle .role}
    (hb : b = id ∨ id ∈ t.ancestors b) : [b, next].Sublist (out.map Entry.id) := by
  have hknown := h.exists_of_siblings hids
  obtain ⟨role, hrole⟩ := hknown id (by simp)
  obtain ⟨role', hrole'⟩ := hknown next (by simp)
  have hbelow : b = id ∨ ∃ above, t.Ascent b above ∧ id ∈ above :=
    hb.imp_right fun hmem => ⟨_, h.ascent_of_mem_ancestors hmem, hmem⟩
  rcases hids with hroots | ⟨p, parent, hparent, hchildren⟩
  · rw [← hroots] at hout
    exact hout.sublist_of_next h hrole hrole' hbelow
  · have hp : p ∈ out.map Entry.id :=
      (h.map_id_perm hout).mem_iff.2 (mem_handles_iff.2 ⟨parent, hparent⟩)
    obtain ⟨e, he, rfl⟩ := List.mem_map.1 hp
    obtain ⟨_, front, below, after, hget, houtline, rfl⟩ := hout.exists_of_mem he
    obtain rfl := Option.some.inj (hget.symm.trans hparent)
    rw [← hchildren] at houtline
    have hsub := houtline.sublist_of_next h hrole hrole' hbelow
    refine hsub.trans (List.Sublist.map Entry.id ?_)
    exact ((List.sublist_append_left below after).cons e).trans (List.sublist_append_right front _)

/-- **A single forest has an outline.** -/
theorem exists_outlined : ∃ out, t.Outlined out := by
  have hroots : ∀ id ∈ t.roots, t.Ascent id [] := fun id hid => h.ascent_root hid
  have hends : ∃ out, t.Outline 1 t.roots out :=
    h.exists_outline fun id hid => ⟨[], hroots id hid, Nat.le_add_left t.roles.length _⟩
  obtain ⟨out, hout⟩ := hends
  have hperm := h.map_id_perm hout
  have hmem (id : Handle .role) : id ∈ out.map Entry.id ↔ ∃ role, t.get? id = some role := by
    rw [hperm.mem_iff, mem_handles_iff]
  have hdepth : ∀ e ∈ out, e.depth = (t.ancestors e.id).length + 1 := by
    intro e he
    obtain ⟨above, habove, heq⟩ := hout.depth_eq h (fun id hid => ⟨[], hroots id hid, rfl⟩) e he
    obtain ⟨role, hrole⟩ := (hmem e.id).1 (List.mem_map_of_mem he)
    rw [heq, habove.unique (h.ascent_ancestors hrole)]
  refine ⟨out, ?_⟩
  constructor
  case outline => exact hout
  case lines =>
    intro levels hlevels
    apply hout.lines_eq
    intro e he
    obtain ⟨role, hrole⟩ := (hmem e.id).1 (List.mem_map_of_mem he)
    have hlength := h.length_ascent (h.ascent_ancestors hrole)
    have heq := hdepth e he
    omega
  case nodup => exact hperm.nodup_iff.2 (nodup_handles _)
  case mem => exact hmem
  case length => rw [← h.length_handles, ← hperm.length_eq, List.length_map]
  case depth => exact hdepth
  case parent =>
    intro id p hparent
    obtain ⟨parent, child, hp, hlisted, hchild⟩ := h.exists_of_parent hparent
    exact hout.sublist_of_child ((hmem p).2 ⟨parent, hp⟩) hp hlisted hchild
  case next => exact fun _ _ _ _ hids _ hb => h.sublist_of_siblings hout hids hb

end SingleForest

end DataModel.RoleTree
