import DataModel.Proofs.Naming.Headings
import DataModel.Proofs.Roles.Forest
import Mathlib.Data.List.Chain

/-!
# Trees that grow

`RoleTree.grow` builds a tree by any requests for roles, under any parents and with any names.  A
request that is refused leaves the tree as it is, and one that is carried out writes in two places:
the role itself stands at the end of the roles, and its handle at the end of the children of its
parent, or of the roots.

`Grown` is what all such trees have in common.  A request keeps it (`Grown.allocate`), because what
is listed and what is recorded gain the same link (`listings_declare`, `records_declare`) and a
parent is older than its children, so that ages rank the roles of a forest.  From this follows what
a reader of a tree relies on (`RoleTree.sound_grow`): the tree is admitted, each role is listed once
and by its parent, a name stands for one role, and the way up from a role ends at a root.  And the
next request is answered as its name and its parent ask (`RoleTree.Answered`), so that the roles
stand in the order in which they were allocated.
-/

namespace DataModel

/-- The role without its children. -/
def Role.bare (r : Role) : Role := { r with children := [] }

namespace RoleTree

/-- The tree with a role that has no children yet. -/
def declare (t : RoleTree) (parent : Option (Handle .role)) (name : String) (id : Handle .role) :
    RoleTree :=
  { t with roles := t.roles ++ [({ name, parent } : Role)] }.attach parent id

/-- The tree after a request for a role under a parent, carried out or refused. -/
def after (t : RoleTree) (request : Option (Handle .role) × String) : RoleTree :=
  match t.allocate request.1 request.2 with
  | .ok (_, t') => t'
  | .error _ => t

/-- The tree that some requests build, from the implicit roles on. -/
def grow (requests : List (Option (Handle .role) × String)) : RoleTree :=
  requests.foldl after initial

variable {t t' : RoleTree} {parent : Option (Handle .role)} {name : String} {id i : Handle .role}
  {role : Role}

/-! ### A request that is carried out -/

/-- **What allocating a role asks for**, and what it does. -/
theorem allocate_eq_ok :
    t.allocate parent name = .ok (id, t') ↔
      Scope.role.checkNew name (t.roles.map Role.name) = .ok () ∧
        (∀ p ∈ parent, p.index < t.roles.length) ∧ id.index = t.roles.length ∧
          t' = t.declare parent name id := by
  have hparent : (parent.any fun p => decide (t.roles.length ≤ p.index)) = true ↔
      ¬∀ p ∈ parent, p.index < t.roles.length := by
    cases parent <;> simp
  simp only [allocate, bind_eq_ok, hparent]
  constructor
  · rintro ⟨_, hchecked, h⟩
    split_ifs at h with hknown
    · simp only [bind_eq_ok, pure, Except.pure, Except.ok.injEq, Prod.mk.injEq] at h
      obtain ⟨_, hid, rfl, rfl⟩ := h
      exact ⟨hchecked, hknown, Handle.allocate_eq_ok.1 hid, rfl⟩
    · simp only [bind_eq_ok] at h
      obtain ⟨_, hfail, -⟩ := h
      exact absurd hfail fail_ne_ok
  · rintro ⟨hchecked, hknown, hid, rfl⟩
    refine ⟨(), hchecked, ?_⟩
    rw [if_neg (not_not.2 hknown)]
    simp only [ok_bind, Handle.allocate_eq_ok.2 hid]
    rfl

theorem get?_attach :
    (t.attach parent id).get? i = (t.get? i).map fun r =>
      if parent = some i then { r with children := r.children ++ [id] } else r := by
  cases parent with
  | none => simp [attach, get?]
  | some p =>
    have heq : p.index = i.index ↔ p = i := ⟨Handle.ext, congrArg _⟩
    simp only [attach, get?, List.getElem?_modify, heq, Option.some.injEq]
    split_ifs <;> simp

/-- What is not about children is for the other roles as before. -/
theorem map_declare {α : Type} {f : Role → α} (hf : ∀ r, f r.bare = f r) :
    (t.declare parent name id).roles.map f = t.roles.map f ++ [f { name, parent }] := by
  have hattach (t : RoleTree) : (t.attach parent id).roles.map f = t.roles.map f := by
    cases parent with
    | none => rfl
    | some p =>
      refine List.ext_getElem? fun n => ?_
      simp only [attach, List.getElem?_map, List.getElem?_modify]
      cases t.roles[n]? with
      | none => rfl
      | some r =>
        split_ifs
        · exact congrArg some ((hf _).symm.trans (hf r))
        · rfl
  rw [declare, hattach, List.map_append, List.map_singleton]

theorem length_declare : (t.declare parent name id).roles.length = t.roles.length + 1 := by
  have hmap : (t.declare parent name id).roles.map (fun _ => ()) =
      t.roles.map (fun _ => ()) ++ [()] := map_declare fun _ => rfl
  simpa using congrArg List.length hmap

/-- The role itself has no children. -/
theorem get?_declare_self (hid : id.index = t.roles.length)
    (hknown : ∀ p ∈ parent, p.index < t.roles.length) :
    (t.declare parent name id).get? id = some { name, parent } := by
  have hne : parent ≠ some id := fun heq => by
    have hlt := hknown id heq
    omega
  rw [declare, get?_attach, get?, hid, List.getElem?_concat_length, Option.map_some, if_neg hne]

/-- The role is a child of its parent; the children of every other role stay. -/
theorem get?_declare (hi : i.index < t.roles.length) :
    (t.declare parent name id).get? i = (t.get? i).map fun r =>
      if parent = some i then { r with children := r.children ++ [id] } else r := by
  rw [declare, get?_attach, get?, get?, List.getElem?_append_left hi]

/-- **What allocating a role adds to a tree.**  The role stands behind all others, bare of children,
and its handle behind those that are listed with it; nothing else is written. -/
structure Adds (t : RoleTree) (parent : Option (Handle .role)) (name : String) (id : Handle .role)
    (t' : RoleTree) : Prop where
  index : id.index = t.roles.length
  length : t'.roles.length = t.roles.length + 1
  role : t'.get? id = some { name, parent }
  others : ∀ i, i.index < t.roles.length → t'.get? i = (t.get? i).map fun r =>
    if parent = some i then { r with children := r.children ++ [id] } else r
  roots : t'.roots = if parent = none then t.roots ++ [id] else t.roots

theorem adds_of_allocate (h : t.allocate parent name = .ok (id, t')) :
    t.Adds parent name id t' := by
  obtain ⟨-, hknown, hid, rfl⟩ := allocate_eq_ok.1 h
  constructor
  case index => exact hid
  case length => exact length_declare
  case role => exact get?_declare_self hid hknown
  case others => exact fun i hi => get?_declare hi
  case roots =>
    cases parent with
    | none => rfl
    | some p => rfl

/-- The name is one for a new role, the parent is known, and there is room for one more role. -/
structure Accepts (t : RoleTree) (parent : Option (Handle .role)) (name : String) : Prop where
  named : name ≠ ""
  unreserved : Ident.isReserved name = false
  fresh : ∀ role ∈ t.roles, Ident.fold role.name ≠ Ident.fold name
  known : ∀ p ∈ parent, p.index < t.roles.length
  room : t.roles.length < Handle.bound

theorem exists_allocate_iff :
    (∃ id t', t.allocate parent name = .ok (id, t')) ↔ t.Accepts parent name := by
  simp only [allocate_eq_ok, Scope.checkNew_eq_ok_iff, List.forall_mem_map]
  constructor
  · rintro ⟨id, _, ⟨hnamed, hunreserved, hfresh⟩, hknown, hid, -⟩
    exact ⟨hnamed, hunreserved, hfresh, hknown, hid ▸ id.index_lt⟩
  · intro h
    exact ⟨⟨t.roles.length, h.room⟩, _, ⟨h.named, h.unreserved, h.fresh⟩, h.known, rfl, rfl⟩

theorem handles_succ {n : Nat} (hid : id.index = n) : handles (n + 1) = handles n ++ [id] := by
  rw [handles, List.range_succ, List.filterMap_append, handles, ← hid, List.filterMap_cons,
    Handle.ofIndex?_index, List.filterMap_nil]

theorem index_lt_of_mem_handles {n : Nat} (h : i ∈ handles n) : i.index < n := by
  obtain ⟨m, hm, hi⟩ := List.mem_filterMap.1 h
  rw [Handle.ofIndex?_eq_some_iff.1 hi]
  exact List.mem_range.1 hm

/-- The role is recorded under its parent, the others as before. -/
theorem records_declare (hid : id.index = t.roles.length)
    (hknown : ∀ p ∈ parent, p.index < t.roles.length) :
    (t.declare parent name id).records = t.records ++ [(parent, id)] := by
  have hold : ∀ i ∈ handles t.roles.length,
      ((t.declare parent name id).parent? i, i) = (t.parent? i, i) := by
    intro i hi
    rw [parent?, get?_declare (index_lt_of_mem_handles hi), parent?]
    cases t.get? i with
    | none => rfl
    | some r =>
      rw [Option.map_some, Option.bind_some, Option.bind_some]
      split_ifs <;> rfl
  rw [records, length_declare, handles_succ hid, List.map_append, List.map_congr_left hold,
    List.map_singleton, parent?_of_get? (get?_declare_self hid hknown)]
  rfl

/-- **The role is listed once more**, by its parent or among the roots. -/
theorem listings_declare (hid : id.index = t.roles.length)
    (hknown : ∀ p ∈ parent, p.index < t.roles.length) :
    (t.declare parent name id).listings.Perm (t.listings ++ [(parent, id)]) := by
  have hnone : (t.declare parent name id).listedBy id = [] := by
    rw [listedBy_of_get? (get?_declare_self hid hknown), List.map_nil]
  have hothers : ∀ i ∈ handles t.roles.length, parent ≠ some i →
      (t.declare parent name id).listedBy i = t.listedBy i := by
    intro i hi hne
    rw [listedBy, get?_declare (index_lt_of_mem_handles hi), listedBy]
    cases t.get? i with
    | none => rfl
    | some r => rw [Option.map_some, if_neg hne]
  rw [listings, length_declare, handles_succ hid, List.flatMap_append, List.flatMap_singleton,
    hnone, List.append_nil, listings]
  cases parent with
  | none =>
    have hroots : (t.declare none name id).roots = t.roots ++ [id] := rfl
    rw [List.flatMap_congr fun i hi => hothers i hi (Option.some_ne_none i).symm, hroots,
      List.map_append, List.map_singleton, List.append_assoc, List.append_assoc]
    exact List.perm_append_comm.append_left _
  | some p =>
    have hroots : (t.declare (some p) name id).roots = t.roots := rfl
    have hp : p.index < t.roles.length := hknown p rfl
    have hat : t.get? p = some t.roles[p.index] := List.getElem?_eq_getElem hp
    have hmem : p ∈ handles t.roles.length := mem_handles_iff.2 ⟨_, hat⟩
    have hgained : (t.declare (some p) name id).listedBy p = t.listedBy p ++ [(some p, id)] := by
      rw [listedBy, get?_declare hp, listedBy, hat, Option.map_some, if_pos rfl, Option.elim_some,
        Option.elim_some, List.map_append, List.map_singleton]
    -- The parent comes first among the roles; it stands among them once.
    have hfirst := List.perm_cons_erase hmem
    have hrest : ((handles t.roles.length).erase p).flatMap (t.declare (some p) name id).listedBy =
        ((handles t.roles.length).erase p).flatMap t.listedBy := by
      refine List.flatMap_congr fun i hi => hothers i (List.mem_of_mem_erase hi) fun heq => ?_
      obtain rfl := Option.some.inj heq
      exact (nodup_handles _).not_mem_erase hi
    have hnew := hfirst.flatMap_right (t.declare (some p) name id).listedBy
    have hold := hfirst.flatMap_right t.listedBy
    rw [List.flatMap_cons, hgained, hrest, List.append_assoc] at hnew
    rw [List.flatMap_cons] at hold
    rw [hroots, List.append_assoc]
    refine List.Perm.append_left _ (hnew.trans ?_)
    refine (List.perm_append_comm.append_left _).trans ?_
    rw [← List.append_assoc]
    exact hold.symm.append_right _

/-! ### What a request keeps -/

/-- What is true of a tree that was built by requests alone. -/
structure Grown (t : RoleTree) : Prop where
  length_le : t.roles.length ≤ Handle.bound
  listed : t.listings.Perm t.records
  /-- A parent is older than its children. -/
  older : ∀ id p, t.parent? id = some p → p.index < id.index
  roots_sorted : t.roots.Pairwise (·.index < ·.index)
  children_sorted : ∀ id role, t.get? id = some role → role.children.Pairwise (·.index < ·.index)
  distinct : (t.roles.map fun r => Ident.fold r.name).Nodup
  implicits : (t.roles.filter Role.implicit).map Role.name = implicitNames
  implicit_root : ∀ role ∈ t.roles, role.implicit = true → role.parent = none
  declared : ∀ role ∈ t.roles, role.implicit = false →
    role.name ≠ "" ∧ Ident.isReserved role.name = false

theorem grown_initial : initial.Grown where
  length_le := by decide
  listed := by decide
  older := by
    intro id p h
    have hbare : ∀ role ∈ initial.roles, role.parent = none := by decide
    rw [parent?, Option.bind_eq_some_iff] at h
    obtain ⟨role, hrole, hp⟩ := h
    rw [hbare role (List.mem_of_getElem? hrole)] at hp
    cases hp
  roots_sorted := by decide
  children_sorted := by
    intro id role h
    have hbare : ∀ role ∈ initial.roles, role.children = [] := by decide
    rw [hbare role (List.mem_of_getElem? h)]
    exact .nil
  distinct := by decide +kernel
  implicits := by decide
  implicit_root := by decide
  declared := by decide

variable (h : t.Grown)

include h

/-- A listed role is one of the roles, recorded under the one that lists it. -/
theorem Grown.of_listed (hmem : (parent, i) ∈ t.listings) :
    (∃ role, t.get? i = some role) ∧ t.parent? i = parent :=
  mem_records_iff.1 (h.listed.mem_iff.1 hmem)

/-- A role is listed by its parent, or among the roots. -/
theorem Grown.mem_listings (hrole : t.get? i = some role) : (role.parent, i) ∈ t.listings :=
  h.listed.mem_iff.2 (mem_records_iff.2 ⟨⟨role, hrole⟩, parent?_of_get? hrole⟩)

/-- **A role that is allocated** keeps a tree grown. -/
theorem Grown.allocate (hallocate : t.allocate parent name = .ok (id, t')) : t'.Grown := by
  obtain ⟨hchecked, hknown, hid, rfl⟩ := allocate_eq_ok.1 hallocate
  obtain ⟨hempty, hfree, hnew⟩ := Scope.checkNew_eq_ok_iff.1 hchecked
  have hrecords : (t.declare parent name id).records = t.records ++ [(parent, id)] :=
    records_declare hid hknown
  constructor
  case length_le =>
    have hbound := id.index_lt
    rw [length_declare]
    omega
  case listed =>
    rw [hrecords]
    exact (listings_declare hid hknown).trans (h.listed.append_right _)
  case older =>
    intro i p hp
    obtain ⟨r, hr, -⟩ := Option.bind_eq_some_iff.1 hp
    have hmem := mem_records_iff.2 ⟨⟨r, hr⟩, hp⟩
    rw [hrecords, List.mem_append, List.mem_singleton] at hmem
    rcases hmem with hold | hlast
    · exact h.older i p (mem_records_iff.1 hold).2
    · obtain ⟨rfl, rfl⟩ := Prod.mk.inj hlast
      rw [hid]
      exact hknown p rfl
  case roots_sorted =>
    cases parent with
    | some p => exact h.roots_sorted
    | none =>
      refine List.pairwise_append.2 ⟨h.roots_sorted, List.pairwise_singleton _ _, ?_⟩
      intro i hi j hj
      obtain rfl := List.mem_singleton.1 hj
      obtain ⟨⟨r, hr⟩, -⟩ := h.of_listed (mem_listings_none.2 hi)
      rw [hid]
      exact (List.getElem?_eq_some_iff.1 hr).1
  case children_sorted =>
    intro i role hrole
    have hlt := (List.getElem?_eq_some_iff.1 hrole).1
    rw [length_declare] at hlt
    rcases Nat.lt_or_ge i.index t.roles.length with hi | hi
    · rw [get?_declare hi] at hrole
      obtain ⟨r, hr, rfl⟩ := Option.map_eq_some_iff.1 hrole
      split_ifs with hparent
      · refine List.pairwise_append.2 ⟨h.children_sorted i r hr, List.pairwise_singleton _ _, ?_⟩
        intro j hj k hk
        obtain rfl := List.mem_singleton.1 hk
        obtain ⟨⟨q, hq⟩, -⟩ := h.of_listed (mem_listings_some.2 ⟨r, hr, hj⟩)
        rw [hid]
        exact (List.getElem?_eq_some_iff.1 hq).1
      · exact h.children_sorted i r hr
    · obtain rfl : i = id := Handle.ext (by omega)
      rw [get?_declare_self hid hknown] at hrole
      obtain rfl := Option.some.inj hrole
      exact .nil
  case distinct =>
    rw [map_declare fun _ => rfl, List.nodup_append_comm, List.singleton_append, List.nodup_cons]
    refine ⟨fun hold => ?_, h.distinct⟩
    obtain ⟨r, hr, hsame⟩ := List.mem_map.1 hold
    exact hnew r.name (List.mem_map_of_mem hr) hsame
  case implicits =>
    have himplicits (roles : List Role) : (roles.filter Role.implicit).map Role.name =
        (roles.map Role.bare |>.filter Role.implicit).map Role.name := by
      rw [List.filter_map, List.map_map]
      rfl
    rw [himplicits, map_declare fun _ => rfl, List.filter_append, List.map_append, ← himplicits,
      h.implicits]
    rfl
  case implicit_root =>
    have hall : ∀ p ∈ (t.declare parent name id).roles.map
        fun r => (r.implicit = true → r.parent = none), p := by
      rw [map_declare fun _ => rfl, List.forall_mem_append, List.forall_mem_map,
        List.forall_mem_singleton]
      exact ⟨h.implicit_root, nofun⟩
    exact List.forall_mem_map.1 hall
  case declared =>
    have hall : ∀ p ∈ (t.declare parent name id).roles.map
        fun r => (r.implicit = false → r.name ≠ "" ∧ Ident.isReserved r.name = false), p := by
      rw [map_declare fun _ => rfl, List.forall_mem_append, List.forall_mem_map,
        List.forall_mem_singleton]
      exact ⟨h.declared, fun _ => ⟨hempty, hfree⟩⟩
    exact List.forall_mem_map.1 hall

/-- A request keeps a tree grown, also if it is refused. -/
theorem Grown.after (request : Option (Handle .role) × String) : (t.after request).Grown := by
  rw [RoleTree.after]
  split
  · next hallocate => exact h.allocate hallocate
  · exact h

omit h in
/-- **Every tree that requests build is grown.** -/
theorem grown_grow (requests : List (Option (Handle .role) × String)) : (grow requests).Grown := by
  induction requests using List.reverseRecOn with
  | nil => exact grown_initial
  | append_singleton requests request ih =>
    rw [grow, List.foldl_append]
    exact ih.after request

/-! ### What a grown tree is good for -/

theorem Grown.forest : t.Forest := ⟨h.listed, fun id => id.index, h.older⟩

/-- A role is listed by its parent alone, and once. -/
theorem Grown.filter_listings (hrole : t.get? i = some role) :
    t.listings.filter (·.2 = i) = [(role.parent, i)] := by
  have hrecords : t.records.filter (·.2 = i) = [(role.parent, i)] := by
    have hfilter : (handles t.roles.length).filter (· = i) = [i] := by
      have hmem := mem_handles_iff.2 ⟨role, hrole⟩
      rw [List.filter_eq, List.count_eq_one_of_mem (nodup_handles _) hmem, List.replicate_one]
    rw [records, List.filter_map]
    refine (congrArg (List.map _) hfilter).trans ?_
    rw [List.map_singleton, parent?_of_get? hrole]
  have hperm := h.listed.filter (·.2 = i)
  rw [hrecords] at hperm
  exact List.perm_singleton.1 hperm

/-- Every role has a handle. -/
theorem Grown.exists_handle (hrole : role ∈ t.roles) : ∃ i, t.get? i = some role := by
  obtain ⟨n, hn⟩ := List.getElem?_of_mem hrole
  have hlt := (List.getElem?_eq_some_iff.1 hn).1
  exact ⟨⟨n, Nat.lt_of_lt_of_le hlt h.length_le⟩, hn⟩

/-- A name stands for the role that it is the name of, in any spelling. -/
theorem Grown.find? (hrole : t.get? i = some role)
    (hname : Ident.fold name = Ident.fold role.name) : t.find? name = some i :=
  (find?_eq_some_iff h.distinct).2 ⟨role, hrole, hname.symm⟩

/-- **A grown tree is admitted.** -/
theorem Grown.check : t.check = .ok () := by
  have himplicit : ∀ name ∈ implicitNames, t.hasImplicit name = true := by
    intro name hname
    rw [← h.implicits] at hname
    obtain ⟨role, hmem, rfl⟩ := List.mem_map.1 hname
    obtain ⟨hrole, himplicit⟩ := List.mem_filter.1 hmem
    obtain ⟨i, hi⟩ := h.exists_handle hrole
    rw [hasImplicit, h.find? hi rfl, Option.bind_some, hi]
    simp [himplicit, h.implicit_root role hrole himplicit]
  have hnames : checkNames [] t.roles = .ok () :=
    checkNames_eq_ok h.distinct (fun _ _ => List.not_mem_nil) fun role hrole himplicit =>
      (h.declared role hrole himplicit).2
  have hall : (implicitNames.forM fun name =>
      if t.hasImplicit name then .ok () else failFlaw (.implicitRoleMissing name)) = .ok () :=
    forM_eq_ok.2 fun name hname => if_pos (himplicit name hname)
  rw [RoleTree.check, hall, ok_bind, h.forest.checkForest h.length_le, ok_bind, hnames]

/-- The parents that are met on the way up from a role. Each is older than the one before, so
`steps` are enough if they are more than the age of the role. -/
theorem Grown.climb {steps : Nat} (hrole : t.get? i = some role) (hsteps : i.index < steps) :
    (i :: t.climb steps (t.parent? i)).IsChain (fun c p => t.parent? c = some p) ∧
      ∃ last ∈ (i :: t.climb steps (t.parent? i)).getLast?,
        last ∈ t.roots ∧ t.parent? last = none := by
  induction steps generalizing i role with
  | zero => omega
  | succ steps ih =>
    have hlisted := h.mem_listings hrole
    rw [← parent?_of_get? hrole] at hlisted
    cases hparent : t.parent? i with
    | none =>
      rw [hparent, mem_listings_none] at hlisted
      exact ⟨.singleton _, i, rfl, hlisted, hparent⟩
    | some p =>
      rw [hparent, mem_listings_some] at hlisted
      obtain ⟨r, hr, -⟩ := hlisted
      have holder := h.older i p hparent
      have hlt : p.index < steps := by omega
      obtain ⟨hchain, hlast⟩ := ih hr hlt
      exact ⟨.cons_cons hparent hchain, hlast⟩

/-- The way up from a role ends at a root, and meets no role twice. -/
theorem Grown.ancestors (hrole : t.get? i = some role) :
    (i :: t.ancestors i).IsChain (fun c p => t.parent? c = some p) ∧ (i :: t.ancestors i).Nodup ∧
      ∃ last ∈ (i :: t.ancestors i).getLast?, last ∈ t.roots ∧ t.parent? last = none := by
  obtain ⟨hchain, hlast⟩ := h.climb hrole (List.getElem?_eq_some_iff.1 hrole).1
  refine ⟨hchain, ?_, hlast⟩
  have hfalls : (i :: t.ancestors i).Pairwise (fun c p => p.index < c.index) :=
    List.isChain_iff_pairwise.1 (hchain.imp fun c p => h.older c p)
  refine hfalls.imp fun hlt heq => ?_
  rw [heq] at hlt
  exact Nat.lt_irrefl _ hlt

/-- **What a tree is relied on for**, whoever built it. -/
structure Sound (t : RoleTree) : Prop where
  structured : t.checkForest = .ok ()
  admitted : t.check = .ok ()
  known : ∀ lister id, (lister, id) ∈ t.listings → ∃ role, t.get? id = some role
  listed_once : ∀ id role, t.get? id = some role →
    t.listings.filter (·.2 = id) = [(role.parent, id)]
  roots_sorted : t.roots.Pairwise (·.index < ·.index)
  children_sorted : ∀ id role, t.get? id = some role → role.children.Pairwise (·.index < ·.index)
  implicits : (t.roles.filter Role.implicit).map Role.name = implicitNames
  implicit_root : ∀ id role, t.get? id = some role → role.implicit = true →
    role.parent = none ∧ id ∈ t.roots
  distinct : (t.roles.map fun r => Ident.fold r.name).Nodup
  declared : ∀ role ∈ t.roles, role.implicit = false →
    role.name ≠ "" ∧ Ident.isReserved role.name = false
  found : ∀ id role spelling, t.get? id = some role →
    Ident.fold spelling = Ident.fold role.name → t.find? spelling = some id
  /-- Each of the ancestors is the parent of the one before, and the last is a root. -/
  ancestry : ∀ id role, t.get? id = some role →
    (id :: t.ancestors id).IsChain (fun child parent => t.parent? child = some parent) ∧
      (id :: t.ancestors id).Nodup ∧
      ∃ last ∈ (id :: t.ancestors id).getLast?, last ∈ t.roots ∧ t.parent? last = none

/-- **How a tree answers a request**: it adds the role, or it stays as it is. -/
structure Answered (t : RoleTree) (parent : Option (Handle .role)) (name : String)
    (t' : RoleTree) : Prop where
  accepted_iff : (∃ id, t.allocate parent name = .ok (id, t')) ↔ t.Accepts parent name
  adds : ∀ id, t.allocate parent name = .ok (id, t') → t.Adds parent name id t'
  unchanged : ∀ err, t.allocate parent name = .error err → t' = t

omit h in
theorem answered_after : t.Answered parent name (t.after (parent, name)) := by
  have hafter : (∃ id, t.allocate parent name = .ok (id, t.after (parent, name))) ↔
      ∃ id t', t.allocate parent name = .ok (id, t') := by
    refine ⟨fun ⟨id, hok⟩ => ⟨id, _, hok⟩, fun ⟨id, t', hok⟩ => ⟨id, ?_⟩⟩
    rw [RoleTree.after, hok]
  constructor
  case accepted_iff => exact hafter.trans exists_allocate_iff
  case adds => exact fun id hok => adds_of_allocate hok
  case unchanged =>
    intro err hrefused
    rw [RoleTree.after, hrefused]

theorem Grown.sound : t.Sound := by
  constructor
  case structured => exact h.forest.checkForest h.length_le
  case admitted => exact h.check
  case known => exact fun lister id hmem => (h.of_listed hmem).1
  case listed_once => exact fun id role hrole => h.filter_listings hrole
  case roots_sorted => exact h.roots_sorted
  case children_sorted => exact h.children_sorted
  case implicits => exact h.implicits
  case implicit_root =>
    intro id role hrole himplicit
    have hparent := h.implicit_root role (List.mem_of_getElem? hrole) himplicit
    have hlisted := h.mem_listings hrole
    rw [hparent, mem_listings_none] at hlisted
    exact ⟨hparent, hlisted⟩
  case distinct => exact h.distinct
  case declared => exact h.declared
  case found => exact fun id role spelling hrole hname => h.find? hrole hname
  case ancestry => exact fun id role hrole => h.ancestors hrole

omit h in
/-- **Any requests build a sound tree**, and one more request is answered as its name and its parent
ask: it adds the role behind all others, or it leaves the tree as it is. -/
theorem sound_grow (requests : List (Option (Handle .role) × String)) :
    (grow requests).Sound ∧ ∀ parent name,
      (grow requests).Answered parent name (grow (requests ++ [(parent, name)])) := by
  refine ⟨(grown_grow requests).sound, fun parent name => ?_⟩
  have hstep : grow (requests ++ [(parent, name)]) = (grow requests).after (parent, name) := by
    rw [grow, List.foldl_append]
    rfl
  rw [hstep]
  exact answered_after

end RoleTree

end DataModel
