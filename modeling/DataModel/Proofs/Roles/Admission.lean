import DataModel.Proofs.Linking.Authorisation
import DataModel.Proofs.Roles.Growth
import DataModel.Proofs.Snapshot.Acceptance

/-!
# Roles of a linked document

A role tree is *regular* if its implicit roles are the three roots that every tree has, and if every
other role could be declared beside all others (`RoleTree.Regular`).  Roles that are declared one by
one make up a regular tree.

Linking looks for each of the three roots, exempts implicit roles from the reserved words, and does
not look for empty names (`RoleTree.Admitted`).  It does not ask which roles are implicit.  So what
a linked tree is short of being regular is a property of single roles, `Role.Regular`: those that
are implicit have the name of one of the three, and the others have a name
(`RoleTree.Admitted.regular_iff`).  Every role has it in a document that was built
(`Document.Built.regular`), and linking leaves the roles as they are (`Document.roles_admitted`).
A snapshot can hold a role of either kind that has it not (`Snapshot.load_irregular_roles`).
-/

namespace DataModel

/-- An implicit role has one of the three names, and any other has a name. -/
def Role.Regular (r : Role) : Prop :=
  if r.implicit then r.name ∈ RoleTree.implicitNames else r.name ≠ ""

instance (r : Role) : Decidable r.Regular := inferInstanceAs (Decidable (ite _ _ _))

namespace RoleTree

variable {t t' : RoleTree} {parent : Option (Handle .role)} {name : String} {id : Handle .role}

/-- **A regular tree**: the implicit roles are the three roots that every tree has, and every other
role would be declared beside all others. -/
structure Regular (t : RoleTree) : Prop where
  implicits : ((t.roles.filter Role.implicit).map Role.name).Perm implicitNames
  roots : ∀ id r, t.get? id = some r → r.implicit = true → r.parent = none ∧ id ∈ t.roots
  declared : ∀ before r after, t.roles = before ++ r :: after → r.implicit = false →
    Scope.role.checkNew r.name ((before ++ after).map Role.name) = .ok ()

/-- What linking asks for: the three roots, names of declared roles that are not reserved, and names
that no two roles share. -/
structure Admitted (t : RoleTree) : Prop where
  implicits : ∀ name ∈ implicitNames, ∃ id r, t.get? id = some r ∧
    Ident.fold r.name = Ident.fold name ∧ r.implicit = true ∧ r.parent = none ∧ id ∈ t.roots
  unreserved : ∀ r ∈ t.roles, r.implicit = false → Ident.isReserved r.name = false
  distinct : (t.roles.map fun r => Ident.fold r.name).Nodup

/-! ### The check of a tree -/

theorem exists_of_hasImplicit (h : t.hasImplicit name = true) :
    ∃ id r, t.find? name = some id ∧ t.get? id = some r ∧ r.implicit = true ∧ r.parent = none := by
  rw [hasImplicit, Option.any_eq_true] at h
  obtain ⟨r, hfound, hr⟩ := h
  obtain ⟨id, hid, hget⟩ := Option.bind_eq_some_iff.1 hfound
  rw [Bool.and_eq_true, Option.isNone_iff_eq_none] at hr
  exact ⟨id, r, hid, hget, hr⟩

/-- **What the check of a tree passes.** -/
theorem admitted_of_check (h : t.check = .ok ()) : t.Admitted := by
  have hdistinct := nodup_of_check h
  simp only [RoleTree.check, bind_eq_ok, forM_eq_ok] at h
  obtain ⟨_, himplicits, _, hforest, hnames⟩ := h
  refine ⟨fun name hname => ?_, unreserved_of_checkNames hnames, hdistinct⟩
  have hhas : t.hasImplicit name = true := by
    by_contra hnot
    exact failFlaw_ne_ok ((if_neg hnot).symm.trans (himplicits name hname))
  obtain ⟨id, r, hid, hr, himplicit, hparent⟩ := exists_of_hasImplicit hhas
  -- A role without a parent is listed where it records to be, among the roots.
  have hrecorded : (none, id) ∈ t.records :=
    mem_records_iff.2 ⟨⟨r, hr⟩, (parent?_of_get? hr).trans hparent⟩
  have hroot := (listed_of_checkForest hforest).2.mem_iff.2 hrecorded
  obtain ⟨r', hr', hfold⟩ := calls_of_find? hid
  obtain rfl := Option.some.inj (hr.symm.trans hr')
  exact ⟨id, r, hr, hfold, himplicit, hparent, mem_listings_none.1 hroot⟩

/-- The names of the implicit roles are in lower case. -/
theorem fold_of_mem_implicitNames (h : name ∈ implicitNames) : Ident.fold name = name := by
  revert name
  decide +kernel

/-! ### Regular roles -/

/-- The roles of a regular tree are regular. -/
theorem Regular.role (h : t.Regular) : ∀ r ∈ t.roles, r.Regular := by
  intro r hr
  rw [Role.Regular]
  split_ifs with himplicit
  · exact h.implicits.mem_iff.1 (List.mem_map_of_mem (List.mem_filter.2 ⟨hr, himplicit⟩))
  · obtain ⟨before, after, hsplit⟩ := List.append_of_mem hr
    have hchecked := h.declared before r after hsplit (Bool.eq_false_iff.2 himplicit)
    exact (Scope.checkNew_eq_ok_iff.1 hchecked).1

/-- The one role of an implicit name is the root of the name. -/
theorem Admitted.root (h : t.Admitted) {r : Role} (hr : t.get? id = some r)
    (hname : r.name ∈ implicitNames) : r.implicit = true ∧ r.parent = none ∧ id ∈ t.roots := by
  obtain ⟨id', r', hr', hfold, himplicit, hparent, hroot⟩ := h.implicits r.name hname
  obtain rfl := Calls.unique h.distinct ⟨r', hr', hfold⟩ ⟨r, hr, rfl⟩
  obtain rfl := Option.some.inj (hr'.symm.trans hr)
  exact ⟨himplicit, hparent, hroot⟩

/-- **An admitted tree is regular if its roles are.** -/
theorem Admitted.regular_iff (h : t.Admitted) : t.Regular ↔ ∀ r ∈ t.roles, r.Regular := by
  refine ⟨Regular.role, fun hroles => ?_⟩
  have himplicit : ∀ r ∈ t.roles, r.implicit = true → r.name ∈ implicitNames := by
    intro r hr himplicit
    have hregular := hroles r hr
    rwa [Role.Regular, if_pos himplicit] at hregular
  constructor
  case implicits =>
    have hnodup : ((t.roles.filter Role.implicit).map Role.name).Nodup := by
      have hnames : (t.roles.map Role.name).Nodup := by
        apply List.Nodup.of_map Ident.fold
        rw [List.map_map]
        exact h.distinct
      exact hnames.sublist (List.filter_sublist.map _)
    refine (List.perm_ext_iff_of_nodup hnodup (by decide)).2 fun name => ?_
    rw [List.mem_map]
    constructor
    · rintro ⟨r, hr, rfl⟩
      obtain ⟨hmem, hr⟩ := List.mem_filter.1 hr
      exact himplicit r hmem hr
    · intro hname
      obtain ⟨id, r, hr, hfold, hr', -, -⟩ := h.implicits name hname
      have hmem := List.mem_of_getElem? hr
      have heq := fold_of_mem_implicitNames (himplicit r hmem hr')
      rw [heq, fold_of_mem_implicitNames hname] at hfold
      exact ⟨r, List.mem_filter.2 ⟨hmem, hr'⟩, hfold⟩
  case roots =>
    intro id r hr hr'
    exact (h.root hr (himplicit r (List.mem_of_getElem? hr) hr')).2
  case declared =>
    intro before r after hsplit hr
    have hmem : r ∈ t.roles := hsplit ▸ List.mem_append_right _ List.mem_cons_self
    have hempty : r.name ≠ "" := by
      have hregular := hroles r hmem
      rwa [Role.Regular, hr, if_neg (by decide)] at hregular
    have hdistinct := h.distinct
    rw [hsplit, List.map_append, List.map_cons, List.nodup_middle, List.nodup_cons,
      ← List.map_append] at hdistinct
    refine Scope.checkNew_eq_ok_iff.2 ⟨hempty, h.unreserved r hmem hr, fun name hname hsame => ?_⟩
    obtain ⟨r', hr', rfl⟩ := List.mem_map.1 hname
    exact hdistinct.1 (List.mem_map.2 ⟨r', hr', hsame⟩)

/-- A role that is allocated is regular, and the other roles stay so. -/
theorem regular_of_allocate (h : ∀ r ∈ t.roles, r.Regular)
    (hallocate : t.allocate parent name = .ok (id, t')) : ∀ r ∈ t'.roles, r.Regular := by
  obtain ⟨hchecked, _, _, rfl⟩ := allocate_eq_ok.1 hallocate
  have hall : ∀ p ∈ (t.declare parent name id).roles.map Role.Regular, p := by
    rw [map_declare fun _ => rfl, List.forall_mem_append, List.forall_mem_map,
      List.forall_mem_singleton]
    exact ⟨h, (Scope.checkNew_eq_ok_iff.1 hchecked).1⟩
  exact fun r hr => hall r.Regular (List.mem_map_of_mem hr)

end RoleTree

/-! ### Linked documents -/

namespace Document

/-- **The roles of a document that was built are regular.** -/
theorem Built.regular {d : Document} (hd : d.Built) : ∀ r ∈ d.roles.roles, r.Regular := by
  induction hd with
  | new => decide
  | edit _ performed ih =>
    cases change_of_perform performed with
    | addRole allocated => exact RoleTree.regular_of_allocate ih allocated
    | @setRoleDoc _ _ role found =>
      have hrole : role.Regular := ih role (List.mem_of_getElem? found)
      exact forall_mem_set ih hrole
    | addEntity | addEnumeration | addBitfield | addLanguage | addSourceFile | addEnumItem
    | addBitItem | setEnumDoc | setEnumValue | setBitfieldTexts | swapEntities | swapEnumerations
    | swapBitfields | swapEnumItems | onEntity =>
      -- These write other parts of the document.
      exact ih

/-- **The roles of a linked document are those that were declared, and admitted.**  They make up a
regular tree exactly if each of them is regular, as in a document that was built. -/
theorem roles_admitted {options : LinkOptions} {d : Document} {l : LinkedDocument}
    (h : d.link options = .ok l) :
    l.document.roles = d.roles ∧ l.document.roles.Admitted ∧
    (l.document.roles.Regular ↔ ∀ r ∈ d.roles.roles, r.Regular) ∧
    (d.Built → l.document.roles.Regular) := by
  obtain ⟨bound, high, granted, s⟩ := link_eq_ok_iff.1 h
  have hadmitted : l.document.roles.Admitted := by
    rw [s.roles_high]
    exact RoleTree.admitted_of_check s.roles
  have hregular : l.document.roles.Regular ↔ ∀ r ∈ d.roles.roles, r.Regular := by
    rw [hadmitted.regular_iff, s.declared_roles]
  exact ⟨s.declared_roles, hadmitted, hregular, fun hd => hregular.2 hd.regular⟩

/-- The staff of the sessions and its trainees make up a regular tree with the implicit roles. -/
theorem roles_admitted_staffed :
    ∃ l, staffedSessions.link .trusted = .ok l ∧ l.document.roles.roles.length = 5 ∧
      l.document.roles.Regular := by
  obtain ⟨l, h, hlength⟩ := exists_ok_of_any (r := staffedSessions.link .trusted)
    (p := fun l => decide (l.document.roles.roles.length = 5)) (by decide +kernel)
  have hregular : ∀ r ∈ staffedSessions.roles.roles, r.Regular := by decide
  exact ⟨l, h, of_decide_eq_true hlength, (roles_admitted h).2.2.1.2 hregular⟩

/-- A document with two more roles: an implicit one with a reserved name, and one without a name. -/
def irregularRoles : Document :=
  { roles :=
      { roles := RoleTree.initial.roles ++ [{ name := "select", implicit := true }, { name := "" }]
        roots := RoleTree.handles 5 } }

end Document

/-- **A snapshot brings in roles that no request can declare**: a fourth implicit role with a
reserved name, and a declared role with none. -/
theorem Snapshot.load_irregular_roles :
    (RoleTree.initial.allocate none "select").isOk = false ∧
    (RoleTree.initial.allocate none "").isOk = false ∧
    ∃ l, load {} (encode Document.irregularRoles) = .ok l ∧
      (l.document.roles.roles.filter Role.implicit).map Role.name =
        ["all", "none", "default", "select"] ∧
      (∃ r ∈ l.document.roles.roles, r.implicit = false ∧ r.name = "") ∧
      ¬ l.document.roles.Regular := by
  refine ⟨by decide +kernel, by decide +kernel, ?_⟩
  obtain ⟨l, hload, himplicit, hnameless, hirregular⟩ := exists_load_of_any
    (d := Document.irregularRoles)
    (p := fun l => (l.document.roles.roles.filter Role.implicit).map Role.name =
        ["all", "none", "default", "select"] ∧
      (∃ r ∈ l.document.roles.roles, r.implicit = false ∧ r.name = "") ∧
      ¬ ∀ r ∈ l.document.roles.roles, r.Regular) (by decide +kernel) (by decide +kernel)
  exact ⟨l, hload, himplicit, hnameless, fun hregular => hirregular hregular.role⟩

end DataModel
