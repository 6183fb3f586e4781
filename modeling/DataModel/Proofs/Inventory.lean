import DataModel.Inventory
import DataModel.Proofs.Handles.Retained
import DataModel.Proofs.Roles.SingleForest

/-!
# What a document holds

The inventory of a document is taken while the document is torn down: roles are counted where the
walk along the tree meets them, and whatever entities own is added up entity by entity.
`Document.inventory_counted` says that these numbers are right.  If the roles are a forest, the
inventory is what the lists of the document hold (`Document.contents`).  After any acts on a new
document, it is the number of allocations that were carried out, kind by kind.  And linking leaves
it as it is.

The walk that counts the roles goes the way of the visit that checks the tree, so on a tree that
passes the check it meets the roles once each (`RoleTree.released_eq`).  A change of a document adds
one to what it allocates, and nothing to the rest (`Document.amount_of_change`), and the run adds up
these steps (`Document.amount_run`).
-/

namespace DataModel

/-! ### Sums -/

/-- The numbers of an inventory are sums over the entities. -/
theorem foldl_eq_sum {α : Type} (f : α → Nat) (l : List α) :
    l.foldl (fun n a => n + f a) 0 = (l.map f).sum := by
  rw [List.sum_eq_foldl, List.foldl_map]

/-- A member of a list changes the sum by as much as it changes itself. -/
theorem sum_map_set {α : Type} {f : α → Nat} {l : List α} {i n : Nat} {a a' : α}
    (ha : l[i]? = some a) (h : f a' = f a + n) : ((l.set i a').map f).sum = (l.map f).sum + n := by
  induction l generalizing i with
  | nil => cases ha
  | cons b l ih =>
    cases i with
    | zero =>
      obtain rfl := Option.some.inj ha
      rw [List.set_cons_zero, List.map_cons, List.sum_cons, List.map_cons, List.sum_cons, h]
      omega
    | succ i =>
      have hrest := ih ha
      rw [List.set_cons_succ, List.map_cons, List.sum_cons, List.map_cons, List.sum_cons, hrest]
      omega

/-! ### Roles -/

namespace RoleTree

variable {t : RoleTree}

/-- The number of declared roles among those of some handles. -/
def declaredAmong (t : RoleTree) (ids : List (Handle .role)) : Nat :=
  (ids.filterMap t.get?).countP (!·.implicit)

/-- **The walk of the release goes the way of a visit that passes**, and counts the roles that the
visit takes. -/
theorem release_of_visit {unreached rest : List (Handle .role)}
    {pending : List (Option (Handle .role) × Handle .role)}
    (h : t.visit unreached pending = .ok rest) :
    t.release unreached (pending.map Prod.snd) + t.declaredAmong rest =
      t.declaredAmong unreached := by
  fun_induction t.visit unreached pending with
  | case1 unreached =>
    obtain rfl := Except.ok.inj h
    rw [List.map_nil, release, Nat.zero_add]
  | case2 => exact absurd h failFlaw_ne_ok
  | case3 => cases h
  | case4 unreached lister id pending role hrole hparent hmem ih =>
    have hids : (role.children.map (some id, ·) ++ pending).map Prod.snd =
        role.children ++ pending.map Prod.snd := by
      rw [List.map_append, List.map_map]
      exact congrArg (· ++ _) (List.map_id' _)
    have htaken := ih h
    rw [hids] at htaken
    -- The role that is met is one of those that were not reached yet.
    have hdeclared : t.declaredAmong unreached =
        (if role.implicit then 0 else 1) + t.declaredAmong (unreached.erase id) := by
      rw [declaredAmong, ((List.perm_cons_erase hmem).filterMap _).countP_eq]
      rw [List.filterMap_cons_some hrole, List.countP_cons, Nat.add_comm, declaredAmong]
      cases role.implicit <;> rfl
    rw [List.map_cons, release, hrole]
    dsimp only
    rw [if_pos hmem, hdeclared, ← htaken]
    omega
  | case5 => cases h

/-- **A tree that passes the check is released role by role**, each of them once. -/
theorem released_eq (h : t.checkForest = .ok ()) :
    t.released = t.roles.countP (!·.implicit) := by
  obtain ⟨hlength, -⟩ := listed_of_checkForest h
  obtain ⟨rest, hvisit, h⟩ := bind_eq_ok.1 h
  cases rest with
  | cons id rest => cases h
  | nil =>
    have hcounted := release_of_visit hvisit
    have hroots : (t.roots.map ((none, ·) : _ → Option (Handle .role) × Handle .role)).map
        Prod.snd = t.roots := by
      rw [List.map_map]
      exact List.map_id' _
    rwa [hroots, declaredAmong, declaredAmong, filterMap_get?_handles hlength] at hcounted

/-- Whether roles are declared is said by their marks. -/
theorem countP_declared (roles : List Role) :
    roles.countP (!·.implicit) = (roles.map Role.implicit).countP (!·) := by
  rw [List.countP_map]
  rfl

end RoleTree

/-! ### Allocations -/

/-- What can be allocated. -/
inductive Allocation
  | entity
  | enumeration
  | bitfield
  | role
  | field
  /-- A search, an update, a delete or a unique constraint. -/
  | spec
  deriving DecidableEq

/-- What an edit of an entity allocates. -/
def EntityEdit.allocates? : EntityEdit → Option Allocation
  | .addField _ => some .field
  | .addSearch _ _ | .addUpdate _ | .addDelete _ | .addUnique _ => some .spec
  | _ => none

/-- What an edit allocates. -/
def Edit.allocates? : Edit → Option Allocation
  | .addEntity _ => some .entity
  | .addEnumeration _ => some .enumeration
  | .addBitfield _ => some .bitfield
  | .addRole _ _ => some .role
  | .onEntity _ edit => edit.allocates?
  | _ => none

/-- What an act allocates. -/
def Act.allocates? : Act → Option Allocation
  | .edit e => e.allocates?
  | .relink _ => none

/-- The number that is given for what can be allocated. -/
def Inventory.count (i : Inventory) : Allocation → Nat
  | .entity => i.entities
  | .enumeration => i.enumerations
  | .bitfield => i.bitfields
  | .role => i.roles
  | .field => i.fields
  | .spec => i.specs

/-- The number that an entity holds of what can be allocated in it. -/
def Entity.amount (e : Entity) : Allocation → Nat
  | .field => e.fields.length
  | .spec => e.specCount
  | _ => 0

/-- One if the first is the second, and else none. -/
def one (what : Option Allocation) (k : Allocation) : Nat := if what = some k then 1 else 0

/-- **An edit of an entity adds one to what it allocates.** -/
theorem Entity.amount_of_perform {e e' : Entity} {edit : EntityEdit} {r : Receipt}
    (h : e.perform edit = .ok (r, e')) (k : Allocation) :
    e'.amount k = e.amount k + one edit.allocates? k := by
  cases change_of_perform h with
  | addField | addSearch | addUpdate | addDelete | addUnique =>
    cases k <;> simp [amount, specCount, one, EntityEdit.allocates?] <;> omega
  | swapFields swapped =>
    have hlength := (perm_of_swapAt swapped).length_eq
    cases k <;> simp [amount, specCount, one, EntityEdit.allocates?, hlength]
  | onField | onSearch | onUpdate | onDelete | setUniqueFields | grant | setInsert | setDoc
  | setHeight =>
    cases k <;> simp [amount, specCount, one, EntityEdit.allocates?]

/-! ### Linked entities -/

namespace Entity

theorem length_fields_unlinked (e : Entity) : e.unlinked.fields.length = e.fields.length :=
  List.length_map _

theorem length_grants_unlinked (e : Entity) :
    e.unlinked.rolemap.grants.length = e.rolemap.grants.length :=
  List.length_map _

theorem specCount_unlinked (e : Entity) : e.unlinked.specCount = e.specCount := by
  simp [specCount, unlinked, beforeHeight, beforeGrants, beforeChains]

end Entity

/-! ### Documents -/

namespace Document

/-- **What the lists of a document hold**, without implicit roles and the default language. -/
def contents (d : Document) : Inventory where
  enumerations := d.enums.length
  roles := d.roles.roles.countP (!·.implicit)
  bitfields := d.bitfields.length
  entities := d.entities.length
  fields := (d.entities.flatMap Entity.fields).length
  specs :=
    (d.entities.flatMap Entity.searches).length + (d.entities.flatMap Entity.updates).length +
      (d.entities.flatMap Entity.deletes).length + (d.entities.flatMap Entity.uniques).length
  grants := (d.entities.flatMap (·.rolemap.grants)).length
  languages := d.languages.length - 1
  sourceFiles := d.sourceFiles.length

/-- The number that a document holds of what can be allocated. -/
def amount (d : Document) : Allocation → Nat
  | .entity => d.entities.length
  | .enumeration => d.enums.length
  | .bitfield => d.bitfields.length
  | .role => d.roles.roles.countP (!·.implicit)
  | k => (d.entities.map (·.amount k)).sum

variable {d d' : Document}

theorem count_contents (d : Document) (k : Allocation) : d.contents.count k = d.amount k := by
  cases k with
  | entity | enumeration | bitfield | role => rfl
  | field => exact List.length_flatMap
  | spec =>
    simp only [contents, amount, Inventory.count, Entity.amount, Entity.specCount,
      List.length_flatMap, List.sum_map_add]

/-- **A change of a document adds one to what it allocates.** -/
theorem amount_of_change {edit : Edit} (h : d.Change edit d') (k : Allocation) :
    d'.amount k = d.amount k + one edit.allocates? k := by
  cases h with
  | addEntity =>
    cases k <;> simp [amount, one, Edit.allocates?, Entity.amount, Entity.declare, Entity.specCount]
  | addEnumeration | addBitfield => cases k <;> simp [amount, one, Edit.allocates?]
  | @addRole parent name id roles allocated =>
    obtain ⟨_, _, _, rfl⟩ := RoleTree.allocate_eq_ok.1 allocated
    have hroles : (d.roles.declare parent name id).roles.countP (!·.implicit) =
        d.roles.roles.countP (!·.implicit) + 1 := by
      rw [RoleTree.countP_declared, RoleTree.map_declare fun _ => rfl, List.countP_append,
        ← RoleTree.countP_declared]
      rfl
    cases k <;> simp [amount, one, Edit.allocates?, hroles]
  | @onEntity ref edit i e e' r addressed found edited =>
    have hentity := Entity.amount_of_perform edited k
    have hsum : ((d.entities.set i e').map (·.amount k)).sum =
        (d.entities.map (·.amount k)).sum + one edit.allocates? k := sum_map_set found hentity
    cases k with
    | field | spec => exact hsum
    | entity | enumeration | bitfield | role =>
      -- Nothing of the kind is held by entities, or allocated in them.
      have hnone : 0 = 0 + one edit.allocates? _ := hentity
      rw [Nat.zero_add] at hnone
      simp [amount, Edit.allocates?, ← hnone]
  | swapEntities swapped =>
    have hperm := perm_of_swapAt swapped
    have hsum := (hperm.map (·.amount k)).sum_eq
    cases k <;> simp [amount, one, Edit.allocates?, hperm.length_eq, hsum]
  | swapEnumerations swapped =>
    have hlength := (perm_of_swapAt swapped).length_eq
    cases k <;> simp [amount, one, Edit.allocates?, hlength]
  | swapBitfields swapped =>
    have hlength := (perm_of_swapAt swapped).length_eq
    cases k <;> simp [amount, one, Edit.allocates?, hlength]
  | @setRoleDoc id doc role found =>
    have himplicit : (d.roles.roles.set id.index { role with doc }).map Role.implicit =
        d.roles.roles.map Role.implicit := map_set_of_eq found rfl
    have hroles : (d.roles.roles.set id.index { role with doc }).countP (!·.implicit) =
        d.roles.roles.countP (!·.implicit) := by
      rw [RoleTree.countP_declared, himplicit, ← RoleTree.countP_declared]
    cases k <;> simp [amount, one, Edit.allocates?, hroles]
  | addLanguage | addSourceFile | addEnumItem | addBitItem | setEnumDoc | setEnumValue
  | setBitfieldTexts | swapEnumItems =>
    cases k <;> simp [amount, one, Edit.allocates?]

/-- **The inventory is what the document holds**, if its roles are a forest. -/
theorem inventory_eq_contents (h : d.roles.checkForest = .ok ()) : d.inventory = d.contents := by
  simp only [inventory, contents, RoleTree.released_eq h, foldl_eq_sum, List.length_flatMap,
    Entity.specCount, List.sum_map_add]

/-! ### Linking -/

/-- What linked state has no part in is the same for the entities of a linked document. -/
theorem map_entities_of_link {α : Type} {f : Entity → α} (hf : ∀ e, f e.unlinked = f e)
    {options : LinkOptions} {l : LinkedDocument} (h : d.link options = .ok l) :
    l.document.entities.map f = d.entities.map f := by
  have hentities := congrArg (List.map f) (link_keeps h).entities
  rw [List.map_map, List.map_map] at hentities
  simpa only [Function.comp_def, hf] using hentities

theorem length_entities_of_link {options : LinkOptions} {l : LinkedDocument}
    (h : d.link options = .ok l) : l.document.entities.length = d.entities.length := by
  simpa using congrArg List.length (link_keeps h).entities

/-- **Linking leaves the inventory as it is.** -/
theorem inventory_of_link {options : LinkOptions} {l : LinkedDocument}
    (h : d.link options = .ok l) : l.document.inventory = d.inventory := by
  have hkept := link_keeps h
  have hfields : l.document.entities.map (fun e => e.fields.length) =
      d.entities.map fun e => e.fields.length :=
    map_entities_of_link Entity.length_fields_unlinked h
  have hspecs := map_entities_of_link Entity.specCount_unlinked h
  have hgrants : l.document.entities.map (fun e => e.rolemap.grants.length) =
      d.entities.map fun e => e.rolemap.grants.length :=
    map_entities_of_link Entity.length_grants_unlinked h
  simp only [inventory, foldl_eq_sum, hfields, hspecs, hgrants, length_entities_of_link h,
    hkept.roles, hkept.bitfields, hkept.languages, hkept.sourceFiles, hkept.enums.length_eq]

/-- What is allocated in a document is in the linked document. -/
theorem amount_of_link {options : LinkOptions} {l : LinkedDocument} (h : d.link options = .ok l)
    (k : Allocation) : l.document.amount k = d.amount k := by
  have hkept := link_keeps h
  cases k with
  | entity => exact length_entities_of_link h
  | enumeration => exact hkept.enums.length_eq.symm
  | bitfield => rw [amount, hkept.bitfields, amount]
  | role => rw [amount, hkept.roles, amount]
  | field => exact congrArg List.sum (map_entities_of_link Entity.length_fields_unlinked h)
  | spec => exact congrArg List.sum (map_entities_of_link Entity.specCount_unlinked h)

/-! ### Runs -/

/-- The acts that are carried out, of some acts in turn. -/
def carriedOut (d : Document) : List Act → List Act
  | [] => []
  | act :: acts =>
    (if (d.act act).isOk then [act] else []) ++ (d.after act).carriedOut acts

theorem carriedOut_concat (acts : List Act) (act : Act) :
    d.carriedOut (acts ++ [act]) =
      d.carriedOut acts ++ if ((d.run acts).act act).isOk then [act] else [] := by
  induction acts generalizing d with
  | nil => exact List.append_nil _
  | cons first acts ih =>
    rw [List.cons_append, carriedOut, ih, carriedOut, List.append_assoc]
    rfl

/-- **An act that is carried out adds one to what it allocates**, and a refused one adds nothing. -/
theorem amount_after (d : Document) (act : Act) (k : Allocation) :
    (d.after act).amount k =
      d.amount k + (if (d.act act).isOk then [act] else []).countP (·.allocates? = some k) := by
  have hone : [act].countP (·.allocates? = some k) = one act.allocates? k := by
    rw [List.countP_singleton, one]
    simp only [decide_eq_true_eq]
  rw [after]
  cases hact : d.act act with
  | error refusal => rfl
  | ok result =>
    obtain ⟨r, d'⟩ := result
    refine Eq.trans ?_ (congrArg (d.amount k + ·) hone.symm)
    cases act with
    | edit edit => exact amount_of_change (change_of_perform hact) k
    | relink options =>
      simp only [Document.act, bind_eq_ok, attempt_eq_ok, pure_eq_ok] at hact
      obtain ⟨l, hl, hd'⟩ := hact
      obtain ⟨_, rfl⟩ := Prod.mk.inj hd'
      exact amount_of_link hl k

/-- **A document holds what was allocated in it**, after any acts. -/
theorem amount_run (acts : List Act) (k : Allocation) :
    (run {} acts).amount k = (carriedOut {} acts).countP (·.allocates? = some k) := by
  induction acts using List.reverseRecOn with
  | nil => cases k <;> rfl
  | append_singleton acts act ih =>
    rw [run_concat, amount_after, carriedOut_concat, List.countP_append, ih]

/-- **The inventory is right.**  It says what the lists of the document hold, if the roles pass the
check, also as the machine takes it, which empties the lists of children as it goes.  The roles of a
document that was built pass the check, and the inventory says how often each kind of declaration
was allocated in it.  Linking a document leaves its inventory as it is. -/
theorem inventory_counted (d : Document) :
    (d.roles.checkForest = .ok () →
      d.inventory = d.contents ∧ Watched.teardown d = pure d.contents) ∧
    (∀ acts : List Act, (run {} acts).roles.checkForest = .ok () ∧
      ∀ k, (run {} acts).inventory.count k =
        (carriedOut {} acts).countP (·.allocates? = some k)) ∧
    (∀ options l, d.link options = .ok l → l.document.inventory = d.inventory) := by
  refine ⟨fun hforest => ?_, fun acts => ?_, fun options l h => inventory_of_link h⟩
  · have hcontents := inventory_eq_contents hforest
    exact ⟨hcontents, by rw [Watched.teardown_eq, hcontents]⟩
  · have hgrown := grown_run acts
    have hforest := hgrown.forest.checkForest hgrown.length_le
    refine ⟨hforest, fun k => ?_⟩
    rw [inventory_eq_contents hforest, count_contents, amount_run]

/-- The clerk and the staff are counted, also where the clerk is older than the staff. -/
theorem inventory_counted_elderClerk :
    ({ roles := RoleTree.elderClerk } : Document).inventory.roles = 2 := by
  obtain ⟨hcontents, -⟩ :=
    (inventory_counted { roles := RoleTree.elderClerk }).1 (by decide +kernel)
  rw [hcontents]
  decide

end Document

end DataModel
