import DataModel.Proofs.Editing
import DataModel.Proofs.Linking.Authorisation
import DataModel.Proofs.Snapshot.Acceptance

/-!
# Entries of a role map

Granting a role an operation opens an entry of the role map, or joins the one that is there for the
operation on the target (`Rolemap.grantIn_cases`).  So the entries of a role map that was built are
*apart*: no two are for the same, and each names roles, none of them twice (`Rolemap.Apart`).

Binding takes names to handles and positions without bringing two together or setting two apart that
were one, whatever their case: the bound entries are apart exactly if the declared ones are
(`Entity.boundApart_iff`).  Linking asks nothing else of the entries, so a linked document has them
apart if it was declared so (`Document.grants_apart`), and a snapshot can bring in entries that are
not (`Snapshot.load_repeated_grants`).
-/

namespace DataModel

/-! ### Entries -/

namespace Grant

/-- What the grant is for: the operation, and its target, case aside. -/
def entry (g : Grant) : Operation × Option String := (g.op, g.target.map Ident.fold)

/-- What the bound grant is for: the operation, and the position of its target. -/
def boundEntry (g : Grant) : Operation × Option Nat := (g.op, g.boundTarget)

theorem covers_iff {g : Grant} {op : Operation} {target : Option String} :
    g.covers op target = true ↔ g.entry = (op, target.map Ident.fold) := by
  rw [covers, Bool.and_eq_true, beq_iff_eq, sameTarget_iff, entry, Prod.mk.injEq]

end Grant

namespace Rolemap

/-- No two entries are for the same, and each names roles, none of them twice. -/
structure Apart (m : Rolemap) : Prop where
  entries : (m.grants.map Grant.entry).Nodup
  named : ∀ g ∈ m.grants, g.roles ≠ []
  roles : ∀ g ∈ m.grants, (g.roles.map Ident.fold).Nodup

/-- No two bound entries are for the same, and each holds roles, none of them twice. -/
structure BoundApart (m : Rolemap) : Prop where
  entries : (m.grants.map Grant.boundEntry).Nodup
  named : ∀ g ∈ m.grants, g.boundRoles ≠ []
  roles : ∀ g ∈ m.grants, g.boundRoles.Nodup

instance (m : Rolemap) : Decidable m.Apart :=
  decidable_of_iff ((m.grants.map Grant.entry).Nodup ∧ (∀ g ∈ m.grants, g.roles ≠ []) ∧
      ∀ g ∈ m.grants, (g.roles.map Ident.fold).Nodup)
    ⟨fun h => ⟨h.1, h.2.1, h.2.2⟩, fun h => ⟨h.entries, h.named, h.roles⟩⟩

theorem apart_unlinked {m : Rolemap} : m.unlinked.Apart ↔ m.Apart := by
  have hentries : m.unlinked.grants.map Grant.entry = m.grants.map Grant.entry := by
    rw [unlinked, List.map_map]
    rfl
  have hnamed : (∀ g ∈ m.unlinked.grants, g.roles ≠ []) ↔ ∀ g ∈ m.grants, g.roles ≠ [] :=
    List.forall_mem_map
  have hroles : (∀ g ∈ m.unlinked.grants, (g.roles.map Ident.fold).Nodup) ↔
      ∀ g ∈ m.grants, (g.roles.map Ident.fold).Nodup := List.forall_mem_map
  constructor
  · exact fun h => ⟨hentries ▸ h.entries, hnamed.1 h.named, hroles.1 h.roles⟩
  · exact fun h => ⟨hentries.symm ▸ h.entries, hnamed.2 h.named, hroles.2 h.roles⟩

/-! ### Granting -/

variable {m m' : Rolemap} {op : Operation} {target : Option String} {role : String}

/-- **A grant opens an entry or joins one.**  The new entry comes behind the others, none of which
is for the operation on the target; the one that is joined does not name the role. -/
theorem grantIn_cases {grants grants' : List Grant}
    (h : grantIn op target role grants = .ok grants') :
    ((∀ g ∈ grants, g.entry ≠ (op, target.map Ident.fold)) ∧
      grants' = grants ++ [{ op, target, roles := [role] }]) ∨
    ∃ before g after, grants = before ++ g :: after ∧ g.entry = (op, target.map Ident.fold) ∧
      (∀ name ∈ g.roles, Ident.fold name ≠ Ident.fold role) ∧
      grants' = before ++ { g with roles := g.roles ++ [role] } :: after := by
  induction grants generalizing grants' with
  | nil => exact .inl ⟨nofun, (Except.ok.inj h).symm⟩
  | cons g grants ih =>
    rw [grantIn] at h
    split_ifs at h with hcovers
    · obtain ⟨_, hunused, h⟩ := bind_eq_ok.1 h
      exact .inr ⟨[], g, grants, rfl, Grant.covers_iff.1 hcovers,
        Scope.checkUnused_eq_ok_iff.1 hunused, (pure_eq_ok.1 h).symm⟩
    · obtain ⟨rest, hrest, h⟩ := bind_eq_ok.1 h
      rw [← pure_eq_ok.1 h]
      rcases ih hrest with ⟨hnone, rfl⟩ | ⟨before, g', after, rfl, hentry, hnew, rfl⟩
      · refine .inl ⟨?_, rfl⟩
        rw [List.forall_mem_cons]
        exact ⟨fun hentry => hcovers (Grant.covers_iff.2 hentry), hnone⟩
      · exact .inr ⟨g :: before, g', after, rfl, hentry, hnew, rfl⟩

/-- **Granting keeps entries apart.** -/
theorem Apart.grant (hm : m.Apart) (h : m.grant op target role = .ok m') : m'.Apart := by
  obtain ⟨hentries, hnamed, hroles⟩ := hm
  obtain ⟨grants', hgrants, hm'⟩ := bind_eq_ok.1 h
  rw [← pure_eq_ok.1 hm']
  rcases grantIn_cases hgrants with ⟨hnone, rfl⟩ | ⟨before, g, after, hsplit, hentry, hnew, rfl⟩
  · refine ⟨?_, ?_, ?_⟩
    · rw [List.map_append, List.map_singleton, List.nodup_append_comm, List.singleton_append,
        List.nodup_cons]
      refine ⟨fun hold => ?_, hentries⟩
      obtain ⟨g, hg, hentry⟩ := List.mem_map.1 hold
      exact hnone g hg hentry
    · rw [List.forall_mem_append, List.forall_mem_singleton]
      exact ⟨hnamed, List.cons_ne_nil _ _⟩
    · rw [List.forall_mem_append, List.forall_mem_singleton]
      exact ⟨hroles, List.nodup_singleton _⟩
  · rw [hsplit] at hentries hnamed hroles
    rw [List.forall_mem_append, List.forall_mem_cons] at hnamed hroles
    refine ⟨?_, ?_, ?_⟩
    · rwa [List.map_append, List.map_cons] at hentries ⊢
    · rw [List.forall_mem_append, List.forall_mem_cons]
      exact ⟨hnamed.1, by simp, hnamed.2.2⟩
    · rw [List.forall_mem_append, List.forall_mem_cons]
      refine ⟨hroles.1, ?_, hroles.2.2⟩
      rw [List.map_append, List.map_singleton, List.nodup_append_comm, List.singleton_append,
        List.nodup_cons]
      refine ⟨fun hold => ?_, hroles.2.1⟩
      obtain ⟨name, hname, hsame⟩ := List.mem_map.1 hold
      exact hnew name hname hsame

theorem apart_empty : Apart {} :=
  ⟨List.nodup_nil, fun _ hg => (nomatch hg), fun _ hg => (nomatch hg)⟩

end Rolemap

/-- **No edit brings entries together.** -/
theorem Entity.apart_of_perform {e e' : Entity} {edit : EntityEdit} {r : Receipt}
    (he : e.rolemap.Apart) (h : e.perform edit = .ok (r, e')) : e'.rolemap.Apart := by
  cases change_of_perform h with
  | grant granted => exact he.grant granted
  | addField | addSearch | addUpdate | addDelete | addUnique | onField | onSearch | onUpdate
  | onDelete | setUniqueFields | setInsert | setDoc | setHeight | swapFields =>
    -- These write other parts of the entity.
    exact he

theorem Document.Built.apart {d : Document} (hd : d.Built) :
    ∀ e ∈ d.entities, e.rolemap.Apart :=
  hd.forall_entities (fun _ _ => Rolemap.apart_empty) fun _ _ _ _ => Entity.apart_of_perform

/-! ### Binding -/

section

variable {e : Entity} {t : RoleTree} {op : Operation} {target target' : String} {i : Nat}

/-- What stands at a position has one name. -/
theorem Entity.Target.fold_eq (h : e.Target target op i) (h' : e.Target target' op i) :
    Ident.fold target = Ident.fold target' := by
  cases h with
  | search stored kind name =>
    cases h' with
    | search stored' kind' name' =>
      obtain rfl := Option.some.inj (stored.symm.trans stored')
      exact Option.some.inj (name.symm.trans name')
    | update | delete | noExport => cases kind
  | update stored name =>
    cases h' with
    | search stored' kind' name' => cases kind'
    | update stored' name' =>
      obtain rfl := Option.some.inj (stored.symm.trans stored')
      exact Option.some.inj (name.symm.trans name')
  | delete stored name =>
    cases h' with
    | search stored' kind' name' => cases kind'
    | delete stored' name' =>
      obtain rfl := Option.some.inj (stored.symm.trans stored')
      exact Option.some.inj (name.symm.trans name')
  | noExport stored name =>
    cases h' with
    | search stored' kind' name' => cases kind'
    | noExport stored' name' =>
      obtain rfl := Option.some.inj (stored.symm.trans stored')
      exact name.symm.trans name'

/-- Two spellings of a target have one position. -/
theorem Entity.target?_eq_ok_of_fold_eq (hfold : Ident.fold target = Ident.fold target')
    (h : e.target? op target = .ok i) : e.target? op target' = .ok i := by
  have hsame (name : String) : Ident.same name target = Ident.same name target' := by
    rw [Bool.eq_iff_iff, Ident.same_iff, Ident.same_iff, hfold]
  unfold target? at h ⊢
  simp only [hsame] at h
  cases op with
  | search | list | iterate | count | update | delete | noExport =>
    exact orFail_eq_ok.2 (orFail_eq_ok.1 h)
  | all | insert => exact absurd h fail_ne_ok

/-- **Two grants are for the same exactly if they are bound to the same.** -/
theorem Grant.entry_eq_iff {g g' : Grant} (h : g.bindTarget e = .ok g.boundTarget)
    (h' : g'.bindTarget e = .ok g'.boundTarget) :
    g.entry = g'.entry ↔ g.boundEntry = g'.boundEntry := by
  rw [entry, entry, boundEntry, boundEntry, Prod.mk.injEq, Prod.mk.injEq]
  refine and_congr_right fun hop => ?_
  rcases bindTarget_cases h with ⟨htakes, hnone, hi⟩ | ⟨target, i, htakes, hsome, hplace, hi⟩ <;>
    rcases bindTarget_cases h' with
      ⟨htakes', hnone', hi'⟩ | ⟨target', i', htakes', hsome', hplace', hi'⟩
  · rw [hnone, hnone', hi, hi']
    exact iff_of_true rfl rfl
  · rw [hop, htakes'] at htakes
    cases htakes
  · rw [hop, htakes'] at htakes
    cases htakes
  · rw [hsome, hsome', hi, hi', Option.map_some, Option.map_some, Option.some.injEq,
      Option.some.injEq]
    rw [← hop] at hplace'
    constructor
    · intro hfold
      have hmoved := Entity.target?_eq_ok_of_fold_eq hfold hplace
      exact Except.ok.inj (hmoved.symm.trans hplace')
    · rintro rfl
      exact (Entity.target_of_target? hplace).fold_eq (Entity.target_of_target? hplace')

/-- **Names repeat exactly if the roles that they stand for do.** -/
theorem RoleTree.nodup_names_iff (hn : (t.roles.map fun r => Ident.fold r.name).Nodup)
    {names : List String} {ids : List (Handle .role)}
    (h : List.Forall₂ (fun name id => t.find? name = some id) names ids) :
    (names.map Ident.fold).Nodup ↔ ids.Nodup := by
  -- Folded names and handles correspond to each other one to one.
  let Stands (folded : String) (id : Handle .role) : Prop :=
    ∃ r, t.get? id = some r ∧ Ident.fold r.name = folded
  have hunique : Relator.BiUnique Stands := by
    constructor
    · rintro folded folded' id ⟨r, hr, rfl⟩ ⟨r', hr', rfl⟩
      rw [Option.some.inj (hr.symm.trans hr')]
    · rintro folded id id' ⟨r, hr, rfl⟩ hid'
      exact Calls.unique hn ⟨r, hr, rfl⟩ hid'
  have hstands : List.Forall₂ Stands (names.map Ident.fold) ids := by
    rw [List.forall₂_map_left_iff]
    exact h.imp fun _ _ => calls_of_find?
  exact List.rel_nodup hunique hstands

/-- **Binding neither brings entries together nor sets them apart.** -/
theorem Entity.boundApart_iff (hn : (t.roles.map fun r => Ident.fold r.name).Nodup)
    (h : ∀ g ∈ e.rolemap.grants, g.bind t e = .ok g) :
    e.rolemap.BoundApart ↔ e.rolemap.Apart := by
  have hroles : ∀ g ∈ e.rolemap.grants,
      List.Forall₂ (fun name id => t.find? name = some id) g.roles g.boundRoles :=
    fun g hg => (Grant.bind_eq_self (h g hg)).1
  have hentries : (e.rolemap.grants.map Grant.entry).Nodup ↔
      (e.rolemap.grants.map Grant.boundEntry).Nodup := by
    rw [List.Nodup, List.Nodup, List.pairwise_map, List.pairwise_map]
    refine List.Pairwise.iff_of_mem fun hg hg' => not_congr ?_
    exact Grant.entry_eq_iff (Grant.bind_eq_self (h _ hg)).2 (Grant.bind_eq_self (h _ hg')).2
  have hnamed : (∀ g ∈ e.rolemap.grants, g.roles ≠ []) ↔
      ∀ g ∈ e.rolemap.grants, g.boundRoles ≠ [] := by
    refine forall₂_congr fun g hg => not_congr ?_
    rw [← List.length_eq_zero_iff, (hroles g hg).length_eq, List.length_eq_zero_iff]
  have honce : (∀ g ∈ e.rolemap.grants, (g.roles.map Ident.fold).Nodup) ↔
      ∀ g ∈ e.rolemap.grants, g.boundRoles.Nodup :=
    forall₂_congr fun g hg => RoleTree.nodup_names_iff hn (hroles g hg)
  constructor
  · exact fun h => ⟨hentries.2 h.entries, hnamed.2 h.named, honce.2 h.roles⟩
  · exact fun h => ⟨hentries.1 h.entries, hnamed.1 h.named, honce.1 h.roles⟩

end

/-! ### Linked documents -/

namespace Document

/-- **The grants of a linked document are apart if they were declared so.**  In an entity of a
linked document no two grants have one operation and one target, and each has roles, none of them
twice, exactly if this is so of the names; it is so of all entities exactly if it is of those that
were declared, and of a document that was built it is. -/
theorem grants_apart {options : LinkOptions} {d : Document} {l : LinkedDocument}
    (h : d.link options = .ok l) :
    (∀ e ∈ l.document.entities, e.rolemap.BoundApart ↔ e.rolemap.Apart) ∧
    ((∀ e ∈ l.document.entities, e.rolemap.BoundApart) ↔ ∀ e ∈ d.entities, e.rolemap.Apart) ∧
    (d.Built → ∀ e ∈ l.document.entities, e.rolemap.BoundApart) := by
  obtain ⟨bound, high, granted, s⟩ := link_eq_ok_iff.1 h
  have heach : ∀ e ∈ l.document.entities, e.rolemap.BoundApart ↔ e.rolemap.Apart :=
    fun e he => Entity.boundApart_iff s.nodup_roles fun _ hg => s.bindGrant_self he hg
  have hall : (∀ e ∈ l.document.entities, e.rolemap.BoundApart) ↔
      ∀ e ∈ d.entities, e.rolemap.Apart := by
    rw [← s.forall_entities_iff fun e => (Rolemap.apart_unlinked (m := e.rolemap))]
    exact forall₂_congr heach
  exact ⟨heach, hall, fun hd => hall.2 hd.apart⟩

/-- The cities alone, with grants.  If they are not to be `apart`, there are two entries for
insertion, the second of which names a role twice, and a third entry names no role. -/
def grantedCities (apart : Bool) : Document :=
  let grants : List Grant :=
    if apart then
      [{ op := .insert, target := none, roles := ["default", "ALL"] },
        { op := .noExport, target := some "ID", roles := ["default"] }]
    else
      [{ op := .insert, target := none, roles := ["default"] },
        { op := .insert, target := none, roles := ["none", "NONE"] },
        { op := .all, target := none, roles := [] }]
  { entities := ((tickets false).entities.take 1).map fun e => { e with rolemap := ⟨grants⟩ } }

/-- Grants of an insertion and of a field link to entries that are apart. -/
theorem grants_apart_cities :
    ∃ l, (grantedCities true).link {} = .ok l ∧
      ∀ e ∈ l.document.entities, e.rolemap.BoundApart := by
  obtain ⟨l, h, _⟩ := exists_ok_of_any (r := (grantedCities true).link {}) (p := fun _ => true)
    (by decide +kernel)
  exact ⟨l, h, (grants_apart h).2.1.2 (by decide +kernel)⟩

end Document

/-- **A snapshot brings in grants that are not apart**: cities are loaded where two entries are for
one operation, an entry holds a role twice and another none. -/
theorem Snapshot.load_repeated_grants :
    ∃ l, load {} (encode (Document.grantedCities false)) = .ok l ∧ ∃ e ∈ l.document.entities,
      ¬ (e.rolemap.grants.map Grant.boundEntry).Nodup ∧
      (∃ g ∈ e.rolemap.grants, ¬ g.boundRoles.Nodup) ∧
      (∃ g ∈ e.rolemap.grants, g.boundRoles = []) :=
  exists_load_of_any (by decide +kernel) (by decide +kernel)

end DataModel
