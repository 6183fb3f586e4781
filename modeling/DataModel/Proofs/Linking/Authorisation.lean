import DataModel.Proofs.Linking.Preservation
import DataModel.Proofs.Linking.Independence
import DataModel.Proofs.Linking.RoleNames

/-!
# What the grants of a linked document mean

A grant names roles and a target, and linking binds both to handles and positions.  Whether a role
may perform an operation can then be asked in two ways, by the name of the role among the granted
names and by its handle among the bound ones.

`Document.link_authorised` says what was bound (`Grant.Bound`), that the two questions have one
answer, for which no other role of the tree matters, and which roles are left unused.  The step from
names to handles is `Rolemap.permits_iff`; it rests on the names of the roles being distinct.
-/

namespace DataModel

/-! ### Targets -/

/-- What a grant of the operation on the target is about stands at the position: a search of the
kind that the operation performs, an update, a delete, or a field that is left out of exports. -/
inductive Entity.Target (e : Entity) (target : String) : Operation → Nat → Prop
  | search {op : Operation} {i : Nat} {s : Search} (stored : e.searches[i]? = some s)
    (kind : op.searchKind? = some s.kind)
    (name : s.name.map Ident.fold = some (Ident.fold target)) : e.Target target op i
  | update {i : Nat} {u : Mutation} (stored : e.updates[i]? = some u)
    (name : u.name.map Ident.fold = some (Ident.fold target)) : e.Target target .update i
  | delete {i : Nat} {u : Mutation} (stored : e.deletes[i]? = some u)
    (name : u.name.map Ident.fold = some (Ident.fold target)) : e.Target target .delete i
  | noExport {i : Nat} {f : Field} (stored : e.fields[i]? = some f)
    (name : Ident.fold f.name = Ident.fold target) : e.Target target .noExport i

/-- A search for a position ends at a member that passes. -/
theorem exists_getElem?_of_findIdx? {α : Type} {p : α → Bool} {as : List α} {i : Nat}
    (h : as.findIdx? p = some i) : ∃ a, as[i]? = some a ∧ p a = true := by
  obtain ⟨hlt, hp, _⟩ := List.findIdx?_eq_some_iff_getElem.1 h
  exact ⟨as[i], List.getElem?_eq_getElem hlt, hp⟩

/-- An optional name is there, and the same case aside. -/
theorem any_same_iff {name : Option String} {target : String} :
    name.any (Ident.same · target) = true ↔ name.map Ident.fold = some (Ident.fold target) := by
  cases name with
  | none => simp
  | some name => simp [Ident.same_iff]

/-- **The place of a target is that of what the grant is about.** -/
theorem Entity.target_of_target? {e : Entity} {op : Operation} {target : String} {i : Nat}
    (h : e.target? op target = .ok i) : e.Target target op i := by
  cases hkind : op.searchKind? with
  | some kind =>
    have hfind : e.searches.findIdx? (fun s =>
        s.kind == kind && s.name.any (Ident.same · target)) = some i := by
      unfold target? at h
      rw [hkind] at h
      exact orFail_eq_ok.1 h
    obtain ⟨s, hs, hp⟩ := exists_getElem?_of_findIdx? hfind
    rw [Bool.and_eq_true, beq_iff_eq] at hp
    exact .search hs (hp.1 ▸ hkind) (any_same_iff.1 hp.2)
  | none =>
    unfold target? at h
    cases op with
    | update =>
      obtain ⟨u, hu, hp⟩ := exists_getElem?_of_findIdx? (orFail_eq_ok.1 h)
      exact .update hu (any_same_iff.1 hp)
    | delete =>
      obtain ⟨u, hu, hp⟩ := exists_getElem?_of_findIdx? (orFail_eq_ok.1 h)
      exact .delete hu (any_same_iff.1 hp)
    | noExport =>
      obtain ⟨f, hf, hp⟩ := exists_getElem?_of_findIdx? (orFail_eq_ok.1 h)
      exact .noExport hf (Ident.same_iff.1 hp)
    | all => exact absurd h fail_ne_ok
    | insert => exact absurd h fail_ne_ok
    | search => cases hkind
    | list => cases hkind
    | iterate => cases hkind
    | count => cases hkind

/-! ### Bound grants -/

/-- The grant is bound: there is one handle for each granted name, in the order of the names, and no
other role has the name.  The operations on the entity as a whole have no target, and the others the
position of theirs. -/
structure Grant.Bound (t : RoleTree) (e : Entity) (g : Grant) : Prop where
  roles : List.Forall₂ (fun name id => ∀ id', t.Calls id' name ↔ id' = id) g.roles g.boundRoles
  whole : g.op = .all ∨ g.op = .insert → g.target = none ∧ g.boundTarget = none
  part : ¬(g.op = .all ∨ g.op = .insert) →
    ∃ target i, g.target = some target ∧ g.boundTarget = some i ∧ e.Target target g.op i

namespace Grant

variable {t : RoleTree} {e : Entity} {g : Grant}

theorem takesTarget_eq_false_iff {op : Operation} :
    op.takesTarget = false ↔ op = .all ∨ op = .insert := by
  cases op <;> decide

/-- Binding leaves a grant as it is when it holds what binding finds. -/
theorem bind_eq_self (h : g.bind t e = .ok g) :
    List.Forall₂ (fun name id => t.find? name = some id) g.roles g.boundRoles ∧
      g.bindTarget e = .ok g.boundTarget := by
  rw [bind, bind_eq_ok] at h
  obtain ⟨boundRoles, hroles, h⟩ := h
  obtain ⟨boundTarget, htarget, h⟩ := bind_eq_ok.1 h
  have heq : { g with boundRoles, boundTarget } = g := pure_eq_ok.1 h
  have hroles' : boundRoles = g.boundRoles := congrArg Grant.boundRoles heq
  have htarget' : boundTarget = g.boundTarget := congrArg Grant.boundTarget heq
  rw [hroles', mapM_eq_ok] at hroles
  rw [htarget'] at htarget
  exact ⟨hroles.imp fun _ _ h => orFail_eq_ok.1 h, htarget⟩

/-- A grant has a target exactly when its operation takes one, and the target has a place. -/
theorem bindTarget_cases {place : Option Nat} (h : g.bindTarget e = .ok place) :
    g.op.takesTarget = false ∧ g.target = none ∧ place = none ∨
      ∃ target i, g.op.takesTarget = true ∧ g.target = some target ∧
        e.target? g.op target = .ok i ∧ place = some i := by
  rw [bindTarget] at h
  cases hop : g.op.takesTarget with
  | false =>
    rw [hop] at h
    cases hg : g.target with
    | none =>
      rw [hg] at h
      exact .inl ⟨rfl, rfl, (Except.ok.inj h).symm⟩
    | some target =>
      rw [hg] at h
      exact absurd h failFlaw_ne_ok
  | true =>
    rw [hop] at h
    cases hg : g.target with
    | none =>
      rw [hg] at h
      exact absurd h failFlaw_ne_ok
    | some target =>
      rw [hg] at h
      obtain ⟨i, hi, hplace⟩ := map_eq_ok.1 h
      exact .inr ⟨target, i, rfl, rfl, hi, hplace.symm⟩

theorem bound_of_bind_self (hn : (t.roles.map fun r => Ident.fold r.name).Nodup)
    (h : g.bind t e = .ok g) : g.Bound t e := by
  obtain ⟨hroles, htarget⟩ := bind_eq_self h
  constructor
  · refine hroles.imp fun name id hid id' => ?_
    rw [← RoleTree.find?_eq_some_iff hn, hid, Option.some.injEq]
    exact eq_comm
  · intro hop
    rcases bindTarget_cases htarget with ⟨_, hnone, hplace⟩ | ⟨_, _, htakes, _⟩
    · exact ⟨hnone, hplace⟩
    · rw [takesTarget_eq_false_iff.2 hop] at htakes
      cases htakes
  · intro hop
    rcases bindTarget_cases htarget with ⟨htakes, _⟩ | ⟨target, i, _, hsome, hi, hplace⟩
    · exact absurd (takesTarget_eq_false_iff.1 htakes) hop
    · exact ⟨target, i, hsome, hplace, Entity.target_of_target? hi⟩

end Grant

/-! ### By name and by handle -/

section

variable {t : RoleTree} {id : Handle .role} {name : String} {op : Operation}
  {target : Option String}

theorem Grant.sameTarget_iff {a b : Option String} :
    sameTarget a b = true ↔ a.map Ident.fold = b.map Ident.fold := by
  cases a with
  | none => cases b <;> simp [sameTarget]
  | some a =>
    cases b with
    | none => simp [sameTarget]
    | some b => simp [sameTarget, Ident.same_iff]

/-- The name of a role is among some names exactly if the role is among those that they find. -/
theorem Grant.names_iff {g : Grant} (hn : (t.roles.map fun r => Ident.fold r.name).Nodup)
    (hg : List.Forall₂ (fun name id => t.find? name = some id) g.roles g.boundRoles)
    (hid : t.Calls id name) : g.names name = true ↔ id ∈ g.boundRoles := by
  rw [names]
  generalize g.roles = granted, g.boundRoles = bound at hg
  induction hg with
  | nil => simp
  | @cons granted found names ids hfound _ ih =>
    have hcalls : t.Calls found granted := RoleTree.calls_of_find? hfound
    have hsame : Ident.same granted name = true ↔ id = found := by
      rw [Ident.same_iff]
      constructor
      · intro hname
        obtain ⟨r, hr, hrname⟩ := hid
        exact RoleTree.Calls.unique hn ⟨r, hr, hrname.trans hname.symm⟩ hcalls
      · rintro rfl
        obtain ⟨r, hr, hrname⟩ := hid
        obtain ⟨r', hr', hrname'⟩ := hcalls
        obtain rfl : r = r' := Option.some.inj (hr.symm.trans hr')
        exact hrname'.symm.trans hrname
    rw [List.any_cons, Bool.or_eq_true, hsame, ih, List.mem_cons]

/-- **The two ways of asking agree.**  A role is permitted an operation by one of its names exactly
if some grant of the operation, or of all of them, holds its handle. -/
theorem Rolemap.permits_iff {m : Rolemap} (hn : (t.roles.map fun r => Ident.fold r.name).Nodup)
    (hm : ∀ g ∈ m.grants,
      List.Forall₂ (fun name id => t.find? name = some id) g.roles g.boundRoles)
    (hid : t.Calls id name) :
    m.permits op target name = true ↔
      ∃ g ∈ m.grants,
        (g.op = .all ∨ g.op = op ∧ g.target.map Ident.fold = target.map Ident.fold) ∧
          id ∈ g.boundRoles := by
  rw [permits, List.any_eq_true]
  refine exists_congr fun g => and_congr_right fun hg => ?_
  rw [Bool.and_eq_true, Grant.names_iff hn (hm g hg) hid, Bool.or_eq_true, Grant.covers,
    Bool.and_eq_true, beq_iff_eq, beq_iff_eq, Grant.sameTarget_iff]
  exact and_congr_left fun _ => Or.comm

end

/-! ### Unused roles -/

/-- The roles left over are the declared ones without a grant, in the order of their positions. -/
theorem RoleTree.mem_unused_iff {t : RoleTree} {granted : List (Handle .role)} {id : Handle .role} :
    id ∈ t.unused granted ↔ ∃ r, t.get? id = some r ∧ r.implicit = false ∧ id ∉ granted := by
  rw [unused, List.mem_filter, mem_handles_iff]
  constructor
  · rintro ⟨⟨r, hr⟩, h⟩
    rw [hr] at h
    simp only [Option.any_some, Bool.and_eq_true, Bool.not_eq_true', List.contains_eq_mem,
      decide_eq_false_iff_not] at h
    exact ⟨r, hr, h⟩
  · rintro ⟨r, hr, himplicit, hnot⟩
    refine ⟨⟨r, hr⟩, ?_⟩
    rw [hr]
    simp [himplicit, hnot]

theorem RoleTree.pairwise_unused (t : RoleTree) (granted : List (Handle .role)) :
    (t.unused granted).Pairwise (·.index < ·.index) :=
  (pairwise_handles t.roles.length).filter _

theorem Document.mem_grantedRoles_iff {d : Document} {id : Handle .role} :
    id ∈ d.grantedRoles ↔ ∃ e ∈ d.entities, ∃ g ∈ e.rolemap.grants, id ∈ g.boundRoles := by
  simp only [grantedRoles, List.mem_flatMap]

/-! ### Linked documents -/

/-- Binding the grants of an entity again changes nothing, whatever was linked since. -/
theorem Entity.bindGrants_self {t : RoleTree} {e e₀ e₁ : Entity} (h : e₀.bindGrants t = .ok e₁)
    (hsame : e.beforeChains = e₁.beforeChains) : e.bindGrants t = .ok e := by
  have hbefore : e.beforeGrants = e₀.beforeGrants := by
    rw [← beforeGrants_of_bindGrants h]
    have hrolemap := congrArg (fun e : Entity => { e with rolemap := e.rolemap.unlinked }) hsame
    exact hrolemap
  have hbound : beforeChains <$> e.bindGrants t = .ok e.beforeChains := by
    rw [← bindGrants_beforeGrants, hbefore, bindGrants_beforeGrants, h, hsame]
    rfl
  obtain ⟨e', he', hchains⟩ := map_eq_ok.1 hbound
  rw [he']
  -- The grants are those of the entity, and nothing else has been written.
  rw [bindGrants, bind_eq_ok] at he'
  obtain ⟨grants, _, hput⟩ := he'
  have hrolemap : e'.rolemap = e.rolemap := by
    have hparts := congrArg Entity.rolemap hchains
    exact hparts
  rw [← pure_eq_ok.1 hput] at hrolemap ⊢
  rw [show (⟨grants⟩ : Rolemap) = e.rolemap from hrolemap]

/-- The grants of a linked document say who is authorised.  They are bound (`bound`); asking for a
role by name or by handle makes no difference (`agrees`), and the shape of the role tree none
either, since any other tree over the same names binds the grants in the same way (`shapeless`); the
unused roles are the declared ones that occur in no grant (`ascending`, `unused`). -/
structure LinkedDocument.Authorised (l : LinkedDocument) : Prop where
  bound : ∀ e ∈ l.document.entities, ∀ g ∈ e.rolemap.grants, g.Bound l.document.roles e
  agrees : ∀ e ∈ l.document.entities, ∀ (op : Operation) (target : Option String)
    (id : Handle .role) (r : Role), l.document.roles.get? id = some r →
    ∀ name, Ident.fold name = Ident.fold r.name →
      (e.rolemap.permits op target name = true ↔
        ∃ g ∈ e.rolemap.grants,
          (g.op = .all ∨ g.op = op ∧ g.target.map Ident.fold = target.map Ident.fold) ∧
            id ∈ g.boundRoles)
  shapeless : ∀ t : RoleTree, t.roles.map Role.name = l.document.roles.roles.map Role.name →
    ∀ e ∈ l.document.entities, e.bindGrants t = .ok e
  ascending : l.unusedRoles.Pairwise (·.index < ·.index)
  unused : ∀ id, id ∈ l.unusedRoles ↔
    ∃ r, l.document.roles.get? id = some r ∧ r.implicit = false ∧
      ∀ e ∈ l.document.entities, ∀ g ∈ e.rolemap.grants, id ∉ g.boundRoles

namespace Document

variable {options : LinkOptions} {d bound high granted : Document} {l : LinkedDocument}

namespace LinkSteps

/-- The passes that bind grants and specifications leave the role tree alone. -/
theorem roles_high (s : LinkSteps options d bound high granted l) :
    l.document.roles = high.roles := by
  have hspecs := congrArg Document.roles (beforeChains_of_bindSpecs s.specs)
  have hgrants := congrArg Document.roles (beforeGrants_of_bindGrants s.grants)
  exact Eq.trans hspecs hgrants

/-- No two roles of a linked document share a name. -/
theorem nodup_roles (s : LinkSteps options d bound high granted l) :
    (l.document.roles.roles.map fun r => Ident.fold r.name).Nodup := by
  rw [s.roles_high]
  exact RoleTree.nodup_of_check s.roles

/-- Binding the grants of a linked document changes nothing. -/
theorem bindGrants_self (s : LinkSteps options d bound high granted l) {e : Entity}
    (he : e ∈ l.document.entities) : e.bindGrants l.document.roles = .ok e := by
  have hchains : e.beforeChains ∈ (granted.mapEntities Entity.beforeChains).entities := by
    rw [← beforeChains_of_bindSpecs s.specs]
    exact List.mem_map_of_mem he
  obtain ⟨e₁, he₁, hsame⟩ := List.mem_map.1 hchains
  have hgrants := s.grants
  rw [Document.bindGrants, bind_eq_ok] at hgrants
  obtain ⟨entities, hentities, hput⟩ := hgrants
  rw [← pure_eq_ok.1 hput] at he₁
  obtain ⟨e₀, _, he₀⟩ := exists_of_mem_mapM hentities he₁
  rw [s.roles_high]
  exact Entity.bindGrants_self he₀ hsame.symm

/-- Every grant of a linked document holds what binding finds. -/
theorem bindGrant_self (s : LinkSteps options d bound high granted l) {e : Entity}
    (he : e ∈ l.document.entities) {g : Grant} (hg : g ∈ e.rolemap.grants) :
    g.bind l.document.roles e = .ok g := by
  have hgrants := eq_ok_of_put (fun e : Entity => e.rolemap.grants) (fun _ => rfl)
    (s.bindGrants_self he)
  exact placed_eq_ok.1 (mapM_eq_self_iff.1 hgrants g hg)

theorem mem_unusedRoles_iff (s : LinkSteps options d bound high granted l) {id : Handle .role} :
    id ∈ l.unusedRoles ↔ ∃ r, l.document.roles.get? id = some r ∧ r.implicit = false ∧
      ∀ e ∈ l.document.entities, ∀ g ∈ e.rolemap.grants, id ∉ g.boundRoles := by
  have hunused : l.unusedRoles = l.document.unusedRoles := by
    rw [s.unused, ← unusedRoles_beforeChains granted, ← beforeChains_of_bindSpecs s.specs,
      unusedRoles_beforeChains]
  rw [hunused, unusedRoles, RoleTree.mem_unused_iff, mem_grantedRoles_iff]
  simp only [not_exists, not_and]

end LinkSteps

/-- **The grants of a linked document say who is authorised**, by name as by handle. -/
theorem link_authorised (h : d.link options = .ok l) : l.Authorised := by
  obtain ⟨bound, high, granted, s⟩ := link_eq_ok_iff.1 h
  constructor
  · intro e he g hg
    exact Grant.bound_of_bind_self s.nodup_roles (s.bindGrant_self he hg)
  · intro e he op target id r hr name hname
    have hroles : ∀ g ∈ e.rolemap.grants, List.Forall₂
        (fun name id => l.document.roles.find? name = some id) g.roles g.boundRoles :=
      fun g hg => (Grant.bind_eq_self (s.bindGrant_self he hg)).1
    exact Rolemap.permits_iff s.nodup_roles hroles ⟨r, hr, hname.symm⟩
  · intro t ht e he
    -- A grant reads the role tree by looking up names.
    have hbind (g : Grant) : g.bind t e = g.bind l.document.roles e := by
      rw [Grant.bind, Grant.bind, RoleTree.find?_congr ht]
    have hself := s.bindGrants_self he
    rw [Entity.bindGrants] at hself ⊢
    simp only [hbind]
    exact hself
  · rw [s.unused]
    exact RoleTree.pairwise_unused _ _
  · intro id
    exact s.mem_unusedRoles_iff

/-- The sessions with a staff and its trainees, where the staff may insert, and its identifiers are
left out of exports. -/
def staffedSessions : Document :=
  let staff : Handle .role := ⟨3, by decide⟩
  let trainee : Handle .role := ⟨4, by decide⟩
  let rolemap : Rolemap :=
    ⟨[{ op := .insert, target := none, roles := ["Staff"] },
      { op := .noExport, target := some "ID", roles := ["default", "STAFF"] }]⟩
  { (sessions true).mapEntities fun e => { e with rolemap } with
    roles :=
      { roles := RoleTree.initial.roles ++
          [{ name := "staff", children := [trainee] }, { name := "trainee", parent := some staff }]
        roots := RoleTree.initial.roots ++ [staff] } }

/-- The staff may insert and its trainees may not, which leaves them the one unused role. -/
theorem link_authorised_staffed :
    ∃ l, staffedSessions.link .trusted = .ok l ∧ l.unusedRoles = [⟨4, by decide⟩] ∧
      l.permits "session" .insert none "staff" = true ∧
      l.permits "session" .insert none "trainee" = false ∧ l.Authorised := by
  obtain ⟨l, h, hparts⟩ := exists_ok_of_any (r := staffedSessions.link .trusted)
    (p := fun l => decide (l.unusedRoles = [⟨4, by decide⟩] ∧
      l.permits "session" .insert none "staff" = true ∧
      l.permits "session" .insert none "trainee" = false)) (by decide +kernel)
  obtain ⟨hunused, hstaff, htrainee⟩ := of_decide_eq_true hparts
  exact ⟨l, h, hunused, hstaff, htrainee, link_authorised h⟩

end Document

end DataModel
