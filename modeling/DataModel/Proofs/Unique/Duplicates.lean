import DataModel.Proofs.Linking.Trust
import DataModel.Proofs.Unique.Keys

/-!
# Duplicate constraints

What an entity does with a constraint that is over the fields of an earlier one, behind any calls
that declare constraints, the refused ones included.

A call of two fields at least, none of them twice, is refused exactly if some constraint has its key
(`Entity.addUnique_of_used` and `Entity.addUnique_of_unused`).  Constraints over the same fields
have one key, so no duplicate is ever accepted.  Constraints over different fields have different
keys if no name holds a comma: `Entity.duplicates_recognised`.  With commas a constraint can be
refused though no other one is over its fields (`Entity.duplicates_recognised_commas`).
-/

namespace DataModel

namespace Entity

variable {e e' : Entity} {calls : List (List String)} {fields : List String} {u : Unique}

/-! ### Calls -/

/-- The entity behind a call that declares a constraint; a refused one leaves it as it is. -/
def afterUnique (e : Entity) (fields : List String) : Entity :=
  match e.addUnique fields with
  | .ok (_, e') => e'
  | .error _ => e

/-- The entity behind some calls. -/
def afterUniques (e : Entity) (calls : List (List String)) : Entity := calls.foldl afterUnique e

/-- One of the calls is for these fields and is accepted. -/
def AcceptsUnique (e : Entity) (calls : List (List String)) (fields : List String) : Prop :=
  ∃ before after, calls = before ++ fields :: after ∧
    ((e.afterUniques before).addUnique fields).isOk = true

theorem afterUniques_concat :
    e.afterUniques (calls ++ [fields]) = (e.afterUniques calls).afterUnique fields := by
  rw [afterUniques, List.foldl_append]
  rfl

theorem acceptsUnique_concat {earlier : List String} :
    e.AcceptsUnique (calls ++ [fields]) earlier ↔ e.AcceptsUnique calls earlier ∨
      earlier = fields ∧ ((e.afterUniques calls).addUnique fields).isOk = true := by
  constructor
  · rintro ⟨before, after, hsplit, haccepted⟩
    rcases List.eq_nil_or_concat after with rfl | ⟨after, last, rfl⟩
    · obtain ⟨rfl, hlast⟩ := List.append_inj' hsplit rfl
      obtain rfl := List.singleton_inj.1 hlast
      exact .inr ⟨rfl, haccepted⟩
    · rw [List.concat_eq_append, ← List.cons_append, ← List.append_assoc] at hsplit
      obtain ⟨rfl, _⟩ := List.append_inj' hsplit rfl
      exact .inl ⟨before, after, rfl, haccepted⟩
  · rintro (⟨before, after, rfl, haccepted⟩ | ⟨rfl, haccepted⟩)
    · exact ⟨before, after ++ [fields], by simp, haccepted⟩
    · exact ⟨calls, [], rfl, haccepted⟩

/-- **What a call does to the constraints**: an accepted one adds its own. -/
theorem mem_afterUnique_iff : u ∈ (e.afterUnique fields).uniques ↔
    u ∈ e.uniques ∨ (e.addUnique fields).isOk = true ∧ Unique.ofTexts fields = u := by
  rw [afterUnique]
  cases h : e.addUnique fields with
  | error err => simp [Except.isOk, Except.toBool]
  | ok r =>
    obtain ⟨v, e'⟩ := r
    obtain ⟨_, _, _, rfl, rfl⟩ := addUnique_eq_ok.1 h
    dsimp only
    rw [List.mem_append, List.mem_singleton]
    simp [Except.isOk, Except.toBool, eq_comm]

/-- **The constraints behind some calls** are the ones in front of them and those of the accepted
calls. -/
theorem mem_afterUniques_iff : u ∈ (e.afterUniques calls).uniques ↔
    u ∈ e.uniques ∨ ∃ earlier, e.AcceptsUnique calls earlier ∧ Unique.ofTexts earlier = u := by
  induction calls using List.reverseRecOn with
  | nil => simp [afterUniques, AcceptsUnique]
  | append_singleton calls fields ih =>
    rw [afterUniques_concat, mem_afterUnique_iff, ih, or_assoc]
    simp only [acceptsUnique_concat, or_and_right, exists_or, and_assoc, exists_eq_left]

/-- Accepted constraints are well formed. -/
theorem AcceptsUnique.wellFormed (h : e.AcceptsUnique calls fields) :
    (Unique.ofTexts fields).WellFormed := by
  obtain ⟨before, _, _, haccepted⟩ := h
  cases hadd : (e.afterUniques before).addUnique fields with
  | error err =>
    rw [hadd] at haccepted
    cases haccepted
  | ok r =>
    obtain ⟨u, e'⟩ := r
    obtain ⟨hlong, honce, _, rfl, _⟩ := addUnique_eq_ok.1 hadd
    exact ⟨by simpa [Unique.ofTexts] using hlong, honce⟩

/-- The constraints behind some calls are well formed. -/
theorem wellFormed_afterUniques (h : ∀ u ∈ e.uniques, u.WellFormed) :
    ∀ u ∈ (e.afterUniques calls).uniques, u.WellFormed := by
  intro u hu
  rcases mem_afterUniques_iff.1 hu with hold | ⟨earlier, haccepted, rfl⟩
  · exact h u hold
  · exact haccepted.wellFormed

/-! ### One call -/

section

variable (hlong : 2 ≤ fields.length) (honce : (fields.map Ident.fold).Nodup)

include hlong honce

/-- **A call over different fields is decided by its key.** -/
theorem addUnique_of_different : e.addUnique fields = do
    Scope.unique.checkUnused (Unique.ofTexts fields).key (e.uniques.map Unique.key)
    return (Unique.ofTexts fields,
      { e with uniques := e.uniques ++ [Unique.ofTexts fields] }) := by
  have hrepeated : (Unique.ofTexts fields).repeatedField? = none := by
    rw [Unique.repeatedField?_eq_none_iff, Unique.names_ofTexts]
    exact honce
  rw [addUnique, if_neg (not_lt.2 hlong)]
  dsimp only
  rw [hrepeated]

/-- A call is refused if a constraint has its key. -/
theorem addUnique_of_used (hu : u ∈ e.uniques) (hkey : u.key = (Unique.ofTexts fields).key) :
    e.addUnique fields = fail (.duplicateName (Unique.ofTexts fields).key .unique) := by
  have hused : (e.uniques.map Unique.key).any (Ident.same · (Unique.ofTexts fields).key) = true :=
    List.any_eq_true.2 ⟨_, List.mem_map_of_mem hu, Ident.same_iff.2 (congrArg Ident.fold hkey)⟩
  rw [addUnique_of_different hlong honce, Scope.checkUnused, if_pos hused]
  rfl

/-- A call is accepted if no constraint has its key. -/
theorem addUnique_of_unused (h : ∀ u ∈ e.uniques, u.key ≠ (Unique.ofTexts fields).key) :
    e.addUnique fields = .ok (Unique.ofTexts fields,
      { e with uniques := e.uniques ++ [Unique.ofTexts fields] }) := by
  have hunused : Scope.unique.checkUnused (Unique.ofTexts fields).key
      (e.uniques.map Unique.key) = .ok () := by
    rw [Scope.checkUnused_eq_ok_iff, List.forall_mem_map]
    intro u hu
    rw [Unique.fold_key, Unique.fold_key]
    exact h u hu
  rw [addUnique_of_different hlong honce, hunused]
  rfl

/-- **A call is refused exactly for a constraint with its key.** -/
theorem addUnique_eq_error_iff {err : Error} : e.addUnique fields = .error err ↔
    (∃ u ∈ e.uniques, u.key = (Unique.ofTexts fields).key) ∧
      err = { cause := .duplicateName (Unique.ofTexts fields).key .unique } := by
  by_cases hused : ∃ u ∈ e.uniques, u.key = (Unique.ofTexts fields).key
  · obtain ⟨u, hu, hkey⟩ := hused
    rw [addUnique_of_used hlong honce hu hkey, fail, Except.error.injEq, eq_comm]
    exact (and_iff_right ⟨u, hu, hkey⟩).symm
  · rw [addUnique_of_unused hlong honce fun u hu hkey => hused ⟨u, hu, hkey⟩]
    simp [hused]

end

/-- **A constraint over the fields of another one is recognised**, and if no name holds a comma,
then no other one is taken for it.  This is for every entity whose constraints are well formed,
behind any calls that declare constraints, and for every next call of two fields at least, none of
them twice. -/
theorem duplicates_recognised (e : Entity) (h : ∀ u ∈ e.uniques, u.WellFormed)
    (calls : List (List String)) {e' : Entity} (hcalls : e.afterUniques calls = e') :
    (∀ u, u ∈ e'.uniques ↔
      u ∈ e.uniques ∨ ∃ earlier, e.AcceptsUnique calls earlier ∧ Unique.ofTexts earlier = u) ∧
    ∀ fields : List String, 2 ≤ fields.length → (fields.map Ident.fold).Nodup →
      (∀ err, e'.addUnique fields = .error err ↔
        (∃ u ∈ e'.uniques, u.key = (Unique.ofTexts fields).key) ∧
          err = { cause := .duplicateName (Unique.ofTexts fields).key .unique }) ∧
      ((∃ u ∈ e'.uniques, u.IsOver fields) → ∃ err, e'.addUnique fields = .error err) ∧
      ((∀ u ∈ e'.uniques, u.CommaFree) → (∀ n ∈ fields, ',' ∉ n.toList) →
        ((∃ err, e'.addUnique fields = .error err) ↔ ∃ u ∈ e'.uniques, u.IsOver fields)) := by
  subst hcalls
  refine ⟨fun u => mem_afterUniques_iff, fun fields hlong honce => ?_⟩
  have hformed : ∀ u ∈ (e.afterUniques calls).uniques, u.WellFormed := wellFormed_afterUniques h
  generalize e.afterUniques calls = e' at hformed ⊢
  have hover : ∀ u ∈ e'.uniques,
      (u.IsOver fields ↔ u.names.Perm (Unique.ofTexts fields).names) := fun u hu =>
    Unique.isOver_iff_perm (Unique.repeatedField?_eq_none_iff.1 (hformed u hu).2) honce
  have hrefused : (∃ u ∈ e'.uniques, u.IsOver fields) →
      ∃ err, e'.addUnique fields = .error err := by
    rintro ⟨u, hu, hfields⟩
    have hkey := Unique.key_eq_of_perm ((hover u hu).1 hfields)
    exact ⟨_, addUnique_of_used hlong honce hu hkey⟩
  refine ⟨fun err => addUnique_eq_error_iff hlong honce, hrefused, ?_⟩
  intro hfree hcommas
  refine ⟨fun ⟨err, herr⟩ => ?_, hrefused⟩
  obtain ⟨⟨u, hu, hkey⟩, _⟩ := (addUnique_eq_error_iff hlong honce).1 herr
  have hcalled := Unique.commaFree_ofTexts hcommas
  refine ⟨u, hu, (hover u hu).2 (Unique.perm_of_key_eq (hfree u hu) hcalled ?_ ?_ hkey)⟩
  · have hu := (hformed u hu).1
    exact List.ne_nil_of_length_pos (by omega)
  · rw [Unique.ofTexts]
    exact List.ne_nil_of_length_pos (by simp; omega)

/-- An entity for accounts, which has no constraints. -/
def accounts : Entity := declare ⟨0, Handle.bound_pos⟩ "account"

/-- The entity with a constraint. -/
def addressed : Entity := { accounts with uniques := [Unique.ofTexts ["Tenant", "email"]] }

/-- Behind a refused and an accepted call, a call for the fields of the accepted one is refused, and
a call for others is not. -/
theorem duplicates_recognised_accounts :
    accounts.afterUniques [["tenant"], ["Tenant", "email"]] = addressed ∧
      (∃ err, addressed.addUnique ["EMAIL", "tenant"] = .error err) ∧
      ¬∃ err, addressed.addUnique ["email", "phone"] = .error err := by
  have haccepted : accounts.addUnique ["Tenant", "email"] =
      .ok (Unique.ofTexts ["Tenant", "email"], addressed) :=
    addUnique_of_unused (by decide) (by decide +kernel) nofun
  have hcalls : accounts.afterUniques [["tenant"], ["Tenant", "email"]] = addressed := by
    show afterUnique accounts ["Tenant", "email"] = addressed
    rw [afterUnique, haccepted]
  have hfree : ∀ u ∈ addressed.uniques, u.CommaFree := by
    rw [addressed, List.forall_mem_singleton]
    exact Unique.commaFree_ofTexts (by decide)
  obtain ⟨_, hcall⟩ := duplicates_recognised accounts nofun _ hcalls
  obtain ⟨_, hrefused, _⟩ := hcall ["EMAIL", "tenant"] (by decide) (by decide +kernel)
  obtain ⟨_, _, hexact⟩ := hcall ["email", "phone"] (by decide) (by decide +kernel)
  replace hexact := hexact hfree (by decide)
  have hnames : (Unique.ofTexts ["Tenant", "email"]).names = ["tenant", "email"] := by
    rw [Unique.names_ofTexts]
    decide +kernel
  refine ⟨hcalls, hrefused ⟨_, List.mem_singleton_self _, fun n => ?_⟩, fun herr => ?_⟩
  · have hcalled : ["EMAIL", "tenant"].map Ident.fold = ["email", "tenant"] := by decide +kernel
    rw [hnames, hcalled]
    simp [or_comm]
  · obtain ⟨u, hu, hover⟩ := hexact.1 herr
    have hphone : "phone" ∈ u.names := (hover "phone").2 (by decide +kernel)
    rw [List.mem_singleton.1 hu, hnames] at hphone
    revert hphone
    decide

/-- **A comma in a name lets different fields pass for the same.**  An entity takes four fields and
a constraint over two of them, and then refuses one over the other two. -/
theorem duplicates_recognised_commas :
    ∃ e, ["a,b", "c", "a", "b,c"].foldlM (fun e name => Prod.snd <$> e.addField name) accounts =
        .ok e ∧
      ∃ e', e.addUnique ["a,b", "c"] = .ok (Unique.ofTexts ["a,b", "c"], e') ∧
      (["a", "b,c"].map Ident.fold).Nodup ∧ (∃ err, e'.addUnique ["a", "b,c"] = .error err) ∧
      ¬∃ u ∈ e'.uniques, u.IsOver ["a", "b,c"] := by
  obtain ⟨e, he, hnone⟩ := exists_ok_of_any
    (r := ["a,b", "c", "a", "b,c"].foldlM (fun e name => Prod.snd <$> e.addField name) accounts)
    (p := fun e => e.uniques.isEmpty) (by decide +kernel)
  have hnone : e.uniques = [] := List.isEmpty_iff.1 hnone
  have hadd : e.addUnique ["a,b", "c"] = .ok (Unique.ofTexts ["a,b", "c"],
      { e with uniques := e.uniques ++ [Unique.ofTexts ["a,b", "c"]] }) :=
    addUnique_of_unused (by decide) (by decide +kernel) (by simp [hnone])
  have hkey : (Unique.ofTexts ["a,b", "c"]).key = (Unique.ofTexts ["a", "b,c"]).key := by
    rw [Unique.key_of_pairwise (by decide +kernel), Unique.key_of_pairwise (by decide +kernel)]
    decide +kernel
  have honce : (["a", "b,c"].map Ident.fold).Nodup := by decide +kernel
  refine ⟨e, he, _, hadd, honce, ⟨_, addUnique_of_used (by decide) honce ?_ hkey⟩, ?_⟩
  · exact List.mem_append_right _ (List.mem_singleton.2 rfl)
  · rintro ⟨u, hu, hover⟩
    rw [hnone, List.nil_append, List.mem_singleton] at hu
    have hmem : "a" ∉ u.names := by
      rw [hu]
      decide +kernel
    refine hmem ((hover "a").2 ?_)
    decide +kernel

end Entity

end DataModel
