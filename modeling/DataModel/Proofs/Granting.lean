import DataModel.Proofs.Linking.GrantEntries

/-!
# The history of grants

A role map comes about by calls, each of which asks that a role be granted an operation, on a target
if one is given.  A call that fails changes nothing.  What the role map holds in the end is written
down here for the calls alone (`Rolemap.ofCalls`): an entry for each operation and target that some
call is for, in the order of the first calls, and in it the roles of all calls for the same, each
once and in order.

The step is `Rolemap.call_ofCalls`: behind any calls, the next one is refused if an earlier call was
for the same and named the same role, and else leads to the role map of all calls.  By induction,
calls lead to the role map that is written down for them; `Rolemap.grants_recorded` says so, and
what the role map permits.
-/

namespace DataModel

/-! ### First members -/

section

variable {α κ : Type} [DecidableEq κ] (key : α → κ) {a : α} {as : List α} {k : κ}

/-- The members of a list that have their key before all others, in order. -/
def firsts : List α → List α
  | [] => []
  | a :: as => a :: (firsts as).filter fun b => key b ≠ key a

variable {key} in
theorem mem_of_mem_firsts (h : a ∈ firsts key as) : a ∈ as := by
  induction as with
  | nil => exact h
  | cons b as ih =>
    rcases List.mem_cons.1 h with rfl | h
    · exact List.mem_cons_self
    · exact List.mem_cons_of_mem _ (ih (List.mem_filter.1 h).1)

/-- Every key is that of a first member. -/
theorem exists_mem_firsts_iff : (∃ b ∈ firsts key as, key b = k) ↔ ∃ b ∈ as, key b = k := by
  constructor
  · rintro ⟨b, hb, hk⟩
    exact ⟨b, mem_of_mem_firsts hb, hk⟩
  · intro h
    induction as with
    | nil => exact h
    | cons a as ih =>
      by_cases hk : key a = k
      · exact ⟨a, List.mem_cons_self, hk⟩
      · have hrest : ∃ b ∈ as, key b = k := by
          obtain ⟨b, hb, hbk⟩ := h
          rcases List.mem_cons.1 hb with rfl | hb
          · exact absurd hbk hk
          · exact ⟨b, hb, hbk⟩
        obtain ⟨b, hb, hbk⟩ := ih hrest
        have hne : key b ≠ key a := fun heq => hk (heq ▸ hbk)
        exact ⟨b, List.mem_cons_of_mem _ (List.mem_filter.2 ⟨hb, decide_eq_true hne⟩), hbk⟩

/-- No two first members have one key. -/
theorem pairwise_firsts (as : List α) : (firsts key as).Pairwise fun b c => key b ≠ key c := by
  induction as with
  | nil => exact List.Pairwise.nil
  | cons a as ih =>
    refine List.Pairwise.cons (fun b hb => ?_) (ih.filter _)
    exact (of_decide_eq_true (List.mem_filter.1 hb).2).symm

/-- A member behind a list is a first one if none of the list has its key. -/
theorem firsts_concat :
    firsts key (as ++ [a]) =
      if ∃ b ∈ as, key b = key a then firsts key as else firsts key as ++ [a] := by
  induction as with
  | nil => simp [firsts]
  | cons b as ih =>
    rw [List.cons_append, firsts, ih, firsts]
    by_cases hold : ∃ c ∈ as, key c = key a
    · obtain ⟨c, hc, hkey⟩ := hold
      rw [if_pos ⟨c, hc, hkey⟩, if_pos ⟨c, List.mem_cons_of_mem _ hc, hkey⟩]
    · rw [if_neg hold, List.filter_append]
      by_cases hb : key b = key a
      · rw [if_pos ⟨b, List.mem_cons_self, hb⟩]
        simp [hb]
      · have hnew : ¬ ∃ c ∈ b :: as, key c = key a := by
          rintro ⟨c, hc, hkey⟩
          rcases List.mem_cons.1 hc with rfl | hc
          · exact hb hkey
          · exact hold ⟨c, hc, hkey⟩
        rw [if_neg hnew]
        simp [Ne.symm hb]

end

/-! ### Calls -/

/-- A call for a grant. -/
structure GrantCall where
  op : Operation
  target : Option String
  role : String
  deriving DecidableEq

/-- What the call is for: the operation, and the target, case aside. -/
def GrantCall.entry (c : GrantCall) : Operation × Option String :=
  (c.op, c.target.map Ident.fold)

namespace Rolemap

/-- The outcome of a call. -/
def call (m : Rolemap) (c : GrantCall) : Except Error Rolemap := m.grant c.op c.target c.role

/-- The role map after a call, which changes nothing if it fails. -/
def after (m : Rolemap) (c : GrantCall) : Rolemap :=
  match m.call c with
  | .ok m' => m'
  | .error _ => m

/-- The role map after some calls. -/
def run (calls : List GrantCall) : Rolemap := calls.foldl after {}

theorem run_concat (calls : List GrantCall) (c : GrantCall) :
    run (calls ++ [c]) = (run calls).after c := by
  rw [run, List.foldl_append]
  rfl

/-! ### What is written down -/

variable {calls : List GrantCall} {c b : GrantCall}

/-- The roles that calls ask for in one entry. -/
def rolesFor (calls : List GrantCall) (entry : Operation × Option String) : List String :=
  (calls.filter fun c => c.entry = entry).map GrantCall.role

/-- The entry that a call opens, with the roles of all calls that are for the same. -/
def entryOf (calls : List GrantCall) (c : GrantCall) : Grant :=
  { op := c.op, target := c.target, roles := firsts Ident.fold (rolesFor calls c.entry) }

/-- **The role map of some calls**: an entry for each call that is the first for what it is for. -/
def ofCalls (calls : List GrantCall) : Rolemap :=
  ⟨(firsts GrantCall.entry calls).map (entryOf calls)⟩

/-- An earlier call was for the same, and for the same role. -/
def Repeats (calls : List GrantCall) (c : GrantCall) : Prop :=
  ∃ b ∈ calls, b.entry = c.entry ∧ Ident.fold b.role = Ident.fold c.role

instance : Decidable (Repeats calls c) :=
  inferInstanceAs
    (Decidable (∃ b ∈ calls, b.entry = c.entry ∧ Ident.fold b.role = Ident.fold c.role))

theorem entry_entryOf : (entryOf calls c).entry = c.entry := rfl

theorem mem_rolesFor {entry : Operation × Option String} {role : String} :
    role ∈ rolesFor calls entry ↔ ∃ c ∈ calls, c.entry = entry ∧ c.role = role := by
  simp only [rolesFor, List.mem_map, List.mem_filter, decide_eq_true_eq, and_assoc]

/-- The roles of an entry are those of the calls for it. -/
theorem exists_mem_roles_iff {role : String} :
    (∃ name ∈ (entryOf calls b).roles, Ident.fold name = Ident.fold role) ↔
      ∃ c ∈ calls, c.entry = b.entry ∧ Ident.fold c.role = Ident.fold role := by
  rw [entryOf, exists_mem_firsts_iff]
  constructor
  · rintro ⟨_, hname, hfold⟩
    obtain ⟨c, hc, hentry, rfl⟩ := mem_rolesFor.1 hname
    exact ⟨c, hc, hentry, hfold⟩
  · rintro ⟨c, hc, hentry, hfold⟩
    exact ⟨c.role, mem_rolesFor.2 ⟨c, hc, hentry, rfl⟩, hfold⟩

/-- A call does not concern the entries that it is not for. -/
theorem entryOf_concat_of_ne (h : c.entry ≠ b.entry) :
    entryOf (calls ++ [c]) b = entryOf calls b := by
  rw [entryOf, entryOf, rolesFor, rolesFor, List.filter_append, List.filter_singleton,
    decide_eq_false h, cond_false, List.append_nil]

/-- A call brings its role into the entry that it is for, unless the role is there. -/
theorem entryOf_concat_of_eq (h : c.entry = b.entry) :
    entryOf (calls ++ [c]) b =
      if Repeats calls c then entryOf calls b
      else { entryOf calls b with roles := (entryOf calls b).roles ++ [c.role] } := by
  have hroles : rolesFor (calls ++ [c]) b.entry = rolesFor calls b.entry ++ [c.role] := by
    rw [rolesFor, rolesFor, List.filter_append, List.filter_singleton, decide_eq_true h, cond_true,
      List.map_append, List.map_singleton]
  have hrepeats : (∃ name ∈ rolesFor calls b.entry, Ident.fold name = Ident.fold c.role) ↔
      Repeats calls c := by
    rw [← exists_mem_firsts_iff Ident.fold, Repeats, h]
    exact exists_mem_roles_iff
  rw [entryOf, hroles, firsts_concat]
  by_cases hc : Repeats calls c
  · rw [if_pos hc, if_pos (hrepeats.2 hc), entryOf]
  · rw [if_neg hc, if_neg (fun h => hc (hrepeats.1 h)), entryOf]

/-! ### One call -/

/-- What no entry is for opens one. -/
theorem grantIn_of_new {grants : List Grant} (h : ∀ g ∈ grants, g.entry ≠ c.entry) :
    grantIn c.op c.target c.role grants =
      .ok (grants ++ [{ op := c.op, target := c.target, roles := [c.role] }]) := by
  induction grants with
  | nil => rfl
  | cons g grants ih =>
    rw [List.forall_mem_cons] at h
    rw [grantIn, if_neg (fun hcovers => h.1 (Grant.covers_iff.1 hcovers)), ih h.2]
    rfl

/-- What an entry is for joins the first such entry, if the role is new there. -/
theorem grantIn_of_open {before after : List Grant} {g : Grant}
    (hbefore : ∀ b ∈ before, b.entry ≠ c.entry) (hg : g.entry = c.entry) :
    grantIn c.op c.target c.role (before ++ g :: after) =
      if ∃ name ∈ g.roles, Ident.fold name = Ident.fold c.role then
        fail (.duplicateName c.role .grant)
      else .ok (before ++ { g with roles := g.roles ++ [c.role] } :: after) := by
  induction before with
  | nil =>
    have hused : g.roles.any (Ident.same · c.role) = true ↔
        ∃ name ∈ g.roles, Ident.fold name = Ident.fold c.role := by
      simp only [List.any_eq_true, Ident.same_iff]
    rw [List.nil_append, grantIn, if_pos (Grant.covers_iff.2 hg), Scope.checkUnused]
    simp only [hused]
    split_ifs with hrole
    · rfl
    · rfl
  | cons b before ih =>
    rw [List.forall_mem_cons] at hbefore
    rw [List.cons_append, grantIn, if_neg (fun hcovers => hbefore.1 (Grant.covers_iff.1 hcovers)),
      ih hbefore.2]
    split_ifs with hrole
    · rfl
    · rfl

/-- A call that repeats another leaves the role map of the calls as it is. -/
theorem ofCalls_concat_of_repeats (h : Repeats calls c) :
    ofCalls (calls ++ [c]) = ofCalls calls := by
  have hfirsts : firsts GrantCall.entry (calls ++ [c]) = firsts GrantCall.entry calls := by
    obtain ⟨b, hb, hentry, _⟩ := h
    rw [firsts_concat, if_pos ⟨b, hb, hentry⟩]
  rw [ofCalls, ofCalls, hfirsts]
  congr 1
  refine List.map_congr_left fun b _ => ?_
  by_cases hentry : c.entry = b.entry
  · rw [entryOf_concat_of_eq hentry, if_pos h]
  · exact entryOf_concat_of_ne hentry

/-- A call for what no call was for before it opens an entry. -/
theorem call_ofCalls_of_new (h : ¬ ∃ b ∈ calls, b.entry = c.entry) :
    (ofCalls calls).call c = .ok (ofCalls (calls ++ [c])) := by
  have hne : ∀ b ∈ firsts GrantCall.entry calls, c.entry ≠ b.entry :=
    fun b hb heq => h ⟨b, mem_of_mem_firsts hb, heq.symm⟩
  have hnew : ∀ g ∈ (ofCalls calls).grants, g.entry ≠ c.entry := by
    intro g hg
    obtain ⟨b, hb, rfl⟩ := List.mem_map.1 hg
    exact (hne b hb).symm
  have hnone : rolesFor calls c.entry = [] := by
    refine List.eq_nil_iff_forall_not_mem.2 fun role hrole => ?_
    obtain ⟨b, hb, hentry, _⟩ := mem_rolesFor.1 hrole
    exact h ⟨b, hb, hentry⟩
  have hrepeats : ¬ Repeats calls c := fun ⟨b, hb, hentry, _⟩ => h ⟨b, hb, hentry⟩
  have hopened :
      entryOf (calls ++ [c]) c = { op := c.op, target := c.target, roles := [c.role] } := by
    rw [entryOf_concat_of_eq rfl, if_neg hrepeats, entryOf, hnone]
    rfl
  have hkept : (firsts GrantCall.entry calls).map (entryOf (calls ++ [c])) =
      (firsts GrantCall.entry calls).map (entryOf calls) :=
    List.map_congr_left fun b hb => entryOf_concat_of_ne (hne b hb)
  rw [call, grant, grantIn_of_new hnew, ok_bind, ofCalls, ofCalls, firsts_concat, if_neg h,
    List.map_append, List.map_singleton, hkept, hopened]
  rfl

/-- A call for what a call was for before it joins the entry of that call, or repeats a role. -/
theorem call_ofCalls_of_open (h : ∃ b ∈ calls, b.entry = c.entry) :
    (ofCalls calls).call c =
      if Repeats calls c then fail (.duplicateName c.role .grant)
      else .ok (ofCalls (calls ++ [c])) := by
  -- The first call for the same stands between others, which are for something else.
  obtain ⟨b, hb, hentry⟩ := (exists_mem_firsts_iff GrantCall.entry).2 h
  obtain ⟨before, after, hsplit⟩ := List.append_of_mem hb
  have hpairwise := pairwise_firsts GrantCall.entry calls
  rw [hsplit, List.pairwise_append, List.pairwise_cons] at hpairwise
  obtain ⟨_, ⟨hafter, _⟩, hbefore⟩ := hpairwise
  have hbefore : ∀ x ∈ before, c.entry ≠ x.entry :=
    fun x hx heq => hbefore x hx b List.mem_cons_self (heq.symm.trans hentry.symm)
  have hafter : ∀ x ∈ after, c.entry ≠ x.entry := fun x hx heq => hafter x hx (hentry.trans heq)
  have hgrants : (ofCalls calls).grants =
      before.map (entryOf calls) ++ entryOf calls b :: after.map (entryOf calls) := by
    rw [ofCalls, hsplit, List.map_append, List.map_cons]
  have hothers : ∀ g ∈ before.map (entryOf calls), g.entry ≠ c.entry := by
    intro g hg
    obtain ⟨x, hx, rfl⟩ := List.mem_map.1 hg
    exact (hbefore x hx).symm
  have hopen : (entryOf calls b).entry = c.entry := hentry
  have hrole : (∃ name ∈ (entryOf calls b).roles, Ident.fold name = Ident.fold c.role) ↔
      Repeats calls c := by
    rw [exists_mem_roles_iff, Repeats, hentry]
  rw [call, grant, hgrants, grantIn_of_open hothers hopen]
  simp only [hrole]
  by_cases hrepeats : Repeats calls c
  · rw [if_pos hrepeats, if_pos hrepeats]
    rfl
  · rw [if_neg hrepeats, if_neg hrepeats, ok_bind, ofCalls, firsts_concat, if_pos h, hsplit,
      List.map_append, List.map_cons, entryOf_concat_of_eq hentry.symm, if_neg hrepeats,
      List.map_congr_left fun x hx => entryOf_concat_of_ne (hbefore x hx),
      List.map_congr_left fun x hx => entryOf_concat_of_ne (hafter x hx)]
    rfl

/-- **A call is refused if it repeats another**, and else leads to the role map of all calls. -/
theorem call_ofCalls (calls : List GrantCall) (c : GrantCall) :
    (ofCalls calls).call c =
      if Repeats calls c then fail (.duplicateName c.role .grant)
      else .ok (ofCalls (calls ++ [c])) := by
  by_cases h : ∃ b ∈ calls, b.entry = c.entry
  · exact call_ofCalls_of_open h
  · have hrepeats : ¬ Repeats calls c := fun ⟨b, hb, hentry, _⟩ => h ⟨b, hb, hentry⟩
    rw [call_ofCalls_of_new h, if_neg hrepeats]

theorem after_ofCalls (calls : List GrantCall) (c : GrantCall) :
    (ofCalls calls).after c = ofCalls (calls ++ [c]) := by
  rw [after, call_ofCalls]
  by_cases h : Repeats calls c
  · rw [if_pos h, ofCalls_concat_of_repeats h]
    rfl
  · rw [if_neg h]

/-! ### All calls -/

/-- **Calls lead to the role map that is written down for them.** -/
theorem run_eq_ofCalls (calls : List GrantCall) : run calls = ofCalls calls := by
  induction calls using List.reverseRecOn with
  | nil => rfl
  | append_singleton calls c ih => rw [run_concat, ih, after_ofCalls]

theorem apart_run (calls : List GrantCall) : (run calls).Apart := by
  induction calls using List.reverseRecOn with
  | nil => exact apart_empty
  | append_singleton calls c ih =>
    rw [run_concat, after]
    split
    · next m' hcall => exact ih.grant hcall
    · exact ih

/-- **A role is permitted what it was granted**, by itself or through the operation `all`. -/
theorem permits_ofCalls {op : Operation} {target : Option String} {role : String} :
    (ofCalls calls).permits op target role = true ↔
      ∃ c ∈ calls, (c.op = .all ∨ c.op = op ∧ c.target.map Ident.fold = target.map Ident.fold) ∧
        Ident.fold c.role = Ident.fold role := by
  have hnames (g : Grant) :
      g.names role = true ↔ ∃ name ∈ g.roles, Ident.fold name = Ident.fold role := by
    simp only [Grant.names, List.any_eq_true, Ident.same_iff]
  have hcovers (b : GrantCall) : ((entryOf calls b).covers op target ||
      (entryOf calls b).op == .all) = true ↔
        b.op = .all ∨ b.op = op ∧ b.target.map Ident.fold = target.map Ident.fold := by
    rw [Bool.or_eq_true, Grant.covers_iff, entry_entryOf, GrantCall.entry, Prod.mk.injEq,
      beq_iff_eq, or_comm]
    rfl
  simp only [permits, ofCalls, List.any_map, List.any_eq_true, Function.comp_apply,
    Bool.and_eq_true, hnames, hcovers, exists_mem_roles_iff]
  constructor
  · rintro ⟨b, -, hop, c, hc, hentry, hrole⟩
    obtain ⟨hopb, htarget⟩ := Prod.mk.inj hentry
    exact ⟨c, hc, by rwa [hopb, htarget], hrole⟩
  · rintro ⟨c, hc, hop, hrole⟩
    obtain ⟨b, hb, hentry⟩ := (exists_mem_firsts_iff GrantCall.entry).2 ⟨c, hc, rfl⟩
    obtain ⟨hopb, htarget⟩ := Prod.mk.inj hentry
    exact ⟨b, hb, by rwa [hopb, htarget], c, hc, hentry.symm, hrole⟩

/-- Every entry is for what some call was for. -/
theorem exists_entry_iff {entry : Operation × Option String} :
    (∃ g ∈ (ofCalls calls).grants, g.entry = entry) ↔ ∃ c ∈ calls, c.entry = entry := by
  rw [← exists_mem_firsts_iff GrantCall.entry, ofCalls]
  constructor
  · rintro ⟨g, hg, rfl⟩
    obtain ⟨c, hc, rfl⟩ := List.mem_map.1 hg
    exact ⟨c, hc, rfl⟩
  · rintro ⟨c, hc, rfl⟩
    exact ⟨entryOf calls c, List.mem_map_of_mem hc, rfl⟩

/-- **A role map is the record of the calls for its grants.**  A call behind others fails, as a
repetition, exactly if one of the others was for the same operation and target and for the same
role, and else adds to what they lead to.  The entries are those of the first call for each
operation and target, in order, with the roles of all calls for it, each as it was first spelled; no
two are for the same.  And a role is permitted exactly what some call was for that named it, or
everything if a call for all operations did. -/
theorem grants_recorded (calls : List GrantCall) :
    (∀ c, (run calls).call c =
      if Repeats calls c then fail (.duplicateName c.role .grant)
      else .ok (run (calls ++ [c]))) ∧
    run calls = ofCalls calls ∧ (run calls).Apart ∧
    (∀ entry, (∃ g ∈ (run calls).grants, g.entry = entry) ↔ ∃ c ∈ calls, c.entry = entry) ∧
    ∀ op target role, (run calls).permits op target role = true ↔
      ∃ c ∈ calls, (c.op = .all ∨ c.op = op ∧ c.target.map Ident.fold = target.map Ident.fold) ∧
        Ident.fold c.role = Ident.fold role := by
  have hrun := run_eq_ofCalls calls
  refine ⟨fun c => ?_, hrun, apart_run calls, fun entry => ?_, fun op target role => ?_⟩
  · rw [hrun, run_eq_ofCalls]
    exact call_ofCalls calls c
  · rw [hrun]
    exact exists_entry_iff
  · rw [hrun]
    exact permits_ofCalls

example :
    run [⟨.search, some "byEmail", "user"⟩, ⟨.insert, none, "user"⟩,
      ⟨.search, some "BYEMAIL", "admin"⟩, ⟨.search, some "byemail", "User"⟩] =
    ⟨[{ op := .search, target := some "byEmail", roles := ["user", "admin"] },
      { op := .insert, target := none, roles := ["user"] }]⟩ := by
  decide +kernel

end Rolemap

end DataModel
