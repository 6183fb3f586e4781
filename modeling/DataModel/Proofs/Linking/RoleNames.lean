import DataModel.Linking.Grants
import DataModel.Proofs.Outcome
import Mathlib.Data.List.Nodup
import Mathlib.Tactic.SplitIfs

/-!
# Names of roles

In an admitted role tree no two roles share a name, case aside (`RoleTree.nodup_of_check`), so a
name stands for at most one role: looking it up finds the role that is called so, wherever it stands
in the list (`RoleTree.find?_eq_some_iff`).  What a look-up reads is the names alone
(`RoleTree.find?_congr`); parents and children are not among it.
-/

namespace DataModel

namespace RoleTree

variable {t : RoleTree} {name : String} {id : Handle .role}

/-- The role of a handle has the name, case aside. -/
def Calls (t : RoleTree) (id : Handle .role) (name : String) : Prop :=
  ∃ r, t.get? id = some r ∧ Ident.fold r.name = Ident.fold name

/-! ### Admitted names -/

/-- Admitted names do not repeat one another, nor what was seen before. -/
theorem nodup_of_checkNames {seen : List String} {roles : List Role} {u : Unit}
    (h : checkNames seen roles = .ok u) :
    (roles.map fun r => Ident.fold r.name).Nodup ∧ ∀ r ∈ roles, Ident.fold r.name ∉ seen := by
  induction roles generalizing seen with
  | nil => exact ⟨List.nodup_nil, nofun⟩
  | cons r roles ih =>
    rw [checkNames] at h
    split_ifs at h with hreserved hseen
    · exact absurd (placed_eq_ok.1 h) fail_ne_ok
    · exact absurd (placed_eq_ok.1 h) fail_ne_ok
    · have hnew : Ident.fold r.name ∉ seen := fun hmem => hseen (List.elem_iff.2 hmem)
      obtain ⟨hnodup, hlater⟩ := ih h
      constructor
      · rw [List.map_cons, List.nodup_cons]
        refine ⟨fun hold => ?_, hnodup⟩
        obtain ⟨m, hm, hsame⟩ := List.mem_map.1 hold
        exact hlater m hm (hsame ▸ List.mem_cons_self)
      · rw [List.forall_mem_cons]
        exact ⟨hnew, fun m hm hold => hlater m hm (List.mem_cons_of_mem _ hold)⟩

/-- The admitted names of declared roles are not reserved. -/
theorem unreserved_of_checkNames {seen : List String} {roles : List Role} {u : Unit}
    (h : checkNames seen roles = .ok u) :
    ∀ r ∈ roles, r.implicit = false → Ident.isReserved r.name = false := by
  induction roles generalizing seen with
  | nil => exact fun r hr => nomatch hr
  | cons r roles ih =>
    rw [checkNames] at h
    split_ifs at h with hreserved hseen
    · exact absurd (placed_eq_ok.1 h) fail_ne_ok
    · exact absurd (placed_eq_ok.1 h) fail_ne_ok
    · rw [List.forall_mem_cons]
      refine ⟨fun himplicit => ?_, ih h⟩
      simpa [himplicit] using hreserved

/-- Names that repeat neither one another nor what was seen before are admitted, if those of the
declared roles are not reserved. -/
theorem checkNames_eq_ok {seen : List String} {roles : List Role}
    (hnodup : (roles.map fun r => Ident.fold r.name).Nodup)
    (hseen : ∀ r ∈ roles, Ident.fold r.name ∉ seen)
    (hfree : ∀ r ∈ roles, r.implicit = false → Ident.isReserved r.name = false) :
    checkNames seen roles = .ok () := by
  induction roles generalizing seen with
  | nil => rfl
  | cons r roles ih =>
    rw [List.map_cons, List.nodup_cons] at hnodup
    rw [List.forall_mem_cons] at hseen hfree
    have hname : ¬(!r.implicit && Ident.isReserved r.name) = true := by
      rw [Bool.and_eq_true, Bool.not_eq_true', not_and, Bool.not_eq_true]
      exact hfree.1
    have hnew : ¬seen.contains (Ident.fold r.name) = true := fun h => hseen.1 (List.elem_iff.1 h)
    rw [checkNames, if_neg hname, if_neg hnew]
    refine ih hnodup.2 (fun m hm hold => ?_) hfree.2
    rcases List.mem_cons.1 hold with hsame | hold
    · exact hnodup.1 (hsame ▸ List.mem_map_of_mem hm)
    · exact hseen.2 m hm hold

/-- **No two roles of an admitted tree share a name.** -/
theorem nodup_of_check {u : Unit} (h : t.check = .ok u) :
    (t.roles.map fun r => Ident.fold r.name).Nodup := by
  simp only [check, bind_eq_ok] at h
  obtain ⟨_, _, _, _, hnames⟩ := h
  exact (nodup_of_checkNames hnames).1

/-! ### Looking up a name -/

/-- What is found has the name. -/
theorem calls_of_find? (h : t.find? name = some id) : t.Calls id name := by
  rw [find?, Option.bind_eq_some_iff] at h
  obtain ⟨i, hi, hid⟩ := h
  obtain ⟨hlt, hsame, _⟩ := List.findIdx?_eq_some_iff_getElem.1 hi
  obtain rfl := Handle.ofIndex?_eq_some_iff.1 hid
  exact ⟨t.roles[id.index], List.getElem?_eq_getElem hlt, Ident.same_iff.1 hsame⟩

/-- Where no two roles share a name, a name is that of one role at most. -/
theorem Calls.unique (hn : (t.roles.map fun r => Ident.fold r.name).Nodup) {id' : Handle .role}
    (h : t.Calls id name) (h' : t.Calls id' name) : id = id' := by
  obtain ⟨r, hr, hname⟩ := h
  obtain ⟨r', hr', hname'⟩ := h'
  have hlt : id.index < (t.roles.map fun r => Ident.fold r.name).length := by
    rw [List.length_map]
    exact (List.getElem?_eq_some_iff.1 hr).1
  apply Handle.ext
  apply (List.getElem?_inj hlt hn).1
  have hat : t.roles[id.index]? = some r := hr
  have hat' : t.roles[id'.index]? = some r' := hr'
  rw [List.getElem?_map, List.getElem?_map, hat, hat', Option.map_some, Option.map_some, hname,
    hname']

/-- **A name stands for the role that it is the name of.** -/
theorem find?_eq_some_iff (hn : (t.roles.map fun r => Ident.fold r.name).Nodup) :
    t.find? name = some id ↔ t.Calls id name := by
  refine ⟨calls_of_find?, fun h => ?_⟩
  obtain ⟨r, hr, hname⟩ := h
  have hat : t.roles[id.index]? = some r := hr
  -- Some role has the name, so the look-up ends no later than there, at a position with a handle.
  cases hfind : t.roles.findIdx? fun r => Ident.same r.name name with
  | none =>
    rw [List.findIdx?_eq_none_iff] at hfind
    have hnot := hfind r (List.mem_of_getElem? hat)
    rw [Ident.same_iff.2 hname] at hnot
    cases hnot
  | some i =>
    obtain ⟨hlt, hsame, hfirst⟩ := List.findIdx?_eq_some_iff_getElem.1 hfind
    have hle : i ≤ id.index := by
      by_contra hgt
      have hlt' : id.index < i := by omega
      have hbefore := hfirst id.index hlt'
      obtain ⟨_, heq⟩ := List.getElem?_eq_some_iff.1 hat
      rw [heq] at hbefore
      exact hbefore (Ident.same_iff.2 hname)
    have hbound : i < Handle.bound := Nat.lt_of_le_of_lt hle id.index_lt
    have hfound : t.find? name = some ⟨i, hbound⟩ := by
      rw [find?, hfind, Option.bind_some]
      exact Handle.ofIndex?_eq_some_iff.2 rfl
    rw [hfound, Calls.unique hn (calls_of_find? hfound) ⟨r, hr, hname⟩]

/-- **Only the names of the roles matter to a look-up.** -/
theorem find?_congr {t' : RoleTree} (h : t'.roles.map Role.name = t.roles.map Role.name) :
    t'.find? = t.find? := by
  have hfind (roles : List Role) (name : String) :
      (roles.findIdx? fun r => Ident.same r.name name) =
        (roles.map Role.name).findIdx? fun n => Ident.same n name := by
    rw [List.findIdx?_map]
    rfl
  funext name
  rw [find?, find?, hfind, hfind, h]

/-! ### Handles of roles -/

/-- The handles are in the order of their positions. -/
theorem pairwise_handles (n : Nat) : (handles n).Pairwise (·.index < ·.index) := by
  apply List.Pairwise.filterMap _ _ List.pairwise_lt_range
  intro i j hij id hid id' hid'
  rw [Handle.ofIndex?_eq_some_iff] at hid hid'
  rwa [hid, hid']

/-- Every role has a handle, if its position has one. -/
theorem mem_handles_iff : id ∈ handles t.roles.length ↔ ∃ r, t.get? id = some r := by
  rw [handles, List.mem_filterMap]
  constructor
  · rintro ⟨i, hi, hid⟩
    obtain rfl := Handle.ofIndex?_eq_some_iff.1 hid
    exact ⟨_, List.getElem?_eq_getElem (List.mem_range.1 hi)⟩
  · rintro ⟨r, hr⟩
    refine ⟨id.index, List.mem_range.2 ?_, Handle.ofIndex?_index id⟩
    exact (List.getElem?_eq_some_iff.1 hr).1

end RoleTree

end DataModel
