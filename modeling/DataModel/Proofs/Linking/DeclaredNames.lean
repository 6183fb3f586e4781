import DataModel.Linking.Recheck
import DataModel.Proofs.Outcome
import Mathlib.Data.List.Induction
import Mathlib.Data.List.Nodup

/-!
# Declared names

A name is checked in two ways: by `Scope.checkNew` when it is declared, against the names in use,
and by `Scope.checkDeclared` when a document is linked, together with all names of its scope.  The
second check is to make up for the first, which a document that was not declared step by step did
not pass: its names should be *replayed* (`Scope.Replays`), each admitted behind those before it.

`Scope.replays_iff_checkDeclared` says how far it does.  Both checks refuse reserved names and
repeated ones, and only the first refuses the empty name.

`Document.scopes` lists the scopes of a document, and `Document.checkDeclared_scopes` that each of
them is checked.
-/

namespace DataModel

/-! ### One scope -/

namespace Scope

variable {scope : Scope} {name : String} {names used seen : List String}

/-- Each of the names would be admitted as a new one behind those before it. -/
def Replays (scope : Scope) (names : List String) : Prop :=
  ∀ before name after, names = before ++ name :: after → scope.checkNew name before = .ok ()

theorem checkUnused_eq_ok_iff :
    scope.checkUnused name used = .ok () ↔ ∀ u ∈ used, Ident.fold u ≠ Ident.fold name := by
  rw [checkUnused]
  split_ifs with h
  · rw [List.any_eq_true] at h
    obtain ⟨u, hu, hsame⟩ := h
    simp only [fail_ne_ok, false_iff, not_forall]
    exact ⟨u, hu, not_not.2 (Ident.same_iff.1 hsame)⟩
  · simp only [true_iff]
    intro u hu heq
    exact h (List.any_eq_true.2 ⟨u, hu, Ident.same_iff.2 heq⟩)

/-- **A name is new** if it is neither empty nor reserved nor in use. -/
theorem checkNew_eq_ok_iff :
    scope.checkNew name used = .ok () ↔
      name ≠ "" ∧ Ident.isReserved name = false ∧ ∀ u ∈ used, Ident.fold u ≠ Ident.fold name := by
  rw [checkNew]
  split_ifs with hempty hreserved
  · simp [String.isEmpty_iff.1 hempty]
  · simp [hreserved]
  · rw [checkUnused_eq_ok_iff, Bool.not_eq_true] at *
    have hne : name ≠ "" := by
      rintro rfl
      cases hempty
    exact ⟨fun h => ⟨hne, hreserved, h⟩, fun h => h.2.2⟩

/-- **Names are admitted together** if none is reserved and no two are equal, case aside. -/
theorem checkDeclared_eq_ok_iff :
    scope.checkDeclared seen names = .ok () ↔
      (∀ name ∈ names, Ident.isReserved name = false) ∧ (names.map Ident.fold).Nodup ∧
        ∀ name ∈ names, Ident.fold name ∉ seen := by
  induction names generalizing seen with
  | nil => simp [checkDeclared]
  | cons name names ih =>
    rw [checkDeclared, List.map_cons, List.nodup_cons, List.forall_mem_cons, List.forall_mem_cons]
    split_ifs with hreserved hseen
    · simp [hreserved]
    · have hmem : Ident.fold name ∈ seen := List.elem_iff.1 hseen
      simp [hmem]
    · have hmem : Ident.fold name ∉ seen := fun hmem => hseen (List.elem_iff.2 hmem)
      rw [ih, ← Bool.not_eq_true]
      constructor
      · rintro ⟨hr, hn, hs⟩
        have hnew : Ident.fold name ∉ names.map Ident.fold := by
          intro hold
          obtain ⟨m, hm, hsame⟩ := List.mem_map.1 hold
          exact hs m hm (hsame ▸ List.mem_cons_self)
        exact ⟨⟨hreserved, hr⟩, ⟨hnew, hn⟩, hmem, fun m hm h => hs m hm (List.mem_cons_of_mem _ h)⟩
      · rintro ⟨⟨_, hr⟩, ⟨hnew, hn⟩, _, hs⟩
        refine ⟨hr, hn, fun m hm h => ?_⟩
        rcases List.mem_cons.1 h with hsame | hold
        · exact hnew (hsame ▸ List.mem_map_of_mem hm)
        · exact hs m hm hold

/-- Replaying one more name. -/
theorem replays_concat : scope.Replays (names ++ [name]) ↔
    scope.Replays names ∧ scope.checkNew name names = .ok () := by
  constructor
  · intro h
    refine ⟨fun before n after hsplit => h before n (after ++ [name]) ?_, h names name [] rfl⟩
    rw [hsplit, List.append_assoc, List.cons_append]
  · rintro ⟨h, hname⟩ before n after hsplit
    rcases List.eq_nil_or_concat after with rfl | ⟨init, last, rfl⟩
    · obtain ⟨rfl, heq⟩ := List.append_inj' hsplit rfl
      obtain rfl := List.singleton_inj.1 heq
      exact hname
    · refine h before n init ?_
      rw [List.concat_eq_append, ← List.cons_append, ← List.append_assoc] at hsplit
      exact (List.append_inj' hsplit rfl).1

/-- **Names replay** if none is empty or reserved and no two are equal, case aside. -/
theorem replays_iff : scope.Replays names ↔ "" ∉ names ∧
    (∀ name ∈ names, Ident.isReserved name = false) ∧ (names.map Ident.fold).Nodup := by
  induction names using List.reverseRecOn with
  | nil => simp [Replays]
  | append_singleton names name ih =>
    rw [replays_concat, ih, checkNew_eq_ok_iff, List.map_append, List.map_singleton,
      List.nodup_append_comm, List.singleton_append, List.nodup_cons, List.forall_mem_append,
      List.forall_mem_singleton, List.mem_append, List.mem_singleton, not_or, eq_comm (a := "")]
    constructor
    · rintro ⟨⟨hne, hfree, hnodup⟩, hne', hfree', hnew⟩
      refine ⟨⟨hne, hne'⟩, ⟨hfree, hfree'⟩, fun hold => ?_, hnodup⟩
      obtain ⟨u, hu, hsame⟩ := List.mem_map.1 hold
      exact hnew u hu hsame
    · rintro ⟨⟨hne, hne'⟩, ⟨hfree, hfree'⟩, hnew, hnodup⟩
      refine ⟨⟨hne, hfree, hnodup⟩, hne', hfree', fun u hu hsame => hnew ?_⟩
      exact hsame ▸ List.mem_map_of_mem hu

/-- **The names that are admitted together replay, unless one of them is empty.** -/
theorem replays_iff_checkDeclared :
    scope.Replays names ↔ "" ∉ names ∧ scope.checkDeclared [] names = .ok () := by
  rw [replays_iff, checkDeclared_eq_ok_iff]
  simp

end Scope

/-! ### The scopes of a document -/

/-- The scopes of an entity, each with its names in the order of their declaration. -/
def Entity.scopes (e : Entity) : List (Scope × List String) :=
  [(.field, e.fields.map Field.name), (.search, e.searches.filterMap Search.name),
    (.update, e.updates.filterMap Mutation.name), (.delete, e.deletes.filterMap Mutation.name)]

/-- The names of every scope of an entity are admitted. -/
theorem Entity.checkDeclared_scopes {e : Entity} (h : e.checkDeclared = .ok ()) :
    ∀ s ∈ e.scopes, s.1.checkDeclared [] s.2 = .ok () := by
  simp only [checkDeclared, bind_eq_ok] at h
  obtain ⟨_, hfields, _, hsearches, _, hupdates, _, hdeletes, _⟩ := h
  simp only [scopes, List.forall_mem_cons]
  exact ⟨hfields, hsearches, hupdates, hdeletes, List.forall_mem_nil _⟩

/-- The names of the items of a bit-field set are admitted. -/
theorem Bitfield.checkDeclared_items {b : Bitfield} (h : b.checkDeclared = .ok ()) :
    Scope.bitItem.checkDeclared [] (b.items.map BitItem.name) = .ok () := by
  rw [checkDeclared, bind_eq_ok] at h
  obtain ⟨_, hitems, _⟩ := h
  exact hitems

namespace Document

variable {d : Document}

/-- The scopes of a document, each with its names in the order of their declaration. -/
def scopes (d : Document) : List (Scope × List String) :=
  (.topLevel, d.topLevelNames) :: d.entities.flatMap Entity.scopes ++
    d.enums.map (fun e => (.enumItem, e.items.map EnumItem.name)) ++
    d.bitfields.map (fun b => (.bitItem, b.items.map BitItem.name))

/-- **The declarations are admitted one after the other.** -/
theorem checkDeclared_eq_ok_iff {u : Unit} :
    d.checkDeclared = .ok u ↔ Scope.topLevel.checkDeclared [] d.topLevelNames = .ok () ∧
      (∀ e ∈ d.entities, e.checkDeclared = .ok ()) ∧ (∀ e ∈ d.enums, e.checkDeclared = .ok ()) ∧
      ∀ b ∈ d.bitfields, b.checkDeclared = .ok () := by
  simp only [checkDeclared, bind_eq_ok, forM_eq_ok, placed_eq_ok, exists_and_left, exists_const]
  constructor
  · rintro ⟨_, h⟩
    exact h
  · intro h
    exact ⟨(), h⟩

/-- **The names of every scope are admitted.** -/
theorem checkDeclared_scopes {u : Unit} (h : d.checkDeclared = .ok u) :
    ∀ s ∈ d.scopes, s.1.checkDeclared [] s.2 = .ok () := by
  obtain ⟨htop, hentities, henums, hbitfields⟩ := checkDeclared_eq_ok_iff.1 h
  have hentity : ∀ s ∈ d.entities.flatMap Entity.scopes, s.1.checkDeclared [] s.2 = .ok () := by
    intro s hs
    obtain ⟨e, he, hs⟩ := List.mem_flatMap.1 hs
    exact Entity.checkDeclared_scopes (hentities e he) s hs
  intro s hs
  rw [scopes, List.mem_append, List.mem_append, List.mem_cons, List.mem_map, List.mem_map] at hs
  rcases hs with ((rfl | hs) | ⟨e, he, rfl⟩) | ⟨b, hb, rfl⟩
  · exact htop
  · exact hentity s hs
  · exact henums e he
  · exact Bitfield.checkDeclared_items (hbitfields b hb)

end Document

end DataModel
