import DataModel.Linking.Fields
import Mathlib.Data.List.Forall2
import Mathlib.Data.List.Perm.Basic

/-!
# Outcomes

Linking is written as computations that fail with an error.  This module says once what the success
of such a computation means, part by part: `bind_eq_ok`, `mapM_eq_ok` and `forM_eq_ok` take a
success apart, and `placed_eq_ok` and `inPass_eq_ok` say that the place of an error is all that the
two wrappers change.

The second half is for comparing two runs.  A computation over a list that was changed by a function
first is the computation over the list, changed afterwards (`mapM_map_of_commutes`), if each step
commutes with the change.
-/

namespace DataModel

variable {ε α β γ : Type}

/-! ### Successes -/

theorem bind_eq_ok {x : Except ε α} {f : α → Except ε β} {b : β} :
    x >>= f = .ok b ↔ ∃ a, x = .ok a ∧ f a = .ok b := by
  cases x with
  | error e => simp [bind, Except.bind]
  | ok a => simp [bind, Except.bind]

theorem map_eq_ok {x : Except ε α} {f : α → β} {b : β} :
    f <$> x = .ok b ↔ ∃ a, x = .ok a ∧ f a = b := by
  cases x with
  | error e => simp [Functor.map, Except.map]
  | ok a => simp [Functor.map, Except.map]

@[simp]
theorem pure_eq_ok {a b : α} : (pure a : Except ε α) = .ok b ↔ a = b := by
  simp [pure, Except.pure]

@[simp]
theorem fail_ne_ok {c : Cause} {a : α} : fail c ≠ .ok a := by
  simp [fail]

@[simp]
theorem failFlaw_ne_ok {f : Flaw} {a : α} : failFlaw f ≠ .ok a := fail_ne_ok

@[simp]
theorem orFail_eq_ok {o : Option α} {c : Cause} {a : α} : orFail o c = .ok a ↔ o = some a := by
  cases o with
  | none => simp [orFail]
  | some b => simp [orFail]

theorem ok_bind {a : α} {f : α → Except ε β} : (.ok a : Except ε α) >>= f = f a := rfl

theorem fail_bind {c : Cause} {f : α → Except Error β} : fail c >>= f = fail c := rfl

theorem orFail_some {a : α} {c : Cause} : orFail (some a) c = .ok a := rfl

theorem orFail_none {c : Cause} : orFail (none : Option α) c = fail c := rfl

/-- A check that fails on a condition passes exactly without it. -/
theorem guard_eq_ok {p : Prop} [Decidable p] {c : Cause} {x : Except Error α} {a : α} :
    (if p then (do let _ ← (fail c : Except Error PUnit); x) else x) = .ok a ↔ ¬p ∧ x = .ok a := by
  by_cases hp : p
  · simp [hp, bind_eq_ok]
  · simp [hp]

theorem guardFlaw_eq_ok {p : Prop} [Decidable p] {f : Flaw} {x : Except Error α} {a : α} :
    (if p then (do let _ ← (failFlaw f : Except Error PUnit); x) else x) = .ok a ↔
      ¬p ∧ x = .ok a :=
  guard_eq_ok

/-- The place of an error does not matter to a success. -/
@[simp]
theorem placed_eq_ok {c : Context} {r : Except Error α} {a : α} :
    placed c r = .ok a ↔ r = .ok a := by
  cases r with
  | error e => simp [placed, Except.mapError]
  | ok a => simp [placed, Except.mapError]

/-- The pass of an error does not matter to a success. -/
@[simp]
theorem inPass_eq_ok {p : LinkPass} {r : Except Error α} {a : α} :
    inPass p r = .ok a ↔ r = .ok a := by
  cases r with
  | error e => simp [inPass, Except.mapError]
  | ok a => simp [inPass, Except.mapError]

/-- A computation over a list succeeds with the list of the results of its steps. -/
theorem mapM_eq_ok {f : α → Except Error β} {as : List α} {bs : List β} :
    as.mapM f = .ok bs ↔ List.Forall₂ (fun a b => f a = .ok b) as bs := by
  induction as generalizing bs with
  | nil => simp [pure, Except.pure, eq_comm]
  | cons a as ih =>
    rw [List.mapM_cons, bind_eq_ok]
    constructor
    · rintro ⟨b, hb, h⟩
      obtain ⟨bs', hbs', h⟩ := bind_eq_ok.1 h
      rw [pure_eq_ok] at h
      rw [← h]
      exact .cons hb (ih.1 hbs')
    · intro h
      cases h with
      | cons hb hbs => exact ⟨_, hb, bind_eq_ok.2 ⟨_, ih.2 hbs, rfl⟩⟩

/-- Every result of a computation over a list is that of some member. -/
theorem exists_of_mem_mapM {f : α → Except Error β} {as : List α} {bs : List β}
    (h : as.mapM f = .ok bs) {b : β} (hb : b ∈ bs) : ∃ a ∈ as, f a = .ok b := by
  rw [mapM_eq_ok] at h
  induction h with
  | nil => exact absurd hb List.not_mem_nil
  | cons ha _ ih =>
    rcases List.mem_cons.1 hb with rfl | hb
    · exact ⟨_, List.mem_cons_self, ha⟩
    · obtain ⟨a, ha, hab⟩ := ih hb
      exact ⟨a, List.mem_cons_of_mem _ ha, hab⟩

/-- **What every step keeps, the list keeps.** -/
theorem map_eq_of_mapM {f : α → Except Error β} {g : α → γ} {h : β → γ} {as : List α} {bs : List β}
    (hf : ∀ a b, f a = .ok b → h b = g a) (hm : as.mapM f = .ok bs) : bs.map h = as.map g := by
  rw [mapM_eq_ok] at hm
  induction hm with
  | nil => rfl
  | cons ha _ ih => rw [List.map_cons, List.map_cons, hf _ _ ha, ih]

/-- What the step of an optional part keeps, the option keeps. -/
theorem option_map_eq_of_mapM {f : α → Except Error β} {g : α → γ} {h : β → γ} {a : Option α}
    {b : Option β} (hf : ∀ a b, f a = .ok b → h b = g a) (hm : a.mapM f = .ok b) :
    b.map h = a.map g := by
  cases a with
  | none =>
    rw [Option.mapM_none, pure_eq_ok] at hm
    rw [← hm]
    rfl
  | some a =>
    rw [Option.mapM_some, map_eq_ok] at hm
    obtain ⟨b', hb', rfl⟩ := hm
    rw [Option.map_some, Option.map_some, hf a b' hb']

/-- A computation over a list leaves the list as it is if its steps leave the members so. -/
theorem mapM_eq_self_iff {f : α → Except Error α} {as : List α} :
    as.mapM f = .ok as ↔ ∀ a ∈ as, f a = .ok a := by
  rw [mapM_eq_ok, List.forall₂_same]

theorem option_mapM_eq_self_iff {f : α → Except Error α} {o : Option α} :
    o.mapM f = .ok o ↔ ∀ a ∈ o, f a = .ok a := by
  cases o with
  | none => simp
  | some a => simp [map_eq_ok]

/-- What a computation puts into a part is the part that it is found in. -/
theorem eq_ok_of_put {r : Except Error β} {put : β → α} {a : α} (get : α → β)
    (hget : ∀ b, get (put b) = b) (h : (do return put (← r)) = .ok a) : r = .ok (get a) := by
  obtain ⟨b, hb, h⟩ := bind_eq_ok.1 h
  rw [← pure_eq_ok.1 h, hget, hb]

/-- A check over a list succeeds if it succeeds on every member. -/
theorem forM_eq_ok {f : α → Except Error Unit} {as : List α} {u : Unit} :
    as.forM f = .ok u ↔ ∀ a ∈ as, f a = .ok () := by
  rw [List.forM_eq_forM]
  induction as with
  | nil => simp [pure, Except.pure]
  | cons a as ih =>
    rw [List.forM_cons, bind_eq_ok, List.forall_mem_cons]
    constructor
    · rintro ⟨_, ha, has⟩
      exact ⟨ha, ih.1 has⟩
    · rintro ⟨ha, has⟩
      exact ⟨(), ha, ih.2 has⟩

/-- A check over a list fails as it fails on the first member that does not pass. -/
theorem forM_eq_error {f : α → Except Error Unit} {before after : List α} {a : α}
    {e : Error} (hbefore : ∀ b ∈ before, f b = .ok ()) (ha : f a = .error e) :
    (before ++ a :: after).forM f = .error e := by
  rw [List.forM_eq_forM]
  induction before with
  | nil =>
    rw [List.nil_append, List.forM_cons, ha]
    rfl
  | cons b before ih =>
    rw [List.forall_mem_cons] at hbefore
    rw [List.cons_append, List.forM_cons, hbefore.1, ok_bind]
    exact ih hbefore.2

/-- A result that passes a test is there. -/
theorem exists_ok_of_any {r : Except ε α} {p : α → Bool} (h : r.toOption.any p = true) :
    ∃ a, r = .ok a ∧ p a = true := by
  cases r with
  | error e => cases h
  | ok a => exact ⟨a, rfl, h⟩

/-! ### Two runs -/

/-- Changing what a computation returns does not change the place of its error. -/
theorem placed_map (c : Context) (g : α → β) (r : Except Error α) :
    placed c (g <$> r) = g <$> placed c r := by
  cases r with
  | error e => rfl
  | ok a => rfl

theorem inPass_map (p : LinkPass) (g : α → β) (r : Except Error α) :
    inPass p (g <$> r) = g <$> inPass p r := by
  cases r with
  | error e => rfl
  | ok a => rfl

theorem orFail_map (o : Option α) (c : Cause) (g : α → β) :
    orFail (o.map g) c = g <$> orFail o c := by
  cases o with
  | none => rfl
  | some a => rfl

/-- **A list that was changed first gives the results changed afterwards**, if every step does. -/
theorem mapM_map_of_commutes {α' : Type} {f : α → Except Error β} {f' : α' → Except Error γ}
    {g : α → α'} {h : β → γ} {as : List α} (hf : ∀ a ∈ as, f' (g a) = h <$> f a) :
    (as.map g).mapM f' = List.map h <$> as.mapM f := by
  induction as with
  | nil => simp
  | cons a as ih =>
    rw [List.forall_mem_cons] at hf
    rw [List.map_cons, List.mapM_cons, List.mapM_cons, hf.1, ih hf.2]
    -- Both changes are now made behind the steps.
    simp only [bind_map_left, map_bind, map_pure, List.map_cons]

/-- **A list that was changed first gives the changed results**, if every step does on success. -/
theorem mapM_map_of_ok {α' : Type} {f : α → Except Error β} {f' : α' → Except Error γ} {g : α → α'}
    {k : β → γ} {as : List α} {bs : List β}
    (hf : ∀ a ∈ as, ∀ b, f a = .ok b → f' (g a) = .ok (k b)) (hm : as.mapM f = .ok bs) :
    (as.map g).mapM f' = .ok (bs.map k) := by
  rw [mapM_eq_ok] at hm ⊢
  rw [List.forall₂_map_left_iff, List.forall₂_map_right_iff]
  have hmem := (List.forall₂_and_left (p := (· ∈ as)) _ _).2 ⟨fun a ha => ha, hm⟩
  exact hmem.imp fun a b h => hf a h.1 b h.2

/-- The order of a list does not matter either: its results are found in the same order. -/
theorem mapM_perm_of_ok {α' : Type} {f : α → Except Error β} {f' : α' → Except Error γ} {g : α → α'}
    {k : β → γ} {as : List α} {as' : List α'} {bs : List β} (hp : as'.Perm (as.map g))
    (hf : ∀ a ∈ as, ∀ b, f a = .ok b → f' (g a) = .ok (k b)) (hm : as.mapM f = .ok bs) :
    ∃ bs', as'.mapM f' = .ok bs' ∧ bs'.Perm (bs.map k) := by
  have hmap := mapM_eq_ok.1 (mapM_map_of_ok hf hm)
  obtain ⟨bs', hbs', hperm⟩ := List.perm_comp_forall₂ hp hmap
  exact ⟨bs', mapM_eq_ok.2 hbs', hperm⟩

/-- An optional part that was changed first gives the changed result. -/
theorem option_mapM_map_of_ok {α' : Type} {f : α → Except Error β} {f' : α' → Except Error γ}
    {g : α → α'} {k : β → γ} {a : Option α} {b : Option β}
    (hf : ∀ a b, f a = .ok b → f' (g a) = .ok (k b)) (hm : a.mapM f = .ok b) :
    (a.map g).mapM f' = .ok (b.map k) := by
  cases a with
  | none =>
    rw [Option.mapM_none, pure_eq_ok] at hm
    rw [← hm]
    rfl
  | some a =>
    rw [Option.mapM_some, map_eq_ok] at hm
    obtain ⟨b', hb', rfl⟩ := hm
    rw [Option.map_some, Option.mapM_some, hf a b' hb']
    rfl

/-- What every step adds to its member may be added to the members afterwards. -/
theorem mapM_map_eq_zipWith {f : α → Except Error β} {g : α → β → γ} {as : List α} :
    (as.mapM fun a => g a <$> f a) = List.zipWith g as <$> as.mapM f := by
  induction as with
  | nil => simp
  | cons a as ih =>
    rw [List.mapM_cons, List.mapM_cons, ih]
    simp only [bind_map_left, map_bind, map_pure, List.zipWith_cons_cons]

/-- A change that no step sees changes nothing. -/
theorem mapM_map_of_eq {α' : Type} {f : α → Except Error β} {f' : α' → Except Error β} {g : α → α'}
    {as : List α} (hf : ∀ a ∈ as, f' (g a) = f a) : (as.map g).mapM f' = as.mapM f := by
  have hid : ∀ a ∈ as, f' (g a) = id <$> f a := fun a ha => by rw [hf a ha, id_map]
  rw [mapM_map_of_commutes hid, List.map_id_fun, id_map]

/-- A change that the computation of an optional part does not see changes nothing. -/
theorem option_mapM_map_of_eq {α' : Type} {f : α → Except Error β} {f' : α' → Except Error β}
    {g : α → α'} {a : Option α} (hf : ∀ a, f' (g a) = f a) : (a.map g).mapM f' = a.mapM f := by
  cases a with
  | none => rfl
  | some a => rw [Option.map_some, Option.mapM_some, Option.mapM_some, hf]

/-- A change that no check sees changes nothing. -/
theorem forM_map_of_eq {α' : Type} {f : α → Except Error Unit} {f' : α' → Except Error Unit}
    {g : α → α'} {as : List α} (hf : ∀ a ∈ as, f' (g a) = f a) :
    (as.map g).forM f' = as.forM f := by
  rw [List.forM_eq_forM, List.forM_eq_forM]
  induction as with
  | nil => rfl
  | cons a as ih =>
    rw [List.forall_mem_cons] at hf
    rw [List.map_cons, List.forM_cons, List.forM_cons, hf.1, ih hf.2]

/-- A change that no check of a member at its place sees changes nothing. -/
theorem forM_zipIdx_map_of_eq {α' : Type} {f : α × Nat → Except Error Unit}
    {f' : α' × Nat → Except Error Unit} {g : α → α'} {as : List α}
    (hf : ∀ a i, f' (g a, i) = f (a, i)) : (as.map g).zipIdx.forM f' = as.zipIdx.forM f := by
  rw [List.zipIdx_map]
  exact forM_map_of_eq fun (a, i) _ => hf a i

end DataModel
