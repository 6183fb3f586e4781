import DataModel.Linking.Fields
import DataModel.Proofs.Outcome

/-!
# Computations that mirror one another

Two computations that may fail *mirror* each other (`Mirrors`) if they both succeed and the second
returns the image of what the first returns, or if they both fail with alike errors.  Within a pass
errors are alike if their causes are of one variant, whatever the texts in them (`Error.Alike`); in
a link they also have to come from the same pass (`Error.AlikeInPass`).

There is one rule for each way to build a computation: one step after the other (`Mirrors.bind`), a
check (`Mirrors.guard`), something that may be missing (`Mirrors.orFail`), a walk through a list
(`Mirrors.mapM`, `Mirrors.forM`), and a pass (`Mirrors.inPass`).
-/

namespace DataModel

/-- The variant of a cause: which of the constructors it was built by, whatever they hold. -/
def Cause.variant (c : Cause) : Nat := c.ctorIdx

/-- The causes of two errors are of one variant. -/
def Error.Alike (e e' : Error) : Prop := e.cause.variant = e'.cause.variant

/-- The causes of two errors are of one variant, and one pass raised both. -/
def Error.AlikeInPass (e e' : Error) : Prop :=
  e.Alike e' ∧ ∃ p, e.context.bind Context.pass = some p ∧ e'.context.bind Context.pass = some p

/-- The second computation returns the image of what the first returns, or both fail alike. -/
inductive Mirrors {α β : Type} (alike : Error → Error → Prop) (k : α → β) :
    Except Error α → Except Error β → Prop
  | ok (a : α) : Mirrors alike k (.ok a) (.ok (k a))
  | error {e e' : Error} (h : alike e e') : Mirrors alike k (.error e) (.error e')

/-- The two computations return the same, or fail alike. -/
abbrev Agree {α : Type} (x y : Except Error α) : Prop := Mirrors Error.Alike (fun a => a) x y

namespace Mirrors

variable {α β γ δ : Type} {alike : Error → Error → Prop} {k : α → β} {j : γ → δ}
  {x : Except Error α} {y : Except Error β}

theorem refl (x : Except Error α) : Agree x x := by
  cases x with
  | ok a => exact ok a
  | error e => exact error rfl

theorem pure {a : α} {b : β} (h : b = k a) : Mirrors alike k (.ok a) (.ok b) := by
  subst h
  exact ok a

theorem ok_or_error (h : Mirrors alike k x y) :
    (∃ a, x = .ok a ∧ y = .ok (k a)) ∨ ∃ e e', x = .error e ∧ y = .error e' ∧ alike e e' := by
  cases h with
  | ok a => exact .inl ⟨a, rfl, rfl⟩
  | error h => exact .inr ⟨_, _, rfl, rfl, h⟩

theorem eq_ok {a : α} (h : Mirrors alike k x y) (hx : x = .ok a) : y = .ok (k a) := by
  subst hx
  cases h
  rfl

/-- One step after the other. -/
theorem bind (h : Mirrors alike k x y) {f : α → Except Error γ} {f' : β → Except Error δ}
    (hf : ∀ a, Mirrors alike j (f a) (f' (k a))) : Mirrors alike j (x >>= f) (y >>= f') := by
  cases h with
  | ok a => exact hf a
  | error h => exact error h

/-- One step after the other, where the second is about what the first can return only. -/
theorem bind_of_ok (h : Mirrors alike k x y) {f : α → Except Error γ} {f' : β → Except Error δ}
    (hf : ∀ a, x = .ok a → Mirrors alike j (f a) (f' (k a))) :
    Mirrors alike j (x >>= f) (y >>= f') := by
  cases h with
  | ok a => exact hf a rfl
  | error h => exact error h

theorem map (h : Mirrors alike k x y) {f : α → γ} {f' : β → δ} (hf : ∀ a, f' (k a) = j (f a)) :
    Mirrors alike j (f <$> x) (f' <$> y) := by
  cases h with
  | ok a => exact pure (hf a)
  | error h => exact error h

/-! ### Failures -/

theorem fail {c c' : Cause} (h : c.variant = c'.variant) :
    Mirrors Error.Alike k (DataModel.fail c) (DataModel.fail c') :=
  error h

theorem failFlaw {f f' : Flaw} :
    Mirrors Error.Alike k (DataModel.failFlaw f) (DataModel.failFlaw f') :=
  error rfl

/-- A check of alike conditions. -/
theorem guard {p p' : Prop} [Decidable p] [Decidable p'] (hp : p ↔ p') {c c' : Cause}
    (hc : c.variant = c'.variant) (h : Mirrors Error.Alike k x y) :
    Mirrors Error.Alike k
      (if p then (do let _ ← (DataModel.fail c : Except Error PUnit); x) else x)
      (if p' then (do let _ ← (DataModel.fail c' : Except Error PUnit); y) else y) := by
  by_cases hp' : p'
  · rw [if_pos (hp.2 hp'), if_pos hp']
    exact error hc
  · rw [if_neg fun h => hp' (hp.1 h), if_neg hp']
    exact h

theorem guardFlaw {p p' : Prop} [Decidable p] [Decidable p'] (hp : p ↔ p') {f f' : Flaw}
    (h : Mirrors Error.Alike k x y) :
    Mirrors Error.Alike k
      (if p then (do let _ ← (DataModel.failFlaw f : Except Error PUnit); x) else x)
      (if p' then (do let _ ← (DataModel.failFlaw f' : Except Error PUnit); y) else y) :=
  guard hp rfl h

/-- Something that may be missing. -/
theorem orFail {o : Option α} {o' : Option β} (ho : o' = o.map k) {c c' : Cause}
    (hc : c.variant = c'.variant) :
    Mirrors Error.Alike k (DataModel.orFail o c) (DataModel.orFail o' c') := by
  subst ho
  cases o with
  | none => exact error hc
  | some a => exact ok a

theorem orFail_self {o o' : Option α} (ho : o' = o) {c c' : Cause}
    (hc : c.variant = c'.variant) :
    Agree (DataModel.orFail o c) (DataModel.orFail o' c') :=
  orFail (by rw [ho, Option.map_id']) hc

/-! ### Places -/

theorem placed {c c' : Context} (h : Mirrors Error.Alike k x y) :
    Mirrors Error.Alike k (DataModel.placed c x) (DataModel.placed c' y) := by
  cases h with
  | ok a => exact ok a
  | error h => exact error h

/-- The errors of a pass come from the pass. -/
theorem inPass (p : LinkPass) (h : Mirrors Error.Alike k x y) :
    Mirrors Error.AlikeInPass k (DataModel.inPass p x) (DataModel.inPass p y) := by
  cases h with
  | ok a => exact ok a
  | error h => exact error ⟨h, p, rfl, rfl⟩

/-! ### Lists -/

variable {α' γ' : Type} {g : α → α'} {i : γ → γ'} {f : α → Except Error γ}
  {f' : α' → Except Error γ'} {as : List α}

theorem mapM (hf : ∀ a ∈ as, Mirrors alike i (f a) (f' (g a))) :
    Mirrors alike (List.map i) (as.mapM f) ((as.map g).mapM f') := by
  induction as with
  | nil => exact pure rfl
  | cons a as ih =>
    rw [List.forall_mem_cons] at hf
    rw [List.map_cons, List.mapM_cons, List.mapM_cons]
    exact hf.1.bind fun b => (ih hf.2).bind fun bs => pure rfl

theorem mapM_self {f' : α' → Except Error γ} (hf : ∀ a ∈ as, Agree (f a) (f' (g a))) :
    Agree (as.mapM f) ((as.map g).mapM f') := by
  have h := mapM hf
  rwa [List.map_id_fun'] at h

theorem optionMapM {o : Option α} (hf : ∀ a ∈ o, Mirrors alike i (f a) (f' (g a))) :
    Mirrors alike (Option.map i) (o.mapM f) ((o.map g).mapM f') := by
  cases o with
  | none => exact pure rfl
  | some a => exact (hf a rfl).map fun _ => rfl

theorem forM {f : α → Except Error Unit} {f' : α' → Except Error Unit}
    (hf : ∀ a ∈ as, Agree (f a) (f' (g a))) : Agree (as.forM f) ((as.map g).forM f') := by
  rw [List.forM_eq_forM, List.forM_eq_forM]
  induction as with
  | nil => exact pure rfl
  | cons a as ih =>
    rw [List.forall_mem_cons] at hf
    rw [List.map_cons, List.forM_cons, List.forM_cons]
    exact hf.1.bind fun _ => ih hf.2

theorem forM_zipIdx {f : α × Nat → Except Error Unit} {f' : α' × Nat → Except Error Unit}
    (hf : ∀ a n, Agree (f (a, n)) (f' (g a, n))) :
    Agree (as.zipIdx.forM f) ((as.map g).zipIdx.forM f') := by
  rw [List.zipIdx_map]
  exact forM fun (a, n) _ => hf a n

end Mirrors

end DataModel
