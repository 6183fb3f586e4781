import DataModel.Error

/-!
# Watched computations

A watched computation looks before it steps.  It reads and writes a list at a position of the list
only, shifts a word by less than its width, adds what the word can hold, and goes round a loop a
bounded number of times; else it stops with a `Fault`.

A computation is safe when its watched form has no fault: the watched form then is the computation
itself, among the watched ones by `Watched.of`.  The lemmas below carry that form through sequences
(`Watched.of_bind`) and lists (`Watched.mapM_eq`, `Watched.forM_eq`).
-/

namespace DataModel

/-- What a computation runs into that steps where it may not. -/
inductive Fault
  /-- A position outside of a list. -/
  | index
  /-- A shift by the width of a word, or by more. -/
  | shift
  /-- A sum that a word does not hold. -/
  | overflow
  /-- A vertex that has to be on a path and is not. -/
  | offPath
  /-- A loop that does not end within its bound. -/
  | endless
  deriving DecidableEq

/-- A computation that stops with a fault, fails with an error or returns a result. -/
abbrev Watched (ε α : Type) := ExceptT ε (Except Fault) α

namespace Watched

variable {ε ε' α β : Type}

/-- A computation that has no fault. -/
def of (r : Except ε α) : Watched ε α := ExceptT.mk (.ok r)

/-- Stops with a fault. -/
def stop (fault : Fault) : Watched ε α := ExceptT.mk (.error fault)

/-- Goes on from an error as from a result; a fault is passed on. -/
def andThen (w : Watched ε α) (onError : ε → Watched ε' β) (onResult : α → Watched ε' β) :
    Watched ε' β :=
  match w.run with
  | .error fault => stop fault
  | .ok (.error e) => onError e
  | .ok (.ok a) => onResult a

/-- Places every error of a watched computation. -/
def placed (c : Context) (w : Watched Error α) : Watched Error α :=
  w.andThen (fun e => of (.error (e.withContext c))) pure

/-- Runs a watched computation as a pass. -/
def inPass (p : LinkPass) (w : Watched Error α) : Watched Error α :=
  w.andThen (fun e => of (.error (e.inPass p))) pure

/-- The member of an array at a position of it. -/
def read (as : Array α) (i : Nat) : Watched ε α :=
  match as[i]? with
  | some a => pure a
  | none => stop .index

/-- The array with another member at a position of it. -/
def write (as : Array α) (i : Nat) (a : α) : Watched ε (Array α) :=
  if i < as.size then pure (as.setIfInBounds i a) else stop .index

/-! ### Steps without a fault -/

theorem read_eq {as : Array α} {i : Nat} (hi : i < as.size) (a : α) :
    (read as i : Watched ε α) = pure (as.getD i a) := by
  rw [read, Array.getD_eq_getD_getElem?, Array.getElem?_eq_getElem hi]
  rfl

theorem write_eq {as : Array α} {i : Nat} (hi : i < as.size) (a : α) :
    (write as i a : Watched ε (Array α)) = pure (as.setIfInBounds i a) := if_pos hi

/-! ### Sequences and lists -/

@[simp]
theorem of_pure {a : α} : (of (pure a) : Watched ε α) = pure a := rfl

@[simp]
theorem of_ok {a : α} : (of (.ok a) : Watched ε α) = pure a := rfl

@[simp]
theorem of_bind {r : Except ε α} {f : α → Except ε β} :
    of (r >>= f) = of r >>= fun a => of (f a) := by
  cases r with
  | error e => rfl
  | ok a => rfl

theorem map_of {r : Except ε α} {f : α → β} : f <$> of r = of (f <$> r) := by
  cases r with
  | error e => rfl
  | ok a => rfl

theorem placed_of {c : Context} {r : Except Error α} :
    placed c (of r) = of (DataModel.placed c r) := by
  cases r with
  | error e => rfl
  | ok a => rfl

theorem inPass_of {p : LinkPass} {r : Except Error α} :
    inPass p (of r) = of (DataModel.inPass p r) := by
  cases r with
  | error e => rfl
  | ok a => rfl

/-- A computation over a list has no fault if its steps have none. -/
theorem mapM_eq {f : α → Watched ε β} {g : α → Except ε β} {as : List α}
    (h : ∀ a ∈ as, f a = of (g a)) : as.mapM f = of (as.mapM g) := by
  induction as with
  | nil => rfl
  | cons a as ih =>
    rw [List.forall_mem_cons] at h
    rw [List.mapM_cons, List.mapM_cons, h.1, ih h.2]
    simp only [of_bind, of_pure]

/-- A check over a list has no fault if none of its members runs into one. -/
theorem forM_eq {f : α → Watched ε Unit} {g : α → Except ε Unit} {as : List α}
    (h : ∀ a ∈ as, f a = of (g a)) : as.forM f = of (as.forM g) := by
  rw [List.forM_eq_forM, List.forM_eq_forM]
  induction as with
  | nil => rfl
  | cons a as ih =>
    rw [List.forall_mem_cons] at h
    rw [List.forM_cons, List.forM_cons, h.1, ih h.2]
    simp only [of_bind]

end Watched

end DataModel
