import DataModel.Proofs.Outcome
import DataModel.Edit.Refusal

/-!
# Changes in place

A change in place writes to what it is given as it goes, and what it has written by the time it is
refused stays written.  It *keeps* what it is given (`InPlace.Keeps`) if a refusal finds nothing
written.  So it is with a change that reads until nothing can be refused any more and then writes:
`Reads.bind_keeps` puts a reading step in front, and `Writes.keeps` says that the writing at the end
is not refused.

The in-place form of an edit, which gives a new value or is refused, writes the new value at once
(`InPlace.atomic`).  Reading steps (`look_bind_atomic`), parts (`onPart_atomic`) and members of a
list (`onMember_atomic`) lead from such a form to another.
-/

namespace DataModel

/-- A change in place: its outcome, and what it leaves behind. -/
@[ext]
structure InPlace (σ α : Type) where
  run : σ → Except Refusal α × σ

/-- A part that is seen and written back. -/
structure Part (σ τ : Type) where
  see : σ → τ
  put : τ → σ → σ
  put_see (s : σ) : put (see s) s = s

namespace InPlace

variable {σ τ α β : Type}

/-- What follows a change, unless it is refused. -/
def andThen (x : InPlace σ α) (f : α → InPlace σ β) : InPlace σ β where
  run s :=
    match x.run s with
    | (.ok a, s) => (f a).run s
    | (.error r, s) => (.error r, s)

instance : Monad (InPlace σ) where
  pure a := ⟨fun s => (.ok a, s)⟩
  bind := andThen

/-! ### Steps -/

/-- Reads what a later step needs, or is refused. -/
def look (read : σ → Except Refusal α) : InPlace σ α := ⟨fun s => (read s, s)⟩

/-- Passes a check. -/
def check (test : σ → Except Error α) : InPlace σ α := look fun s => attempt (test s)

/-- Asks the memory for room for one more member of a list. -/
def reserve (granted : Bool) (what : String) : InPlace σ Unit :=
  check fun _ => if granted then .ok () else fail (.exhausted what)

/-- Writes. -/
def write (put : σ → σ) : InPlace σ Unit := ⟨fun s => (.ok (), put s)⟩

/-- Changes a part. -/
def onPart (part : Part σ τ) (x : InPlace τ α) : InPlace σ α where
  run s :=
    let (result, t) := x.run (part.see s)
    (result, part.put t s)

/-- Changes the member of a list at a place. -/
def onMember (i : Nat) (what : Missing) (x : InPlace τ α) : InPlace (List τ) α where
  run l :=
    match l[i]? with
    | none => (.error (.missing what), l)
    | some a =>
      let (result, a) := x.run a
      (result, l.set i a)

/-- Appends a member to a list. -/
def push (granted : Bool) (what : String) (a : τ) : InPlace (List τ) Unit := do
  reserve granted what
  write (· ++ [a])

/-- The change that writes the new value of an edit, if it gives one. -/
def atomic (edit : σ → Except Refusal σ) : InPlace σ Unit where
  run s :=
    match edit s with
    | .ok s => (.ok (), s)
    | .error r => (.error r, s)

/-! ### What is left behind -/

/-- The step writes nothing. -/
def Reads (x : InPlace σ α) : Prop := ∀ s, (x.run s).2 = s

/-- The change is not refused. -/
def Writes (x : InPlace σ α) : Prop := ∀ s, ∃ a, (x.run s).1 = .ok a

/-- **A refused change leaves what it was given as it was.** -/
def Keeps (x : InPlace σ α) : Prop := ∀ s r s', x.run s = (.error r, s') → s' = s

variable {x : InPlace σ α} {f : α → InPlace σ β}

theorem run_bind : (x >>= f).run = fun s =>
    match x.run s with
    | (.ok a, s) => (f a).run s
    | (.error r, s) => (.error r, s) := rfl

theorem run_bind_of_ok {s s' : σ} {a : α} (h : x.run s = (.ok a, s')) :
    (x >>= f).run s = (f a).run s' := by
  simp only [run_bind, h]

theorem run_bind_of_error {s s' : σ} {r : Refusal} (h : x.run s = (.error r, s')) :
    (x >>= f).run s = (.error r, s') := by
  simp only [run_bind, h]

theorem run_onMember_of_some {i : Nat} {what : Missing} {y : InPlace τ α} {l : List τ} {a : τ}
    (h : l[i]? = some a) :
    (onMember i what y).run l = ((y.run a).1, l.set i (y.run a).2) := by
  simp only [onMember, h]

theorem run_onMember_of_none {i : Nat} {what : Missing} {y : InPlace τ α} {l : List τ}
    (h : l[i]? = none) : (onMember i what y).run l = (.error (.missing what), l) := by
  simp only [onMember, h]

theorem run_atomic_of_ok {edit : σ → Except Refusal σ} {s s' : σ} (h : edit s = .ok s') :
    (atomic edit).run s = (.ok (), s') := by
  simp only [atomic, h]

theorem run_atomic_of_error {edit : σ → Except Refusal σ} {s : σ} {r : Refusal}
    (h : edit s = .error r) : (atomic edit).run s = (.error r, s) := by
  simp only [atomic, h]

/-- What is kept in a refused run is all that the run leaves behind. -/
theorem run_eq_of_error {s : σ} {r : Refusal}
    (hkept : ∀ r s', x.run s = (.error r, s') → s' = s) (h : (x.run s).1 = .error r) :
    x.run s = (.error r, s) :=
  Prod.ext h (hkept r _ (Prod.ext h rfl))

theorem reads_look {read : σ → Except Refusal α} : Reads (look read) := fun _ => rfl

theorem reads_check {test : σ → Except Error α} : Reads (check test) := reads_look

theorem reads_reserve {granted : Bool} {what : String} :
    Reads (reserve granted what : InPlace σ Unit) := reads_check

theorem writes_write {put : σ → σ} : Writes (write put) := fun _ => ⟨(), rfl⟩

/-- Changes that are not refused follow each other without a refusal. -/
theorem Writes.bind (hx : Writes x) (hf : ∀ a, Writes (f a)) : Writes (x >>= f) := by
  intro s
  obtain ⟨a, ha⟩ := hx s
  rw [run_bind_of_ok (Prod.ext ha rfl)]
  exact hf a _

theorem Writes.keeps (hx : Writes x) : Keeps x := by
  intro s r s' h
  obtain ⟨a, ha⟩ := hx s
  rw [h] at ha
  cases ha

/-- **What is read first does no harm.** -/
theorem Reads.bind_keeps (hx : Reads x) (hf : ∀ a, Keeps (f a)) : Keeps (x >>= f) := by
  intro s r s' h
  rcases hxs : x.run s with ⟨r' | a, s''⟩
  · rw [run_bind_of_error hxs] at h
    rw [← (Prod.mk.inj h).2, ← hx s, hxs]
  · rw [run_bind_of_ok hxs] at h
    rw [hf a _ _ _ h, ← hx s, hxs]

/-- A member that is written back leaves the list as it was. -/
theorem set_eq_self {l : List τ} {i : Nat} {a : τ} (h : l[i]? = some a) : l.set i a = l := by
  obtain ⟨hi, rfl⟩ := List.getElem?_eq_some_iff.mp h
  rw [List.set_getElem_self]

/-- A change of a part keeps the whole as it keeps the part. -/
theorem Keeps.onPart {part : Part σ τ} {y : InPlace τ α} (hy : Keeps y) :
    Keeps (InPlace.onPart part y) := by
  intro s r s' h
  obtain ⟨hr, rfl⟩ := Prod.mk.inj h
  have hpart : (y.run (part.see s)).2 = part.see s := hy _ _ _ (Prod.ext hr rfl)
  exact (congrArg (part.put · s) hpart).trans (part.put_see s)

/-- A change of a member keeps the list as it keeps the member. -/
theorem Keeps.onMember {i : Nat} {what : Missing} {y : InPlace τ α} (hy : Keeps y) :
    Keeps (InPlace.onMember i what y) := by
  intro l r l' h
  cases ha : l[i]? with
  | none =>
    rw [run_onMember_of_none ha] at h
    exact (Prod.mk.inj h).2.symm
  | some a =>
    rw [run_onMember_of_some ha] at h
    obtain ⟨hr, rfl⟩ := Prod.mk.inj h
    have hmember : (y.run a).2 = a := hy _ _ _ (Prod.ext hr rfl)
    rw [hmember, set_eq_self ha]

theorem keeps_push {granted : Bool} {what : String} {a : τ} : Keeps (push granted what a) :=
  reads_reserve.bind_keeps fun _ => writes_write.keeps

/-! ### Edits in place -/

theorem atomic_congr {edit edit' : σ → Except Refusal σ} (h : ∀ s, edit s = edit' s) :
    atomic edit = atomic edit' := congrArg atomic (funext h)

theorem write_eq_atomic {put : σ → σ} : write put = atomic fun s => .ok (put s) := rfl

/-- Writes in a row are one. -/
theorem write_bind_write {put put' : σ → σ} :
    (write put >>= fun _ => write put') = write (put' ∘ put) := rfl

/-- Room that the memory grants need not be asked for. -/
theorem reserve_bind {what : String} {f : Unit → InPlace σ α} : reserve true what >>= f = f () :=
  rfl

/-- **What is read first is read by the edit.** -/
theorem look_bind_atomic {read : σ → Except Refusal α} {edit : α → σ → Except Refusal σ} :
    (look read >>= fun a => atomic (edit a)) = atomic fun s => read s >>= fun a => edit a s := by
  ext1
  funext s
  cases hread : read s with
  | error r =>
    have hlook : (look read).run s = (.error r, s) := Prod.ext hread rfl
    rw [run_bind_of_error hlook, run_atomic_of_error]
    rw [hread]
    rfl
  | ok a =>
    have hlook : (look read).run s = (.ok a, s) := Prod.ext hread rfl
    rw [run_bind_of_ok hlook]
    simp only [atomic, hread, ok_bind]

theorem check_bind_atomic {test : σ → Except Error α} {edit : α → σ → Except Refusal σ} :
    (check test >>= fun a => atomic (edit a)) =
      atomic fun s => attempt (test s) >>= fun a => edit a s :=
  look_bind_atomic

/-- An edit of a part in place is an edit of the whole in place. -/
theorem onPart_atomic {part : Part σ τ} {edit : τ → Except Refusal τ} :
    onPart part (atomic edit) = atomic fun s => (part.put · s) <$> edit (part.see s) := by
  ext1
  funext s
  cases hedit : edit (part.see s) with
  | error r =>
    have hwhole : (part.put · s) <$> edit (part.see s) = .error r := by rw [hedit]; rfl
    rw [run_atomic_of_error hwhole]
    simp only [onPart, run_atomic_of_error hedit, part.put_see]
  | ok t =>
    have hwhole : (part.put · s) <$> edit (part.see s) = .ok (part.put t s) := by rw [hedit]; rfl
    rw [run_atomic_of_ok hwhole]
    simp only [onPart, run_atomic_of_ok hedit]

/-- An edit of a member in place is an edit of the list in place. -/
theorem onMember_atomic {i : Nat} {what : Missing} {edit : τ → Except Refusal τ} :
    onMember i what (atomic edit) =
      atomic fun l => orMissing l[i]? what >>= fun a => (l.set i ·) <$> edit a := by
  ext1
  funext l
  cases ha : l[i]? with
  | none =>
    rw [run_onMember_of_none ha, run_atomic_of_error]
    rw [ha]
    rfl
  | some a =>
    rw [run_onMember_of_some ha]
    cases hedit : edit a with
    | error r =>
      rw [run_atomic_of_error hedit, set_eq_self ha, run_atomic_of_error]
      rw [ha, orMissing, ok_bind, hedit]
      rfl
    | ok a' =>
      rw [run_atomic_of_ok hedit, run_atomic_of_ok]
      rw [ha, orMissing, ok_bind, hedit]
      rfl

theorem push_eq_atomic {what : String} {a : τ} :
    push true what a = atomic fun l => .ok (l ++ [a]) := rfl

end InPlace

end DataModel
