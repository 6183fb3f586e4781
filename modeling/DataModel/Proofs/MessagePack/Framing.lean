import DataModel.MessagePack.Choice
import DataModel.MessagePack.Record
import Mathlib.Data.List.Basic

/-!
# Readers do not look ahead

A reader is *steady* (`Steady`) if what it reads from the front of some bytes it reads also where
more bytes follow, and leaves those behind.  A format is *framed* (`Format.Framed`) if it reads
steadily and reads nothing from no bytes at all.

Steadiness is a property of the reader alone: nothing is said of what was written.  It holds of
heads (`steady_readHead`), of skipped values (`skip_append`) and of every format: of the scalars,
and of composite formats if it holds of their parts (`Format.optional_framed`,
`Format.list_framed`, `Format.record_framed`).  Where a framed format reads bytes to their end, it
reads no prefix of them (`Format.Framed.read_prefix`).
-/

namespace DataModel.MessagePack

/-- **What is read from the front of some bytes** is read also if more bytes follow, which are
left. -/
def Steady {β : Type} (read : List UInt8 → Option (β × List UInt8)) : Prop :=
  ∀ ⦃bytes b rest⦄, read bytes = some (b, rest) →
    ∀ more, read (bytes ++ more) = some (b, rest ++ more)

namespace Steady

variable {β γ : Type} {read : List UInt8 → Option (β × List UInt8)}

theorem none : Steady fun _ => (.none : Option (β × List UInt8)) := nofun

theorem pure (b : β) : Steady fun bytes => some (b, bytes) := by
  rintro bytes _ _ ⟨rfl, rfl⟩ more
  rfl

/-- One reader after the other. -/
theorem bind (hread : Steady read) {next : β × List UInt8 → Option (γ × List UInt8)}
    (hnext : ∀ b, Steady fun bytes => next (b, bytes)) :
    Steady fun bytes => (read bytes).bind next := by
  intro bytes c rest h more
  obtain ⟨⟨b, middle⟩, hb, hc⟩ := Option.bind_eq_some_iff.1 h
  show (read (bytes ++ more)).bind next = _
  rw [hread hb more, Option.bind_some]
  exact hnext b hc more

theorem map (hread : Steady read) (g : β → γ) :
    Steady fun bytes => (read bytes).map fun (b, rest) => (g b, rest) := by
  intro bytes c rest h more
  obtain ⟨⟨b, _⟩, hb, heq⟩ := Option.map_eq_some_iff.1 h
  obtain ⟨rfl, rfl⟩ := heq
  show (read (bytes ++ more)).map _ = _
  rw [hread hb more, Option.map_some]

/-- A value that may be missing, whatever the bytes. -/
theorem option {δ : Type} (o : Option δ) {next : δ → List UInt8 → Option (γ × List UInt8)}
    (hnext : ∀ d ∈ o, Steady (next d)) : Steady fun bytes => o.bind fun d => next d bytes := by
  cases o with
  | none => exact none
  | some d => exact hnext d rfl

end Steady

/-! ### Words and heads -/

theorem steady_readWordFrom (high width : Nat) : Steady (readWordFrom high width) := by
  induction width generalizing high with
  | zero => exact .pure high
  | succ width ih =>
    intro bytes n rest h more
    cases bytes with
    | nil => cases h
    | cons b bytes => exact ih _ h more

theorem steady_readBytes (n : Nat) : Steady (readBytes n) := by
  intro bytes front rest h more
  simp only [readBytes, List.length_take] at h ⊢
  split_ifs at h with hfront
  obtain ⟨rfl, rfl⟩ := h
  have hn : n ≤ bytes.length := by omega
  have hmore : min n (bytes ++ more).length = n := by
    rw [List.length_append]
    omega
  rw [if_pos hmore, List.take_append_of_le_length hn, List.drop_append_of_le_length hn]

theorem steady_readAs (width : Nat) (head : Nat → Head) : Steady (readAs width head) :=
  (steady_readWordFrom 0 width).map head

theorem steady_readMarked (marker : Nat) : Steady (readMarked marker) := by
  intro bytes head rest h more
  unfold readMarked at h
  -- A marker announces a word, or is the whole head, or begins none.
  split at h
  all_goals first
    | exact steady_readAs _ _ h more
    | exact Steady.pure _ h more
    | cases h

theorem steady_readHead : Steady readHead := by
  intro bytes head rest h more
  cases bytes with
  | nil => cases h
  | cons marker bytes =>
    simp only [readHead, List.cons_append] at h ⊢
    split_ifs at h ⊢
    all_goals first
      | exact steady_readMarked _ h more
      | exact Steady.pure _ h more

/-! ### Skipping -/

theorem times_append {step : List UInt8 → Option (List UInt8)} {more : List UInt8}
    (hstep : ∀ bytes rest, step bytes = some rest → step (bytes ++ more) = some (rest ++ more))
    {n : Nat} {bytes rest : List UInt8} (h : times step n bytes = some rest) :
    times step n (bytes ++ more) = some (rest ++ more) := by
  induction n generalizing bytes with
  | zero =>
    obtain rfl := Option.some.inj h
    rfl
  | succ n ih =>
    obtain ⟨middle, hfirst, hrest⟩ := Option.bind_eq_some_iff.1 h
    rw [times, hstep _ _ hfirst, Option.bind_some]
    exact ih hrest

/-- **A value that is skipped** is skipped also if more bytes follow. -/
theorem skip_append {levels : Nat} {bytes rest : List UInt8} (h : skip levels bytes = some rest)
    (more : List UInt8) : skip levels (bytes ++ more) = some (rest ++ more) := by
  have hbytes {n : Nat} {bytes rest : List UInt8}
      (h : (readBytes n bytes).map Prod.snd = some rest) :
      (readBytes n (bytes ++ more)).map Prod.snd = some (rest ++ more) := by
    obtain ⟨⟨front, _⟩, hread, rfl⟩ := Option.map_eq_some_iff.1 h
    rw [steady_readBytes n hread more, Option.map_some]
  induction levels generalizing bytes rest with
  | zero =>
    rw [skip] at h ⊢
    obtain ⟨⟨head, body⟩, hhead, h⟩ := Option.bind_eq_some_iff.1 h
    rw [steady_readHead hhead more]
    cases head with
    | text n | binary n => exact hbytes h
    | array n | map n | extension n => cases h
    | _ => exact congrArg (fun rest => some (rest ++ more)) (Option.some.inj h)
  | succ levels ih =>
    rw [skip] at h ⊢
    obtain ⟨⟨head, body⟩, hhead, h⟩ := Option.bind_eq_some_iff.1 h
    rw [steady_readHead hhead more]
    cases head with
    | text n | binary n | extension n => exact hbytes h
    | array n | map n => exact times_append (fun _ _ => ih) h
    | _ => exact congrArg (fun rest => some (rest ++ more)) (Option.some.inj h)

/-! ### Keys and cases -/

theorem steady_readKey : Steady readKey := by
  refine steady_readHead.bind fun head => ?_
  cases head with
  | text n | binary n => exact (steady_readBytes n).bind fun name => .pure (Key.name name)
  | unsigned n => exact .pure (Key.position n)
  | _ => exact .none

theorem steady_readCase (names : List String) : Steady (readCase names) := by
  intro bytes case rest h more
  have hkey (payload : Bool) : Steady fun bytes => (readKey bytes).bind fun p =>
      (p.1.index? names).bind fun place => some ((place, payload), p.2) :=
    steady_readKey.bind fun key => .option (key.index? names) fun place _ =>
      .pure (place, payload)
  rw [readCase, enterChoice] at h ⊢
  cases hhead : readHead bytes with
  | none =>
    -- Without a head there is no key.
    rw [hhead] at h
    simp [readKey, hhead] at h
  | some p =>
    obtain ⟨head, body⟩ := p
    rw [hhead] at h
    rw [steady_readHead hhead more]
    cases head with
    | map n =>
      simp only at h ⊢
      split_ifs at h ⊢
      · exact hkey true h more
      · cases h
    | _ => exact hkey false h more

theorem readNil_append {bytes rest : List UInt8} (h : readNil bytes = some rest)
    (more : List UInt8) : readNil (bytes ++ more) = some (rest ++ more) := by
  unfold readNil at h
  split at h
  · obtain rfl := Option.some.inj h
    rfl
  · cases h

/-! ### Scalars -/

namespace Format

variable {α : Type}

/-- **A framed format** reads steadily, and reads nothing from no bytes. -/
structure Framed (f : Format α) : Prop where
  steady : ∀ levels, Steady (f.read levels)
  read_nil : ∀ levels, f.read levels [] = none

theorem steady_readInteger : Steady readInteger := by
  refine steady_readHead.bind fun head => ?_
  cases head with
  | unsigned n => exact .pure (n : Int)
  | signed n => exact .pure n
  | _ => exact .none

theorem integer_framed (toInt : α → Int) (ofInt? : Int → Option α) :
    (integer toInt ofInt?).Framed where
  steady _ := steady_readInteger.bind fun _ => .option _ fun a _ => .pure a
  read_nil _ := rfl

@[simp]
theorem natural_framed (bound : Nat) (toNat : α → Nat) (ofNat : (n : Nat) → n < bound → α) :
    (natural bound toNat ofNat).Framed :=
  integer_framed _ _

@[simp]
theorem uint8_framed : uint8.Framed := natural_framed _ _ _

@[simp]
theorem uint64_framed : uint64.Framed := natural_framed _ _ _

@[simp]
theorem int64_framed : int64.Framed := integer_framed _ _

@[simp]
theorem bool_framed : bool.Framed where
  steady _ := by
    refine steady_readHead.bind fun head => ?_
    cases head with
    | bool b => exact .pure b
    | _ => exact .none
  read_nil _ := rfl

@[simp]
theorem text_framed : text.Framed where
  steady _ := by
    refine steady_readHead.bind fun head => ?_
    cases head with
    | text n | binary n =>
      exact (steady_readBytes n).bind fun content => .option _ fun s _ => .pure s
    | _ => exact .none
  read_nil _ := rfl

@[simp]
theorem choice_framed [Vocabulary α] : (choice α).Framed where
  steady _ := by
    refine (steady_readCase _).bind fun (place, payload) => .option _ fun a _ => ?_
    cases payload with
    | false => exact .pure a
    | true =>
      intro bytes b rest h more
      obtain ⟨rest', hnil, heq⟩ := Option.bind_eq_some_iff.1 h
      obtain ⟨rfl, rfl⟩ := heq
      exact Option.bind_eq_some_iff.2 ⟨_, readNil_append hnil more, rfl⟩
  read_nil _ := rfl

/-! ### Composites -/

variable {f : Format α}

@[simp]
theorem optional_framed (hf : f.Framed) : f.optional.Framed where
  steady levels := by
    have hsome := (hf.steady levels).map some
    intro bytes o rest h more
    cases bytes with
    | nil =>
      simp only [optional, hf.read_nil] at h
      cases h
    | cons b bytes =>
      simp only [optional, List.cons_append] at h ⊢
      -- The first byte tells whether there is a value.
      split at h
      · next heq =>
        obtain ⟨rfl, rfl⟩ := List.cons.inj heq
        obtain ⟨rfl, rfl⟩ := h
        rfl
      · next hne =>
        split
        · next heq => exact absurd (congrArg (· :: bytes) (List.cons.inj heq).1) (hne bytes)
        · exact hsome h more
  read_nil levels := by simp only [optional, hf.read_nil, Option.map_none]

theorem steady_readMany {read : List UInt8 → Option (α × List UInt8)} (hread : Steady read)
    (n : Nat) : Steady (readMany read n) := by
  induction n with
  | zero => exact .pure []
  | succ n ih => exact hread.bind fun a => ih.bind fun as => .pure (a :: as)

@[simp]
theorem list_framed (hf : f.Framed) : (list f).Framed where
  steady levels := by
    refine steady_readHead.bind fun head => ?_
    cases levels with
    | zero =>
      cases head with
      | binary n => cases n <;> first | exact .pure [] | exact .none
      | _ => exact .none
    | succ levels =>
      cases head with
      | array n => exact steady_readMany (hf.steady levels) n
      | binary n => cases n <;> first | exact .pure [] | exact .none
      | _ => exact .none
  read_nil levels := rfl

end Format

/-! ### Records -/

namespace Fields

/-- The formats of all fields are framed. -/
@[simp]
def Framed {α δ : Type} : Fields α δ → Prop
  | .nil => True
  | .cons _ format _ rest => format.Framed ∧ rest.Framed

variable {α δ : Type} {fields : Fields α δ}

theorem Framed.steady_readAt {levels : Nat} (h : fields.Framed) (place : Nat) (draft : δ) :
    Steady (fields.readAt levels place draft) := by
  induction fields generalizing place with
  | nil => exact .none
  | cons key format absent rest ih =>
    obtain ⟨a?, draft⟩ := draft
    cases place with
    | zero =>
      cases a? with
      | none => exact (h.1.steady levels).map fun a => (some a, draft)
      | some a => exact .none
    | succ place => exact (ih h.2 place draft).map fun draft => (a?, draft)

theorem Framed.steady_readEntries {levels : Nat} (h : fields.Framed) (n : Nat) (draft : δ) :
    Steady (fields.readEntries levels n draft) := by
  induction n generalizing draft with
  | zero => exact .pure draft
  | succ n ih =>
    refine steady_readKey.bind fun key => ?_
    dsimp only
    cases key.index? fields.keys with
    | some place => exact (h.steady_readAt place draft).bind fun draft => ih draft
    | none =>
      intro bytes draft' rest hread more
      obtain ⟨middle, hskip, hread⟩ := Option.bind_eq_some_iff.1 hread
      exact Option.bind_eq_some_iff.2 ⟨_, skip_append hskip more, ih draft hread more⟩

theorem Framed.steady_readInOrder {levels : Nat} (h : fields.Framed) :
    Steady (fields.readInOrder levels) := by
  induction fields with
  | nil => exact .pure ()
  | cons key format absent rest ih =>
    exact (h.1.steady levels).bind fun a => (ih h.2).bind fun b => .pure (a, b)

end Fields

/-- **A record is framed** if the formats of its fields are. -/
theorem Format.record_framed {ρ α δ : Type} {fields : Fields α δ} {unpack : ρ → α} {pack : α → ρ}
    (h : fields.Framed) : (record fields unpack pack).Framed where
  steady levels := by
    cases levels with
    | zero => exact .none
    | succ levels =>
      refine steady_readHead.bind fun head => ?_
      cases head with
      | map n =>
        exact (h.steady_readEntries n _).bind fun draft => .option _ fun a _ => .pure (pack a)
      | array n =>
        dsimp only
        split_ifs
        · exact .none
        · exact h.steady_readInOrder.bind fun a => .pure (pack a)
      | _ => exact .none
  read_nil levels := by cases levels <;> rfl

end DataModel.MessagePack
