import DataModel.Proofs.Coupling
import DataModel.Proofs.InPlace.Declarations
import DataModel.Proofs.Naming.Parts

/-!
# Fields behind their setters

Six setters write overlapping parts of a field in place: the type, the link to an enumeration or to
a bit-field set, the embedded entity, the reference and the default.  Four of them can be refused.
Here they are called in any order, the refused calls included (`Field.leftBy`).

A setter is the edit of the same name in place (`Setter.run_eq`), so a refused call leaves the field
as it was, and an accepted one does one of three things (`Setter.perform_cases`).  Two facts about
one call then carry over to all runs:

* `Setter.consistent_leaves`: a call keeps the parts coupled and the reference recorded under the
  name of the field;
* `Setter.defaultValue_leaves`: unless a call sets the default, it leaves the one that is there, if
  that fits the type behind the call.

So the default is the value of the last accepted `setDefault`, provided that every call since has
left a type that the value fits (`Field.StandingDefault`).  `Field.setters_consistent` puts both
together.
-/

namespace DataModel

/-- The parts of the field are coupled, and its reference is recorded under its name. -/
structure Field.Consistent (f : Field) : Prop where
  coupled : f.Coupled
  sourceField : ∀ r ∈ f.reference, r.sourceField = f.name

/-- A setter of the type of a field or of a part that depends on the type. -/
inductive Setter
  /-- A setter that can be refused. -/
  | checked (call : InPlace.FieldCall)
  | setEnumeration (name : String)
  | setBitfield (name : String)

namespace Setter

open InPlace

variable {s : Setter} {f f' : Field} {v : DefaultValue}

/-- The edit that the setter stands for. -/
def edit : Setter → FieldEdit
  | .checked call => call.edit
  | .setEnumeration name => .setEnumeration name
  | .setBitfield name => .setBitfield name

/-- **What the setter does to a field.** -/
def run : Setter → InPlace Field Unit
  | .checked call => call.run
  | .setEnumeration name => do
    retype .enum
    write fun f => { f with enumeration := some { name } }
  | .setBitfield name => do
    retype .bitfield
    write fun f => { f with bitfield := some { name } }

/-- What a call of the setter leaves of a field. -/
def leaves (s : Setter) (f : Field) : Field := (s.run.run f).2

/-- The call is not refused, and it sets the default. -/
def SetsDefault (s : Setter) (f : Field) (v : DefaultValue) : Prop :=
  s = .checked (.setDefault v) ∧ (s.run.run f).1 = .ok ()

/-- **A setter is an edit in place.** -/
theorem run_eq (s : Setter) : s.run = atomic fun f => f.perform s.edit := by
  cases s with
  | checked call => exact call.run_eq
  | setEnumeration name | setBitfield name =>
    simp only [run, retype_eq, write_bind_write]
    rfl

theorem leaves_of_ok (h : f.perform s.edit = .ok f') : s.leaves f = f' := by
  rw [leaves, run_eq, run_atomic_of_ok h]

/-- A refused call leaves the field as it was. -/
theorem leaves_of_error {r : Refusal} (h : f.perform s.edit = .error r) : s.leaves f = f := by
  rw [leaves, run_eq, run_atomic_of_error h]

theorem setsDefault_iff : s.SetsDefault f v ↔
    s = .checked (.setDefault v) ∧ ∃ f', f.perform s.edit = .ok f' := by
  rw [SetsDefault, run_eq]
  cases h : f.perform s.edit with
  | error r => simp [atomic, h]
  | ok f' => simp [atomic, h]

/-! ### One call -/

/-- **What an accepted call does**: it sets the default or the reference, or else it changes the
type, with what that drops, and then what belongs to the new type. -/
theorem perform_cases (h : f.perform s.edit = .ok f') :
    (∃ v, s = .checked (.setDefault v) ∧ f' = { f with defaultValue := some v }) ∨
    (∃ targetEntity targetField,
      f' = { f with reference := some { sourceField := f.name, targetEntity, targetField } }) ∨
    ∃ t enumeration bitfield structSource,
      f' = { f.retype t with enumeration, bitfield, structSource } := by
  cases s with
  | setEnumeration name | setBitfield name =>
    obtain rfl := Except.ok.inj h
    exact .inr (.inr ⟨_, _, _, _, rfl⟩)
  | checked call =>
    cases call with
    | setType t =>
      have hset := attempt_eq_ok.1 h
      rw [Field.setType] at hset
      split_ifs at hset
      · exact absurd hset failFlaw_ne_ok
      · exact .inr (.inr ⟨t, _, _, _, (Except.ok.inj hset).symm⟩)
    | setStruct source =>
      have hset := attempt_eq_ok.1 h
      rw [Field.setStruct] at hset
      split_ifs at hset
      · exact absurd hset failFlaw_ne_ok
      · exact .inr (.inr ⟨.struct, _, _, _, (Except.ok.inj hset).symm⟩)
    | setReference targetEntity targetField =>
      have hset := attempt_eq_ok.1 h
      rw [Field.setReference] at hset
      split_ifs at hset
      · exact absurd hset failFlaw_ne_ok
      · exact .inr (.inl ⟨targetEntity, targetField, (Except.ok.inj hset).symm⟩)
    | setDefault value =>
      have hset := attempt_eq_ok.1 h
      rw [Field.setDefault] at hset
      split_ifs at hset
      · exact .inl ⟨value, rfl, (Except.ok.inj hset).symm⟩
      · exact absurd hset fail_ne_ok

/-- The reference behind an accepted call is the old one, or one that is recorded under the name of
the field. -/
theorem sourceField_of_perform (hf : ∀ r ∈ f.reference, r.sourceField = f.name)
    (h : f.perform s.edit = .ok f') : ∀ r ∈ f'.reference, r.sourceField = f'.name := by
  rcases perform_cases h with ⟨v, _, rfl⟩ | ⟨targetEntity, targetField, rfl⟩ | ⟨t, _, _, _, rfl⟩
  · exact hf
  · intro r hr
    obtain rfl := Option.some.inj hr
    rfl
  · exact hf

/-- **A call keeps a field consistent**, also if it is refused. -/
theorem consistent_leaves (hf : f.Consistent) : (s.leaves f).Consistent := by
  cases h : f.perform s.edit with
  | error r =>
    rw [leaves_of_error h]
    exact hf
  | ok f' =>
    rw [leaves_of_ok h]
    exact ⟨hf.coupled.perform h, sourceField_of_perform hf.sourceField h⟩

/-- A call keeps the name of a field. -/
theorem name_leaves : (s.leaves f).name = f.name := by
  cases h : f.perform s.edit with
  | error r => rw [leaves_of_error h]
  | ok f' =>
    rw [leaves_of_ok h]
    exact (Field.identity_of_perform h).2

/-- The default of a coupled field passes the test of the type. -/
theorem filter_defaultValue (hf : f.Coupled) :
    f.defaultValue.filter (·.fits f.type) = f.defaultValue := by
  cases hv : f.defaultValue with
  | none => rfl
  | some v =>
    rw [Option.filter_some, if_pos (hf.default v hv)]

theorem defaultValue_of_setsDefault (h : s.SetsDefault f v) :
    (s.leaves f).defaultValue = some v := by
  obtain ⟨rfl, f', hf'⟩ := setsDefault_iff.1 h
  rw [leaves_of_ok hf']
  have hset := attempt_eq_ok.1 hf'
  rw [Field.setDefault] at hset
  split_ifs at hset
  · obtain rfl := Except.ok.inj hset
    rfl
  · exact absurd hset fail_ne_ok

/-- **A call that does not set the default leaves the one that fits the type behind it.** -/
theorem defaultValue_leaves (hf : f.Coupled) (h : ∀ v, ¬ s.SetsDefault f v) :
    (s.leaves f).defaultValue = f.defaultValue.filter (·.fits (s.leaves f).type) := by
  cases hperform : f.perform s.edit with
  | error r =>
    rw [leaves_of_error hperform]
    exact (filter_defaultValue hf).symm
  | ok f' =>
    rw [leaves_of_ok hperform]
    rcases perform_cases hperform with ⟨v, rfl, _⟩ | ⟨_, _, rfl⟩ | ⟨t, _, _, _, rfl⟩
    · exact absurd (setsDefault_iff.2 ⟨rfl, f', hperform⟩) (h v)
    · exact (filter_defaultValue hf).symm
    · rfl

end Setter

/-! ### Runs -/

namespace Field

variable {f : Field} {calls : List Setter} {s : Setter} {v : DefaultValue}

/-- What some calls leave of a field. -/
def leftBy (f : Field) (calls : List Setter) : Field := calls.foldl (fun f s => s.leaves f) f

/-- A call has set the default, none has set it since, and every call since has left a type that the
value fits. -/
def StandingDefault (f : Field) (calls : List Setter) (v : DefaultValue) : Prop :=
  ∃ before s after, calls = before ++ s :: after ∧ s.SetsDefault (f.leftBy before) v ∧
    ∀ mid t rest, after = mid ++ t :: rest →
      (∀ w, ¬ t.SetsDefault (f.leftBy (before ++ s :: mid)) w) ∧
        v.fits (f.leftBy (before ++ s :: mid ++ [t])).type = true

theorem leftBy_concat : f.leftBy (calls ++ [s]) = s.leaves (f.leftBy calls) := by
  rw [leftBy, List.foldl_append]
  rfl

/-- **What one more call does to the standing default.** -/
theorem standingDefault_concat : f.StandingDefault (calls ++ [s]) v ↔
    s.SetsDefault (f.leftBy calls) v ∨
      f.StandingDefault calls v ∧ (∀ w, ¬ s.SetsDefault (f.leftBy calls) w) ∧
        v.fits (f.leftBy (calls ++ [s])).type = true := by
  constructor
  · rintro ⟨before, t, after, hsplit, hset, hsince⟩
    rcases List.eq_nil_or_concat after with rfl | ⟨after, last, rfl⟩
    · obtain ⟨rfl, hlast⟩ := List.append_inj' hsplit rfl
      obtain rfl := List.singleton_inj.1 hlast
      exact .inl hset
    · rw [List.concat_eq_append, ← List.cons_append, ← List.append_assoc] at hsplit
      obtain ⟨rfl, hlast⟩ := List.append_inj' hsplit rfl
      obtain rfl := List.singleton_inj.1 hlast
      refine .inr ⟨⟨before, t, after, rfl, hset, fun mid u rest h => ?_⟩, ?_⟩
      · exact hsince mid u (rest ++ [s]) (by simp [h])
      · exact hsince after s [] (by simp)
  · rintro (hset | ⟨⟨before, t, after, rfl, hset, hsince⟩, hnot, hfits⟩)
    · exact ⟨calls, s, [], rfl, hset, by simp⟩
    · refine ⟨before, t, after ++ [s], by simp, hset, fun mid u rest h => ?_⟩
      -- The later call is the last one, or one of those before.
      rcases List.eq_nil_or_concat rest with rfl | ⟨rest, last, rfl⟩
      · obtain ⟨rfl, hlast⟩ := List.append_inj' h rfl
        obtain rfl := List.singleton_inj.1 hlast
        exact ⟨hnot, hfits⟩
      · rw [List.concat_eq_append, ← List.cons_append, ← List.append_assoc] at h
        exact hsince mid u rest (List.append_inj' h rfl).1

/-- **A consistent field is consistent behind any calls.** -/
theorem Consistent.leftBy (hf : f.Consistent) (calls : List Setter) :
    (f.leftBy calls).Consistent := by
  induction calls using List.reverseRecOn with
  | nil => exact hf
  | append_singleton calls s ih =>
    rw [leftBy_concat]
    exact Setter.consistent_leaves ih

theorem name_leftBy : (f.leftBy calls).name = f.name := by
  induction calls using List.reverseRecOn with
  | nil => rfl
  | append_singleton calls s ih => rw [leftBy_concat, Setter.name_leaves, ih]

/-- **The default of a field that started without one is the standing default.** -/
theorem defaultValue_leftBy (hf : f.Consistent) (hnone : f.defaultValue = none) :
    (f.leftBy calls).defaultValue = some v ↔ f.StandingDefault calls v := by
  induction calls using List.reverseRecOn with
  | nil =>
    have hleft : f.leftBy [] = f := rfl
    rw [hleft, hnone]
    simp [StandingDefault]
  | append_singleton calls s ih =>
    rw [standingDefault_concat, leftBy_concat]
    by_cases hset : ∃ w, s.SetsDefault (f.leftBy calls) w
    · obtain ⟨w, hw⟩ := hset
      have hunique : s.SetsDefault (f.leftBy calls) v ↔ w = v := by
        constructor
        · intro hv
          have hsetter := hw.1.symm.trans hv.1
          cases hsetter
          rfl
        · rintro rfl
          exact hw
      rw [Setter.defaultValue_of_setsDefault hw, Option.some.injEq, hunique]
      exact (or_iff_left fun h => h.2.1 w hw).symm
    · have hnot : ∀ w, ¬ s.SetsDefault (f.leftBy calls) w := not_exists.1 hset
      rw [Setter.defaultValue_leaves (hf.leftBy calls).coupled hnot, Option.filter_eq_some_iff, ih,
        or_iff_right (hnot v), and_iff_right hnot]

/-- A new field is consistent. -/
theorem consistent_new (id : FieldId) (name : String) : Consistent { id, name } :=
  ⟨coupled_new id name, nofun⟩

/-- **Behind any calls of its setters, the parts of a field belong together.**  The links and the
embedded entity are those of the type, a field that embeds an entity has no reference, a reference
is recorded under the name of the field, and the default fits the type: it is the value of the last
accepted `setDefault`, and it is there unless a later call has left a type that the value does not
fit.  This is for every new field and for all calls in any order, the refused ones included. -/
theorem setters_consistent (id : FieldId) (name : String) (calls : List Setter) :
    (leftBy { id, name } calls).Coupled ∧
      (leftBy { id, name } calls).name = name ∧
      (∀ r ∈ (leftBy { id, name } calls).reference, r.sourceField = name) ∧
      ∀ v, (leftBy { id, name } calls).defaultValue = some v ↔
        StandingDefault { id, name } calls v := by
  have hleft := (consistent_new id name).leftBy calls
  refine ⟨hleft.coupled, name_leftBy, fun r hr => ?_, fun v => ?_⟩
  · exact (hleft.sourceField r hr).trans name_leftBy
  · exact defaultValue_leftBy (consistent_new id name) rfl

-- The struct is refused because of the reference, and the default does not fit the new type.
example :
    let f := leftBy { id := ⟨⟨0, by decide⟩, 0, by decide⟩, name := "owner" }
      [.checked (.setDefault (.integer 5)), .checked (.setReference "user" "id"),
        .checked (.setStruct "owner"), .checked (.setType .text)]
    f.type = .text ∧ f.defaultValue = none ∧ f.reference.isSome = true ∧ f.structSource = none := by
  decide +kernel

end Field

end DataModel
