import DataModel.Linking.Specs
import DataModel.Proofs.Linking.Bindings

/-!
# Walks along paths

The names of a path lead from its entity through the document: each is looked up among the fields of
the present entity, and each but the last has to lead into the next entity.  `Document.Walk` says
where such a walk may end, and `Document.Obstacle` what is in the way of one, each without reference
to how a path is resolved.

`Path.resolve_eq_ok_iff` and `Path.resolve_eq_error_iff`: a path has a chain exactly if there is a
walk along its names, and the chain holds the handles of the fields on it; else the error is the
first obstacle.

All names have a walk or an obstacle (`Document.walk_or_obstacle`), and resolving returns what a
walk passes and fails on what an obstacle says.  So neither of the two equivalences has a second
half of its own: a result that is a chain cannot come from an obstacle, nor an error from a walk.
-/

namespace DataModel

namespace Document

variable (d : Document)

/-- The field leads into an entity: the one of the field that its reference is bound to, or else the
one that it embeds. -/
def LeadsTo (f : Field) (next : Entity) : Prop :=
  (∃ r ∈ f.reference, ∃ b ∈ r.binding, d.entity? b.target.entity = some next) ∨
    (∀ r ∈ f.reference, r.binding = none) ∧
      ∃ s ∈ f.structSource, ∃ b ∈ s.binding, d.entity? b.entity = some next

/-- **A walk from an entity along names**, with the fields on it.  Each name is that of the first
such field of the present entity.  A walk to a value ends at a field that is no `struct`.  On a walk
to an entity the last field leads into an entity like the others, and there may be no field. -/
inductive Walk : Ending → Entity → List String → List Field → Prop
  | arrived {e : Entity} : Walk .entity e [] []
  | value {e : Entity} {name : String} {f : Field}
      (named : FirstNamed Field.name name e.fields f) (holds : f.type ≠ .struct) :
      Walk .value e [name] [f]
  | across {ending : Ending} {e next : Entity} {name : String} {names : List String} {f : Field}
      {fs : List Field} (named : FirstNamed Field.name name e.fields f) (leads : d.LeadsTo f next)
      (further : Walk ending next names fs) : Walk ending e (name :: names) (f :: fs)

/-- **The first obstacle from an entity along names**, as the cause of an error.  The text of the
whole path is only for messages. -/
inductive Obstacle (text : String) : Ending → Entity → List String → Cause → Prop
  /-- There is no walk to a value along no names. -/
  | empty {e : Entity} : Obstacle text .value e [] (.invalidDeclaration .emptyPath)
  /-- No field has the name. -/
  | unknown {ending : Ending} {e : Entity} {name : String} {names : List String}
      (unnamed : ∀ f ∈ e.fields, Ident.fold f.name ≠ Ident.fold name) :
      Obstacle text ending e (name :: names) (.unknownField e.name name)
  /-- The last field is a `struct` in place of a value. -/
  | struct {e : Entity} {name : String} {f : Field}
      (named : FirstNamed Field.name name e.fields f) (struct : f.type = .struct) :
      Obstacle text .value e [name]
        (.invalidDeclaration (.pathEndsAtStruct text (qualified e.name f.name)))
  /-- The field would have to lead on, and leads nowhere. -/
  | deadEnd {ending : Ending} {e : Entity} {name : String} {names : List String} {f : Field}
      (named : FirstNamed Field.name name e.fields f) (leadsOn : names = [] → ending = .entity)
      (nowhere : ∀ next, ¬ d.LeadsTo f next) :
      Obstacle text ending e (name :: names)
        (.invalidDeclaration (.pathLeadsNowhere (qualified e.name f.name) text))
  /-- The obstacle is in a later entity. -/
  | across {ending : Ending} {e next : Entity} {name : String} {names : List String} {f : Field}
      {c : Cause} (named : FirstNamed Field.name name e.fields f) (leads : d.LeadsTo f next)
      (leadsOn : names ≠ []) (further : Obstacle text ending next names c) :
      Obstacle text ending e (name :: names) c

variable {d}

theorem leadsTo_iff {f : Field} {next : Entity} :
    d.LeadsTo f next ↔ f.next?.bind d.entity? = some next := by
  rw [LeadsTo, Field.next?]
  cases f.reference with
  | none => cases f.structSource with
    | none => simp
    | some s => cases hs : s.binding <;> simp [StructSource.entity?, hs]
  | some r =>
    cases hr : r.binding with
    | none => cases f.structSource with
      | none => simp [Reference.entity?, hr]
      | some s => cases hs : s.binding <;> simp [Reference.entity?, StructSource.entity?, hr, hs]
    | some b => simp [Reference.entity?, hr]

theorem field?_eq_some_iff {e : Entity} {name : String} {f : Field} :
    e.field? name = some f ↔ FirstNamed Field.name name e.fields f :=
  FirstNamed.find?_eq_some_iff

theorem field?_eq_none_iff {e : Entity} {name : String} :
    e.field? name = none ↔ ∀ f ∈ e.fields, Ident.fold f.name ≠ Ident.fold name :=
  FirstNamed.find?_eq_none_iff

/-- Only a walk to an entity may be along no names. -/
theorem Walk.ends_at_entity {ending : Ending} {e : Entity} {names : List String} {fs : List Field}
    (h : d.Walk ending e names fs) : names = [] → ending = .entity := by
  rintro rfl
  cases h
  rfl

/-- A walk has a field for each name. -/
theorem Walk.length_eq {ending : Ending} {e : Entity} {names : List String} {fs : List Field}
    (h : d.Walk ending e names fs) : fs.length = names.length := by
  induction h with
  | arrived => rfl
  | value named holds => rfl
  | across named leads further ih => rw [List.length_cons, List.length_cons, ih]

/-- A field leads into an entity of the document. -/
theorem LeadsTo.mem {f : Field} {next : Entity} (h : d.LeadsTo f next) : next ∈ d.entities := by
  rcases h with ⟨_, _, _, _, hnext⟩ | ⟨_, _, _, _, _, hnext⟩
  · exact List.mem_of_getElem? hnext
  · exact List.mem_of_getElem? hnext

/-- A walk does not leave the document. -/
theorem Walk.mem_fields {ending : Ending} {e : Entity} {names : List String} {fs : List Field}
    (h : d.Walk ending e names fs) (he : e ∈ d.entities) :
    ∀ f ∈ fs, ∃ e' ∈ d.entities, f ∈ e'.fields := by
  induction h with
  | arrived => simp
  | value named holds =>
    rw [List.forall_mem_singleton]
    exact ⟨_, he, named.mem⟩
  | across named leads further ih =>
    rw [List.forall_mem_cons]
    exact ⟨⟨_, he, named.mem⟩, ih leads.mem⟩

end Document

/-! ### Resolving -/

namespace Path

variable {d : Document} {text : String} {ending : Ending} {e : Entity} {name : String}
  {names : List String} {f : Field}

/-- A name that no field has ends the walk. -/
theorem walk_of_unknown (hf : e.field? name = none) :
    walk d text ending e (name :: names) = fail (.unknownField e.name name) := by
  rw [walk, hf, orFail_none, fail_bind]

/-- The last field of a walk to a value is no `struct`. -/
theorem walk_last (hf : e.field? name = some f) :
    walk d text .value e [name] =
      if f.type = .struct then failFlaw (.pathEndsAtStruct text (qualified e.name f.name))
      else .ok [f.id] := by
  rw [walk, hf, orFail_some, ok_bind, if_pos ⟨rfl, rfl⟩]
  split
  · rfl
  · rfl

/-- Every other field has to lead on. -/
theorem walk_on (hf : e.field? name = some f) (hon : names = [] → ending = .entity) :
    walk d text ending e (name :: names) = (do
      let next ← orFail (f.next?.bind d.entity?)
        (.invalidDeclaration (.pathLeadsNowhere (qualified e.name f.name) text))
      return f.id :: (← walk d text ending next names)) := by
  have hnot : ¬ (names.isEmpty ∧ ending = .value) := by
    rintro ⟨hempty, rfl⟩
    cases hon (List.isEmpty_iff.1 hempty)
  rw [walk, hf, orFail_some, ok_bind, if_neg hnot]

theorem walk_across {next : Entity} (hf : e.field? name = some f)
    (hon : names = [] → ending = .entity) (leads : d.LeadsTo f next) :
    walk d text ending e (name :: names) = (f.id :: ·) <$> walk d text ending next names := by
  rw [walk_on hf hon, Document.leadsTo_iff.1 leads, orFail_some, ok_bind]
  rfl

theorem walk_of_deadEnd (hf : e.field? name = some f) (hon : names = [] → ending = .entity)
    (nowhere : ∀ next, ¬ d.LeadsTo f next) :
    walk d text ending e (name :: names) =
      failFlaw (.pathLeadsNowhere (qualified e.name f.name) text) := by
  have hnext : f.next?.bind d.entity? = none := by
    rw [Option.eq_none_iff_forall_ne_some]
    exact fun next h => nowhere next (Document.leadsTo_iff.2 h)
  rw [walk_on hf hon, hnext, orFail_none, fail_bind]
  rfl

/-- **Resolving passes the fields of a walk.** -/
theorem walk_of_walk {fs : List Field} (h : d.Walk ending e names fs) :
    walk d text ending e names = .ok (fs.map Field.id) := by
  induction h with
  | arrived => rfl
  | value named holds =>
    rw [walk_last (Document.field?_eq_some_iff.2 named), if_neg holds]
    rfl
  | across named leads further ih =>
    rw [walk_across (Document.field?_eq_some_iff.2 named) further.ends_at_entity leads, ih]
    rfl

/-- **Resolving fails on the first obstacle.** -/
theorem walk_of_obstacle {c : Cause} (h : d.Obstacle text ending e names c)
    (hne : names = [] → ending = .entity) : walk d text ending e names = fail c := by
  induction h with
  | empty => cases hne rfl
  | unknown unnamed => exact walk_of_unknown (Document.field?_eq_none_iff.2 unnamed)
  | struct named struct =>
    rw [walk_last (Document.field?_eq_some_iff.2 named), if_pos struct]
    rfl
  | deadEnd named leadsOn nowhere =>
    exact walk_of_deadEnd (Document.field?_eq_some_iff.2 named) leadsOn nowhere
  | across named leads leadsOn further ih =>
    rw [walk_across (Document.field?_eq_some_iff.2 named) (absurd · leadsOn) leads,
      ih (absurd · leadsOn)]
    rfl

end Path

/-- **All names have a walk or an obstacle.** -/
theorem Document.walk_or_obstacle (d : Document) (text : String) (ending : Ending) (e : Entity)
    (names : List String) :
    (∃ fs, d.Walk ending e names fs) ∨ ∃ c, d.Obstacle text ending e names c := by
  induction names generalizing e with
  | nil =>
    cases ending with
    | value => exact .inr ⟨_, .empty⟩
    | entity => exact .inl ⟨_, .arrived⟩
  | cons name names ih =>
    cases hf : e.field? name with
    | none => exact .inr ⟨_, .unknown (field?_eq_none_iff.1 hf)⟩
    | some f =>
      have named := field?_eq_some_iff.1 hf
      by_cases hlast : names = [] ∧ ending = .value
      · obtain ⟨rfl, rfl⟩ := hlast
        by_cases hstruct : f.type = .struct
        · exact .inr ⟨_, .struct named hstruct⟩
        · exact .inl ⟨_, .value named hstruct⟩
      · have hon : names = [] → ending = .entity := by
          intro hnil
          cases ending with
          | value => exact absurd ⟨hnil, rfl⟩ hlast
          | entity => rfl
        by_cases hnext : ∃ next, d.LeadsTo f next
        · obtain ⟨next, leads⟩ := hnext
          rcases ih next with ⟨fs, further⟩ | ⟨c, further⟩
          · exact .inl ⟨_, .across named leads further⟩
          · refine .inr ⟨c, .across named leads ?_ further⟩
            -- Nothing is in the way of a walk to an entity that is there already.
            rintro rfl
            cases hon rfl
            cases further
        · exact .inr ⟨_, .deadEnd named hon (not_exists.1 hnext)⟩

namespace Path

variable {d : Document} {owner : Entity} {ending : Ending} {p : Path}

theorem resolve_of_walk {fs : List Field} (h : d.Walk ending owner p.names fs) :
    p.resolve d owner ending = .ok (fs.map Field.id) := by
  rw [resolve, if_neg, walk_of_walk h]
  rintro ⟨hempty, rfl⟩
  cases h.ends_at_entity (List.isEmpty_iff.1 hempty)

theorem resolve_of_obstacle {c : Cause} (h : d.Obstacle p.dotted ending owner p.names c) :
    p.resolve d owner ending = fail c := by
  rw [resolve]
  split_ifs with hempty
  · obtain ⟨hnames, rfl⟩ := hempty
    rw [List.isEmpty_iff.1 hnames] at h
    cases h
    rfl
  · refine walk_of_obstacle h fun hnames => ?_
    cases ending with
    | value => exact absurd ⟨List.isEmpty_iff.2 hnames, rfl⟩ hempty
    | entity => rfl

/-- **A path has a chain exactly if there is a walk along its names**, and the chain holds the
handles of the fields on it. -/
theorem resolve_eq_ok_iff {chain : List FieldId} :
    p.resolve d owner ending = .ok chain ↔
      ∃ fs, d.Walk ending owner p.names fs ∧ fs.map Field.id = chain := by
  constructor
  · intro h
    rcases d.walk_or_obstacle p.dotted ending owner p.names with ⟨fs, hfs⟩ | ⟨c, hc⟩
    · rw [resolve_of_walk hfs] at h
      exact ⟨fs, hfs, Except.ok.inj h⟩
    · rw [resolve_of_obstacle hc] at h
      exact absurd h fail_ne_ok
  · rintro ⟨fs, hfs, rfl⟩
    exact resolve_of_walk hfs

/-- **Else the error is the first obstacle**, and has no place yet. -/
theorem resolve_eq_error_iff {err : Error} :
    p.resolve d owner ending = .error err ↔
      ∃ c, d.Obstacle p.dotted ending owner p.names c ∧ err = { cause := c } := by
  constructor
  · intro h
    rcases d.walk_or_obstacle p.dotted ending owner p.names with ⟨fs, hfs⟩ | ⟨c, hc⟩
    · rw [resolve_of_walk hfs] at h
      cases h
    · rw [resolve_of_obstacle hc] at h
      exact ⟨c, hc, (Except.error.inj h).symm⟩
  · rintro ⟨c, hc, rfl⟩
    exact resolve_of_obstacle hc

end Path

end DataModel
