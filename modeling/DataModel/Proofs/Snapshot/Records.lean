import DataModel.Proofs.MessagePack.Records
import DataModel.Proofs.Snapshot.Sizes
import DataModel.Proofs.Unlinked
import DataModel.Snapshot.Records

/-!
# The records of a snapshot are read back

One statement for each record: if a value fits, its format recovers it without its linked state.
They follow the records from the inside out, up to `document_recovers`, and differ in how many
levels of arrays and maps the reader has to enter.
-/

namespace DataModel.Snapshot

open MessagePack MessagePack.Format

variable {levels : Nat}

/-! ### Parts of records -/

section

variable {α : Type} {f : Format α}

/-- A list that fits is recovered if its members are. -/
theorem list_fits [Sized α] {g : α → α} {as : List α} (h : Fits as)
    (hf : ∀ {a}, Fits a → f.Recovers levels a (g a)) :
    (list f).Recovers (levels + 1) as (as.map g) :=
  list_recovers h.1 fun a ha => hf (h.2 a ha)

theorem list_fits_self [Sized α] {as : List α} (h : Fits as)
    (hf : ∀ {a}, Fits a → f.Recovers levels a a) : (list f).Recovers (levels + 1) as as := by
  have hlist := list_fits (g := id) h hf
  rwa [List.map_id] at hlist

/-- An optional value that fits is recovered if it is when present. -/
theorem optional_fits [Sized α] {g : α → α} {o : Option α} (h : Fits o)
    (hpresent : ∀ {a}, Fits a → f.Present a) (hf : ∀ {a}, Fits a → f.Recovers levels a (g a)) :
    f.optional.Recovers levels o (o.map g) :=
  optional_recovers fun a ha => ⟨hpresent (h a ha), hf (h a ha)⟩

theorem optional_fits_self [Sized α] {o : Option α} (h : Fits o)
    (hpresent : ∀ {a}, Fits a → f.Present a) (hf : ∀ {a}, Fits a → f.Recovers levels a a) :
    f.optional.Recovers levels o o := by
  have hoptional := optional_fits (g := id) h hpresent hf
  rwa [Option.map_id] at hoptional

/-- An optional value of a type without texts and lists is recovered. -/
theorem optional_self {o : Option α} (hpresent : ∀ a, f.Present a)
    (hf : ∀ a, f.Recovers levels a a) : f.optional.Recovers levels o o := by
  have hoptional := optional_recovers (g := id) (o := o) fun a _ => ⟨hpresent a, hf a⟩
  rwa [Option.map_id] at hoptional

/-- An optional record that fits is recovered if the record is. -/
theorem optionalRecord_fits {β δ : Type} [Sized α] {fields : Fields β δ} {unpack : α → β}
    {pack : β → α} {g : α → α} {o : Option α} (hnamed : fields.Named) (h : Fits o)
    (hf : ∀ {a}, Fits a → (record fields unpack pack).Recovers levels a (g a)) :
    (record fields unpack pack).optional.Recovers levels o (o.map g) :=
  optional_fits h (fun _ => record_present hnamed _) hf

theorem optionalText_fits {o : Option String} (h : Fits o) :
    text.optional.Recovers levels o o :=
  optional_fits_self h text_present text_recovers

end

/-! ### Handles, paths and labels -/

theorem handle_recovers {k : Handle.Kind} (h : Handle k) : (handle k).Recovers levels h h :=
  natural_recovers (by decide) h.index_lt rfl

theorem handle_present {k : Handle.Kind} (h : Handle k) : (handle k).Present h :=
  natural_present (by decide) h.index_lt

theorem fieldId_recovers (f : FieldId) : fieldId.Recovers (levels + 1) f f := by
  have hplace : place.Recovers levels ⟨f.index, f.index_lt⟩ ⟨f.index, f.index_lt⟩ :=
    natural_recovers (by decide) f.index_lt rfl
  exact record_recovers (by decide)
    (.cons (handle_recovers f.entity) <| .cons hplace .nil) rfl rfl

theorem path_recovers {p : Path} (h : Fits p) : path.Recovers (levels + 2) p p.unlinked :=
  record_recovers (by decide) (.cons (list_fits_self h text_recovers) .nil) rfl rfl

theorem label_recovers {l : Label} (h : Fits l) : label.Recovers (levels + 1) l l :=
  record_recovers (by decide) (.cons (uint64_recovers l.lang) <| .cons (text_recovers h) .nil)
    rfl rfl

/-! ### Enumerations and bit-field sets -/

theorem enumItem_recovers {i : EnumItem} (h : Fits i) : enumItem.Recovers (levels + 3) i i := by
  obtain ⟨hname, hdoc, hlabels⟩ := h
  exact record_recovers (by decide)
    (.cons (text_recovers hname) <| .cons (optional_self int64_present int64_recovers) <|
      .cons (optionalText_fits hdoc) <| .cons (list_fits_self hlabels label_recovers) .nil) rfl rfl

theorem enumeration_recovers {e : Enumeration} (h : Fits e) :
    enumeration.Recovers (levels + 5) e e := by
  obtain ⟨hname, hcanonical, hdoc, hitems⟩ := h
  exact record_recovers (by decide)
    (.cons (handle_recovers e.id) <| .cons (text_recovers hname) <|
      .cons (text_recovers hcanonical) <| .cons (optionalText_fits hdoc) <|
      .cons (list_fits_self hitems enumItem_recovers) .nil) rfl rfl

theorem bitItem_recovers {i : BitItem} (h : Fits i) : bitItem.Recovers (levels + 3) i i := by
  obtain ⟨hname, hdoc, hlabels⟩ := h
  exact record_recovers (by decide)
    (.cons (text_recovers hname) <| .cons (uint8_recovers i.index) <|
      .cons (optionalText_fits hdoc) <| .cons (list_fits_self hlabels label_recovers) .nil) rfl rfl

theorem bitfield_recovers {b : Bitfield} (h : Fits b) : bitfield.Recovers (levels + 5) b b := by
  obtain ⟨hname, hcanonical, hdoc, hitems, hunset, hnull⟩ := h
  exact record_recovers (by decide)
    (.cons (handle_recovers b.id) <| .cons (text_recovers hname) <|
      .cons (text_recovers hcanonical) <| .cons (optionalText_fits hdoc) <|
      .cons (list_fits_self hitems bitItem_recovers) <|
      .cons (list_fits_self hunset label_recovers) <|
      .cons (list_fits_self hnull label_recovers) .nil) rfl rfl

/-! ### Fields -/

/-- A real is recovered bit by bit. -/
theorem real_recovers (x : Real64) : real.Recovers levels x x := by
  refine ⟨fun rest => ?_, rfl⟩
  have hhead : readHead (0xcb :: (word 8 x.bits.toNat ++ rest)) =
      some (.double (UInt64.ofNat x.bits.toNat), rest) := by
    show readAs 8 (fun n => .double (UInt64.ofNat n)) (word 8 x.bits.toNat ++ rest) = _
    rw [readAs_word 8 x.bits.toNat_lt]
  simp only [real, List.cons_append, hhead, UInt64.ofNat_toNat]
  rfl

theorem defaultValue_recovers {v : DefaultValue} (h : Fits v) :
    defaultValue.Recovers levels v v := by
  refine ⟨fun rest => ?_, rfl⟩
  have hnames : defaultCases.Nodup := by decide
  cases v with
  | integer n =>
    have hname : defaultCases[0]? = some "Integer" := rfl
    have hcase := readCase_payload hnames hname (by decide) (int64.write n ++ rest)
    simp only [defaultValue, List.append_assoc, hcase]
    exact congrArg (Option.map _) ((int64_recovers n).read rest)
  | real x =>
    have hname : defaultCases[1]? = some "Real" := rfl
    have hcase := readCase_payload hnames hname (by decide) (real.write x ++ rest)
    have hreal : real.Recovers levels x x := real_recovers x
    simp only [defaultValue, List.append_assoc, hcase]
    exact congrArg (Option.map _) (hreal.read rest)
  | text t =>
    have hname : defaultCases[2]? = some "Text" := rfl
    have hcase := readCase_payload hnames hname (by decide) (text.write t ++ rest)
    simp only [defaultValue, List.append_assoc, hcase]
    exact congrArg (Option.map _) ((text_recovers h).read rest)

theorem defaultValue_present (v : DefaultValue) : defaultValue.Present v := by
  refine present_of_readHead (.map 1) nofun ?_
  intro rest
  have hlength : 1 < 0x100000000 := by decide
  simp only [defaultValue, List.append_assoc, readHead_writeMapHead hlength]
  exact ⟨_, rfl⟩

theorem reference_recovers {r : Reference} (h : Fits r) :
    reference.Recovers (levels + 1) r r.unlinked := by
  obtain ⟨hsource, hentity, hfield⟩ := h
  exact record_recovers (by decide)
    (.cons (text_recovers hsource) <| .cons (text_recovers hentity) <|
      .cons (text_recovers hfield) .nil) rfl rfl

theorem structSource_recovers {s : StructSource} (h : Fits s) :
    structSource.Recovers (levels + 1) s s.unlinked :=
  record_recovers (by decide) (.cons (text_recovers h) .nil) rfl rfl

theorem link_recovers {k : Handle.Kind} {l : Link k} (h : Fits l) :
    (link k).Recovers (levels + 1) l l.unlinked :=
  record_recovers (by decide) (.cons (text_recovers h) .nil) rfl rfl

theorem flags_recovers (f : FieldFlags) : flags.Recovers (levels + 1) f f :=
  record_recovers (by decide)
    (.cons (bool_recovers f.rowid) <| .cons (bool_recovers f.null) <|
      .cons (bool_recovers f.unique) <| .cons (bool_recovers f.noExport) .nil) rfl rfl

theorem validation_recovers {v : Validation} (h : Fits v) :
    validation.Recovers (levels + 1) v v :=
  record_recovers (by decide)
    (.cons (choice_recovers (by decide) v.op) <| .cons (defaultValue_recovers h) .nil) rfl rfl

/-- **A field is recovered without its bindings.** -/
theorem field_recovers {f : Field} (h : Fits f) : field.Recovers (levels + 3) f f.unlinked := by
  obtain ⟨hname, href, hstruct, henum, hbits, hdefault, hdoc, hvalidations⟩ := h
  exact record_recovers (by decide)
    (.cons (fieldId_recovers f.id) <| .cons (text_recovers hname) <|
      .cons (choice_recovers (by decide) f.type) <|
      .cons (optionalRecord_fits (by decide) href reference_recovers) <|
      .cons (optionalRecord_fits (by decide) hstruct structSource_recovers) <|
      .cons (optionalRecord_fits (by decide) henum link_recovers) <|
      .cons (optionalRecord_fits (by decide) hbits link_recovers) <|
      .cons (optional_fits_self hdefault (fun _ => defaultValue_present _) defaultValue_recovers) <|
      .cons (optionalText_fits hdoc) <| .cons (flags_recovers f.flags) <|
      .cons (list_fits_self hvalidations validation_recovers) <|
      .cons (choice_recovers (by decide) f.onUpdate) <|
      .cons (choice_recovers (by decide) f.onDelete) .nil) rfl rfl

/-! ### Specifications -/

theorem searchParam_recovers {p : SearchParam} (h : Fits p) :
    searchParam.Recovers (levels + 3) p p.unlinked :=
  record_recovers (by decide)
    (.cons (path_recovers h) <| .cons (choice_recovers (by decide) p.op) .nil) rfl rfl

theorem sortOrder_recovers {o : SortOrder} (h : Fits o) :
    sortOrder.Recovers (levels + 3) o o.unlinked :=
  record_recovers (by decide)
    (.cons (path_recovers h) <| .cons (choice_recovers (by decide) o.direction) .nil) rfl rfl

theorem aggregate_recovers {a : Aggregate} (h : Fits a) :
    aggregate.Recovers (levels + 3) a a.unlinked := by
  obtain ⟨hpath, hgroup⟩ := h
  exact record_recovers (by decide)
    (.cons (choice_recovers (by decide) a.kind) <| .cons (path_recovers hpath) <|
      .cons (path_recovers hgroup) .nil) rfl rfl

theorem distinct_recovers {x : Distinct} (h : Fits x) :
    distinct.Recovers (levels + 3) x x.unlinked :=
  record_recovers (by decide) (.cons (path_recovers h) .nil) rfl rfl

/-- **A search is recovered without its chains** and not known to match one row at most. -/
theorem search_recovers {s : Search} (h : Fits s) : search.Recovers (levels + 5) s s.unlinked := by
  obtain ⟨hname, hdoc, hparams, horders, haggregate, hdistinct⟩ := h
  exact record_recovers (by decide)
    (.cons (optionalText_fits hname) <| .cons (choice_recovers (by decide) s.kind) <|
      .cons (optionalText_fits hdoc) <| .cons (list_fits hparams searchParam_recovers) <|
      .cons (list_fits horders sortOrder_recovers) <|
      .cons (optionalRecord_fits (by decide) haggregate aggregate_recovers) <|
      .cons (optionalRecord_fits (by decide) hdistinct distinct_recovers) <|
      .cons (optional_self uint64_present uint64_recovers) <|
      .cons (optional_self uint64_present uint64_recovers) .nil) rfl rfl

theorem modification_recovers {m : Modification} (h : Fits m) :
    modification.Recovers (levels + 3) m m.unlinked :=
  record_recovers (by decide)
    (.cons (path_recovers h) <| .cons (choice_recovers (by decide) m.modifier) .nil) rfl rfl

theorem rowConstraint_recovers {c : RowConstraint} (h : Fits c) :
    rowConstraint.Recovers (levels + 3) c c.unlinked :=
  record_recovers (by decide)
    (.cons (path_recovers h) <| .cons (choice_recovers (by decide) c.op) .nil) rfl rfl

theorem mutation_recovers {m : Mutation} (h : Fits m) :
    mutation.Recovers (levels + 5) m m.unlinked := by
  obtain ⟨hname, hdoc, hmodify, hconstrain⟩ := h
  exact record_recovers (by decide)
    (.cons (optionalText_fits hname) <| .cons (choice_recovers (by decide) m.kind) <|
      .cons (optionalText_fits hdoc) <| .cons (list_fits hmodify modification_recovers) <|
      .cons (list_fits hconstrain rowConstraint_recovers) .nil) rfl rfl

theorem unique_recovers {u : Unique} (h : Fits u) : unique.Recovers (levels + 4) u u.unlinked :=
  record_recovers (by decide) (.cons (list_fits h path_recovers) .nil) rfl rfl

/-! ### Grants, entities and roles -/

theorem grant_recovers {g : Grant} (h : Fits g) : grant.Recovers (levels + 2) g g.unlinked := by
  obtain ⟨htarget, hroles⟩ := h
  exact record_recovers (by decide)
    (.cons (choice_recovers (by decide) g.op) <| .cons (optionalText_fits htarget) <|
      .cons (list_fits_self hroles text_recovers) .nil) rfl rfl

theorem rolemap_recovers {m : Rolemap} (h : Fits m) : rolemap.Recovers (levels + 4) m m.unlinked :=
  record_recovers (by decide) (.cons (list_fits h grant_recovers) .nil) rfl rfl

/-- **An entity is recovered as it was declared.** -/
theorem entity_recovers {e : Entity} (h : Fits e) : entity.Recovers (levels + 7) e e.unlinked := by
  obtain ⟨hname, hcanonical, hdoc, hfields, hsearches, hupdates, hdeletes, huniques, hrolemap⟩ := h
  exact record_recovers (by decide)
    (.cons (handle_recovers e.id) <| .cons (text_recovers hname) <|
      .cons (text_recovers hcanonical) <| .cons (optionalText_fits hdoc) <|
      .cons (list_fits hfields field_recovers) <| .cons (list_fits hsearches search_recovers) <|
      .cons (list_fits hupdates mutation_recovers) <|
      .cons (list_fits hdeletes mutation_recovers) <|
      .cons (list_fits huniques unique_recovers) <| .cons (bool_recovers e.insert) <|
      .cons (rolemap_recovers hrolemap) .nil) rfl rfl

theorem role_recovers {r : Role} (h : Fits r) : role.Recovers (levels + 2) r r := by
  obtain ⟨hname, hdoc, hchildren⟩ := h
  exact record_recovers (by decide)
    (.cons (text_recovers hname) <| .cons (optionalText_fits hdoc) <|
      .cons (optional_self handle_present handle_recovers) <|
      .cons (list_fits_self hchildren fun _ => handle_recovers _) <|
      .cons (bool_recovers r.implicit) .nil) rfl rfl

theorem roleTree_recovers {t : RoleTree} (h : Fits t) : roleTree.Recovers (levels + 4) t t := by
  obtain ⟨hroles, hroots⟩ := h
  exact record_recovers (by decide)
    (.cons (list_fits_self hroles role_recovers) <|
      .cons (list_fits_self hroots fun _ => handle_recovers _) .nil) rfl rfl

/-- **A document is recovered as it was declared.** -/
theorem document_recovers {d : Document} (h : Fits d) :
    document.Recovers (levels + 9) d d.unlinked := by
  obtain ⟨hentities, henums, hbitfields, hroles, hlanguages, hfiles⟩ := h
  exact record_recovers (by decide)
    (.cons (list_fits hentities entity_recovers) <|
      .cons (list_fits_self henums enumeration_recovers) <|
      .cons (list_fits_self hbitfields bitfield_recovers) <|
      .cons (roleTree_recovers hroles) <| .cons (list_fits_self hlanguages text_recovers) <|
      .cons (list_fits_self hfiles text_recovers) .nil) rfl rfl

end DataModel.Snapshot
