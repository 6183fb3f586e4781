import DataModel.Proofs.Handles.Retained

/-!
# Exchanged declarations

Entities, enumerations, bit-field sets and fields can be exchanged in their lists, while linking
relies on handles being places.  `Document.link_of_exchanges` says that this is safe.  Whatever is
exchanged in a document whose handles are places, linking returns what it returned before if all
lists are back in their order, and otherwise the first pass reports a declaration or a field that
does not hold the handle of its place.  Documents that are built without exchanges are such
documents.

Exchanges keep what they move: a document is *shuffled* (`Document.Shuffled`) if its lists hold the
same declarations in some order, and each entity the same fields.  Handles tell apart what stands in
one list, so handles that are places put every list back in its order
(`Document.Shuffled.eq_of_placed`).  If they are not places, the first pass fails, and it has no
other reason to fail than a misplaced declaration (`Document.checkPlacement_eq_error`), because
there are no more fields in an entity than there are handles.
-/

namespace DataModel

/-! ### Shuffled documents -/

/-- The second entity is the first one with its fields in some order. -/
structure Entity.Shuffled (e e' : Entity) : Prop where
  same : e' = { e with fields := e'.fields }
  fields : e.fields.Perm e'.fields

/-- **The second document is the first one with its declarations and their fields in some
order.** -/
structure Document.Shuffled (d d' : Document) : Prop where
  same : d' = { d with entities := d'.entities, enums := d'.enums, bitfields := d'.bitfields }
  length : d'.entities.length = d.entities.length
  entities : ∀ e' ∈ d'.entities, ∃ e ∈ d.entities, e.Shuffled e'
  enums : d.enums.Perm d'.enums
  bitfields : d.bitfields.Perm d'.bitfields

/-- What can be exchanged, in the order in which it stands. -/
def Document.arrangement (d : Document) : List Entity × List Enumeration × List Bitfield :=
  (d.entities, d.enums, d.bitfields)

namespace Document

variable {d d' d'' : Document}

@[refl]
theorem Shuffled.refl (d : Document) : d.Shuffled d :=
  ⟨rfl, rfl, fun e he => ⟨e, he, rfl, .refl _⟩, .refl _, .refl _⟩

/-- **An exchange shuffles a shuffled document again.** -/
theorem Shuffled.change {edit : Edit} (h : d.Shuffled d') (hexchange : edit.keepsPlaces = false)
    (hc : d'.Change edit d'') : d.Shuffled d'' := by
  cases hc with
  | swapEntities swapped =>
    have hperm := perm_of_swapAt swapped
    refine { h with same := ?_, length := ?_, entities := fun e he => ?_ }
    · rw [h.same]
    · rw [← hperm.length_eq, h.length]
    · exact h.entities e (hperm.mem_iff.2 he)
  | swapEnumerations swapped =>
    refine { h with same := ?_, enums := h.enums.trans (perm_of_swapAt swapped) }
    rw [h.same]
  | swapBitfields swapped =>
    refine { h with same := ?_, bitfields := h.bitfields.trans (perm_of_swapAt swapped) }
    rw [h.same]
  | onEntity addressed found edited =>
    cases Entity.change_of_perform edited with
    | swapFields swapped =>
      obtain ⟨e, he, hshuffled⟩ := h.entities _ (List.mem_of_getElem? found)
      refine { h with same := ?_, length := ?_, entities := ?_ }
      · rw [h.same]
      · rw [List.length_set, h.length]
      · have hfields := hshuffled.fields.trans (perm_of_swapAt swapped)
        refine forall_mem_set h.entities ⟨e, he, ?_, hfields⟩
        rw [hshuffled.same]
    | _ => cases hexchange
  | _ => cases hexchange

/-- Exchanges shuffle a document, also where they are refused. -/
theorem Shuffled.run {exchanges : List Edit} (hexchanges : ∀ e ∈ exchanges, e.keepsPlaces = false) :
    d.Shuffled (d.run (exchanges.map .edit)) := by
  induction exchanges using List.reverseRecOn with
  | nil => exact .refl d
  | append_singleton exchanges exchange ih =>
    rw [List.forall_mem_append, List.forall_mem_singleton] at hexchanges
    rw [List.map_append, List.map_singleton, run_concat]
    refine after_of_outcomes (ih hexchanges.1) ?_ ?_
    · rintro edit d' hedit hchange
      obtain rfl := Act.edit.inj hedit
      exact (ih hexchanges.1).change hexchanges.2 hchange
    · rintro options l hlink
      cases hlink

/-- **Handles that are places put a shuffled document in order.** -/
theorem Shuffled.eq_of_placed (h : d.Shuffled d') (hd : d.Placed) (hd' : d'.Placed) : d' = d := by
  have hentities : d'.entities = d.entities := by
    apply hd.entities.eq_of_mem hd'.entities h.length
    intro e' he'
    obtain ⟨e, he, hshuffled⟩ := h.entities e' he'
    have hfields : e'.fields = e.fields := by
      apply (hd.fields he).eq_of_mem (hd'.fields he') hshuffled.fields.length_eq.symm
      exact fun f hf => hshuffled.fields.mem_iff.2 hf
    rw [hshuffled.same, hfields]
    exact he
  have henums : d'.enums = d.enums :=
    hd.enums.eq_of_mem hd'.enums h.enums.length_eq.symm fun e he => h.enums.mem_iff.2 he
  have hbitfields : d'.bitfields = d.bitfields :=
    hd.bitfields.eq_of_mem hd'.bitfields h.bitfields.length_eq.symm fun b hb =>
      h.bitfields.mem_iff.2 hb
  rw [h.same, hentities, henums, hbitfields]

end Document

/-! ### The check of places -/

/-- The check passes, or it fails on a flaw of a declaration at a known place. -/
def FailsOnFlaws (check : Except Error Unit) : Prop :=
  check = .ok () ∨ ∃ flaw context,
    check = .error { cause := .invalidDeclaration flaw, context := some context }

namespace FailsOnFlaws

variable {check : Except Error Unit}

theorem ok : FailsOnFlaws (.ok ()) := .inl rfl

theorem flaw (context : Context) (flaw : Flaw) :
    FailsOnFlaws (placed context (failFlaw flaw)) :=
  .inr ⟨flaw, context, rfl⟩

/-- Checks that are made one after the other. -/
theorem bind {next : Unit → Except Error Unit} (h : FailsOnFlaws check)
    (hnext : FailsOnFlaws (next ())) : FailsOnFlaws (check >>= next) := by
  rcases h with rfl | ⟨flaw, context, rfl⟩
  · exact hnext
  · exact .inr ⟨flaw, context, rfl⟩

theorem forM {α : Type} {check : α → Except Error Unit} {as : List α}
    (h : ∀ a ∈ as, FailsOnFlaws (check a)) : FailsOnFlaws (as.forM check) := by
  rw [List.forM_eq_forM]
  induction as with
  | nil => exact .ok
  | cons a as ih =>
    rw [List.forall_mem_cons] at h
    rw [List.forM_cons]
    exact h.1.bind (ih h.2)

end FailsOnFlaws

theorem Handle.checkPlace_failsOnFlaws {k : Handle.Kind} (id : Handle k) (name : String)
    (position : Nat) : FailsOnFlaws (id.checkPlace name position) := by
  rw [checkPlace]
  split_ifs
  · exact .flaw _ _
  · exact .ok

/-- There is a handle for the place of a field, so nothing but a misplaced field is reported. -/
theorem Field.checkPlace_failsOnFlaws (e : Entity) {position : Nat} (f : Field)
    (hposition : position < Handle.bound) : FailsOnFlaws (f.checkPlace e position) := by
  obtain ⟨id, hid⟩ := FieldId.exists_allocate e.id hposition
  rw [checkPlace, hid, ok_bind]
  split_ifs
  · exact .flaw _ _
  · exact .ok

theorem Entity.checkPlace_failsOnFlaws {position : Nat} {e : Entity}
    (hroom : e.fields.length ≤ Handle.bound) : FailsOnFlaws (e.checkPlace position) := by
  apply FailsOnFlaws.bind (Handle.checkPlace_failsOnFlaws _ _ _)
  apply FailsOnFlaws.forM
  rintro ⟨f, i⟩ hf
  have hi := (List.getElem?_eq_some_iff.1 (List.mk_mem_zipIdx_iff_getElem?.1 hf)).1
  exact Field.checkPlace_failsOnFlaws e f (hi.trans_le hroom)

namespace Document

variable {d d' : Document}

/-- **What is not in its place is reported**, and nothing else is, if there is room for all
fields. -/
theorem checkPlacement_eq_error (hroom : ∀ e ∈ d.entities, e.fields.length ≤ Handle.bound)
    (hd : ¬d.Placed) : ∃ flaw context,
      d.checkPlacement = .error { cause := .invalidDeclaration flaw, context := some context } := by
  have hflaws : FailsOnFlaws d.checkPlacement := by
    apply FailsOnFlaws.bind
    · apply FailsOnFlaws.forM
      rintro ⟨e, i⟩ he
      have hmem := List.mem_of_getElem? (List.mk_mem_zipIdx_iff_getElem?.1 he)
      exact Entity.checkPlace_failsOnFlaws (hroom e hmem)
    · apply FailsOnFlaws.bind
      · exact .forM fun _ _ => Handle.checkPlace_failsOnFlaws _ _ _
      · exact .forM fun _ _ => Handle.checkPlace_failsOnFlaws _ _ _
  exact hflaws.resolve_left fun hok => hd (checkPlacement_eq_ok_iff.1 hok)

/-- **What the check of places reports, linking reports** in its first pass, whatever the
options. -/
theorem link_eq_error {flaw : Flaw} {context : Context}
    (h : d.checkPlacement = .error { cause := .invalidDeclaration flaw, context := some context })
    (options : LinkOptions) :
    d.link options = .error {
      cause := .invalidDeclaration flaw
      context := some { context with pass := some .declarations } } := by
  rw [link, bindUpToRoles, h]
  rfl

/-- Fields in their places have handles, so there is room for them in any order. -/
theorem Shuffled.room (h : d.Shuffled d') (hd : d.Placed) :
    ∀ e ∈ d'.entities, e.fields.length ≤ Handle.bound := by
  intro e' he'
  obtain ⟨e, he, hshuffled⟩ := h.entities e' he'
  rw [← hshuffled.fields.length_eq]
  by_contra hlt
  have hat := List.getElem?_eq_getElem (Nat.lt_of_not_le hlt)
  have hindex := (hd.field e he Handle.bound _ hat).2
  have hbound := e.fields[Handle.bound].id.index_lt
  omega

/-! ### Linking -/

/-- **Exchanged declarations are never bound wrongly.**  Handles are places in a document that was
built without exchanges.  Whatever is exchanged in a document whose handles are places, if the lists
are not what they were, linking fails in its first pass on an invalid declaration, and if they are,
linking returns what it returned. -/
theorem link_of_exchanges (acts : List Act) (exchanges : List Edit)
    (hexchanges : ∀ e ∈ exchanges, e.keepsPlaces = false) (options : LinkOptions) :
    (acts.all Act.keepsPlaces = true → (run {} acts).Placed) ∧
    ((run {} (acts ++ exchanges.map .edit)).arrangement = (run {} acts).arrangement →
      (run {} (acts ++ exchanges.map .edit)).link options = (run {} acts).link options) ∧
    ((run {} acts).Placed →
      (run {} (acts ++ exchanges.map .edit)).arrangement ≠ (run {} acts).arrangement →
      ∃ flaw context, context.pass = some .declarations ∧
        (run {} (acts ++ exchanges.map .edit)).link options =
          .error { cause := .invalidDeclaration flaw, context := some context }) := by
  have hshuffled := Shuffled.run (d := run {} acts) hexchanges
  rw [← run_append] at hshuffled
  refine ⟨placed_run, fun hsame => ?_, fun hplaced hdiffer => ?_⟩
  · obtain ⟨hentities, hlists⟩ := Prod.mk.inj hsame
    obtain ⟨henums, hbitfields⟩ := Prod.mk.inj hlists
    rw [hshuffled.same, hentities, henums, hbitfields]
  · have hmisplaced : ¬(run {} (acts ++ exchanges.map .edit)).Placed := by
      intro hplaced'
      exact hdiffer (congrArg arrangement (hshuffled.eq_of_placed hplaced hplaced'))
    obtain ⟨flaw, context, hcheck⟩ :=
      checkPlacement_eq_error (hshuffled.room hplaced) hmisplaced
    exact ⟨flaw, _, rfl, link_eq_error hcheck options⟩

/-- Entities that are exchanged are reported, and linked if they are exchanged back. -/
theorem link_of_exchanges_school :
    let exchange : Edit := .swapEntities 0 1
    (∃ flaw context, context.pass = some .declarations ∧
      (run {} (school ++ [.edit exchange])).link .trusted =
        .error { cause := .invalidDeclaration flaw, context := some context }) ∧
    (run {} (school ++ [.edit exchange, .edit exchange])).link .trusted =
      (run {} school).link .trusted ∧
    ((run {} school).link .trusted).isOk = true := by
  intro exchange
  have hexchange : exchange.keepsPlaces = false := rfl
  obtain ⟨hplaced, -, hreported⟩ :=
    link_of_exchanges school [exchange] (List.forall_mem_singleton.2 hexchange) .trusted
  obtain ⟨-, hlinked, -⟩ :=
    link_of_exchanges school [exchange, exchange] (by simp [hexchange]) .trusted
  refine ⟨hreported (hplaced rfl) ?_, hlinked ?_, ?_⟩
  · rw [run_append, run_school]
    decide +kernel
  · rw [run_append, run_school]
    decide +kernel
  · rw [run_school]
    decide +kernel

end Document

end DataModel
