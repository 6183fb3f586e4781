import DataModel.Proofs.Linking.Bindings
import DataModel.Proofs.Linking.DeclaredNames

/-!
# Linking twice

`Document.link_linked`: linking a linked document again, under the same options, gives the same
linked document.

Linking does not read linked state (`Document.link_unlinked`), so the second link is that of the
declarations with one change: the items of the enumerations have the values that the first link gave
them.  Numbering keeps the values that it finds, and these are the ones that it would have given
(`Enumeration.number_of_number`).  Every step of the first link then is one of the second
(`Document.LinkSteps.numbered`).
-/

namespace DataModel

/-! ### Numbering -/

namespace Enumeration

variable {e e' : Enumeration}

/-- The first item has its value, and the others theirs behind it. -/
theorem numberItems_cons_eq_ok {before : List Int64} {i : EnumItem} {items items' : List EnumItem} :
    e.numberItems before (i :: items) = .ok items' ↔
      ∃ v, i.number? before = some v ∧ v ∉ before ∧
      ∃ rest, e.numberItems (before ++ [v]) items = .ok rest ∧
        { i with value := some v } :: rest = items' := by
  rw [numberItems]
  cases i.number? before with
  | none => simp
  | some v =>
    simp only [List.contains_eq_mem, decide_eq_true_eq, Option.some.injEq, exists_eq_left']
    split_ifs with hv
    · simp [hv]
    · simp only [bind_eq_ok, pure_eq_ok, hv, not_false_eq_true, true_and]

/-- An item with a value keeps it. -/
theorem number?_some (i : EnumItem) (v : Int64) (before : List Int64) :
    { i with value := some v }.number? before = some v := rfl

/-- **Numbering numbered items again changes nothing.** -/
theorem numberItems_of_numberItems {before : List Int64} {items items' : List EnumItem}
    (h : e.numberItems before items = .ok items') :
    e'.numberItems before items' = .ok items' := by
  induction items generalizing before items' with
  | nil =>
    obtain rfl := Except.ok.inj h
    rfl
  | cons i items ih =>
    obtain ⟨v, _, hv, rest, hrest, rfl⟩ := numberItems_cons_eq_ok.1 h
    exact numberItems_cons_eq_ok.2 ⟨v, number?_some i v before, hv, rest, ih hrest, rfl⟩

/-- Numbering keeps the names of the items. -/
theorem names_of_numberItems {before : List Int64} {items items' : List EnumItem}
    (h : e.numberItems before items = .ok items') :
    items'.map EnumItem.name = items.map EnumItem.name := by
  induction items generalizing before items' with
  | nil =>
    obtain rfl := Except.ok.inj h
    rfl
  | cons i items ih =>
    obtain ⟨v, _, _, rest, hrest, rfl⟩ := numberItems_cons_eq_ok.1 h
    rw [List.map_cons, List.map_cons, ih hrest]

/-- **An enumeration is numbered item by item.** -/
theorem number_eq_ok_iff :
    e.number = .ok e' ↔ e.items ≠ [] ∧
      ∃ items, e.numberItems [] e.items = .ok items ∧ { e with items } = e' := by
  unfold number
  simp only [guardFlaw_eq_ok, bind_eq_ok, pure_eq_ok, List.isEmpty_iff]

theorem number_of_number (h : e.number = .ok e') : e'.number = .ok e' := by
  obtain ⟨hne, items, hitems, rfl⟩ := number_eq_ok_iff.1 h
  refine number_eq_ok_iff.2 ⟨?_, items, numberItems_of_numberItems hitems, rfl⟩
  rintro (rfl : items = [])
  have hnames := names_of_numberItems hitems
  rw [List.map_nil, eq_comm, List.map_eq_nil_iff] at hnames
  exact hne hnames

/-- A numbered enumeration is admitted like the declared one. -/
theorem checkDeclared_of_number (h : e.number = .ok e') : e'.checkDeclared = e.checkDeclared := by
  obtain ⟨_, items, hitems, rfl⟩ := number_eq_ok_iff.1 h
  rw [checkDeclared, checkDeclared, names_of_numberItems hitems]

end Enumeration

/-! ### The second link -/

namespace Document

variable {d : Document} {options : LinkOptions} {bound high granted : Document}
  {l : LinkedDocument}

/-- **Numbered enumerations are numbered as they are.** -/
theorem numbered_again {enums : List Enumeration}
    (henums : (d.enums.mapM fun e => placed { entity := some e.name } e.number) = .ok enums) :
    (enums.mapM fun e => placed { entity := some e.name } e.number) = .ok enums := by
  refine mapM_eq_self_iff.2 fun e' he' => ?_
  obtain ⟨e, _, hnumber⟩ := exists_of_mem_mapM henums he'
  exact placed_eq_ok.2 (Enumeration.number_of_number (placed_eq_ok.1 hnumber))

/-- **The numbered declarations are admitted** like those without numbers. -/
theorem checkDeclared_numbered {enums : List Enumeration}
    (henums : (d.enums.mapM fun e => placed { entity := some e.name } e.number) = .ok enums)
    (h : d.checkDeclared = .ok ()) : { d with enums }.checkDeclared = .ok () := by
  have hnames : enums.map Enumeration.name = d.enums.map Enumeration.name := by
    refine map_eq_of_mapM (fun e e' h => ?_) henums
    obtain ⟨items, rfl⟩ := Enumeration.eq_of_number (placed_eq_ok.1 h)
    rfl
  obtain ⟨htop, hentities, hdeclared, hbitfields⟩ := checkDeclared_eq_ok_iff.1 h
  refine checkDeclared_eq_ok_iff.2 ⟨?_, hentities, fun e' he' => ?_, hbitfields⟩
  · rw [topLevelNames] at htop ⊢
    rw [hnames]
    exact htop
  · obtain ⟨e, he, hnumber⟩ := exists_of_mem_mapM henums he'
    rw [Enumeration.checkDeclared_of_number (placed_eq_ok.1 hnumber)]
    exact hdeclared e he

/-- **The numbered declarations are linked by the steps of the declarations.** -/
theorem LinkSteps.numbered (s : LinkSteps options d bound high granted l) :
    LinkSteps options { d with enums := l.document.enums } bound high granted l := by
  have hd : d.Placed := checkPlacement_eq_ok_iff.1 s.placement
  have hplacement : ({ d with enums := l.document.enums } : Document).checkPlacement = .ok () := by
    rw [← checkPlacement_unlinked, ← s.unlinked, checkPlacement_unlinked]
    exact checkPlacement_eq_ok_iff.2 s.placed
  obtain ⟨enums, henums, hbitfields, entities, hentities, hbound⟩ :=
    (bindFields_eq_ok_iff hd).1 s.fields
  obtain rfl : l.document.enums = enums := by rw [s.enums, ← hbound]
  refine { s with placement := hplacement, declared := fun hr => ?_, fields := ?_ }
  · exact checkDeclared_numbered henums (s.declared hr)
  · apply (bindFields_eq_ok_iff (checkPlacement_eq_ok_iff.1 hplacement)).2
    exact ⟨l.document.enums, numbered_again henums, hbitfields, entities, hentities, hbound⟩

/-- **Linking again changes nothing.**  A linked document links under the options that it was linked
under, and the result is the linked document itself: its document in every part, its order and its
unused roles. -/
theorem link_linked (h : d.link options = .ok l) : l.document.link options = .ok l := by
  obtain ⟨bound, high, granted, s⟩ := link_eq_ok_iff.1 h
  rw [← link_unlinked, s.unlinked, link_unlinked]
  exact link_eq_ok_iff.2 ⟨bound, high, granted, s.numbered⟩

/-- The sessions, with a stale handle among them, link to a document that links to itself. -/
theorem link_linked_sessions :
    ∃ l, (sessions true).link .trusted = .ok l ∧ l.document.link .trusted = .ok l ∧
      l.document ≠ sessions true := by
  obtain ⟨l, h, hne⟩ := exists_ok_of_any (r := (sessions true).link .trusted)
    (p := fun l => decide (l.document ≠ sessions true)) (by decide +kernel)
  exact ⟨l, h, link_linked h, of_decide_eq_true hne⟩

end Document

end DataModel
