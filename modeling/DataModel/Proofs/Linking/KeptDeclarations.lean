import DataModel.Proofs.Linking.Relinking

/-!
# Declarations that linking keeps

`Document.link_keeps`: a linked document holds the declarations that were linked
(`Document.Kept`).  Every entity is the declared one in everything but linked state, the bit-field
sets, the roles and both tables are untouched, and the enumerations have the declared items, where
an item without a value has received one and an item with a value has kept it.

The frame of the whole link is `Document.LinkSteps.unlinked`, put together there from the frame of
each pass.  What is left is the one declared part that linking writes, the values of items, which
numbering goes through item by item.
-/

namespace DataModel

/-! ### Numbered items -/

/-- The second item is the first one with a value, its own if it has one. -/
structure EnumItem.NumberedAs (i i' : EnumItem) : Prop where
  declared : { i' with value := i.value } = i
  kept : ∀ v, i.value = some v → i'.value = some v
  given : i'.value.isSome = true

/-- The second enumeration is the first one with a value for every item. -/
structure Enumeration.NumberedAs (e e' : Enumeration) : Prop where
  declared : { e' with items := e.items } = e
  items : List.Forall₂ EnumItem.NumberedAs e.items e'.items

/-- The value that an item receives is its own, if it has one. -/
theorem EnumItem.numberedAs_of_number? {i : EnumItem} {before : List Int64} {v : Int64}
    (h : i.number? before = some v) : i.NumberedAs { i with value := some v } := by
  refine ⟨rfl, fun w hw => ?_, rfl⟩
  rw [number?, hw] at h
  exact h.symm

namespace Enumeration

variable {e e' : Enumeration}

theorem numberedAs_of_numberItems {before : List Int64} {items items' : List EnumItem}
    (h : e.numberItems before items = .ok items') :
    List.Forall₂ EnumItem.NumberedAs items items' := by
  induction items generalizing before items' with
  | nil =>
    obtain rfl := Except.ok.inj h
    exact .nil
  | cons i items ih =>
    obtain ⟨v, hv, _, rest, hrest, rfl⟩ := numberItems_cons_eq_ok.1 h
    exact .cons (EnumItem.numberedAs_of_number? hv) (ih hrest)

/-- **Numbering an enumeration gives its items values**, and changes nothing else. -/
theorem numberedAs_of_number (h : e.number = .ok e') : e.NumberedAs e' := by
  obtain ⟨_, items, hitems, rfl⟩ := number_eq_ok_iff.1 h
  exact ⟨rfl, numberedAs_of_numberItems hitems⟩

end Enumeration

/-! ### Kept documents -/

namespace Document

/-- The second document holds the declarations of the first, in the same order, with linked state of
its own and a value for every item of an enumeration. -/
structure Kept (d d' : Document) : Prop where
  entities : d'.entities.map Entity.unlinked = d.entities.map Entity.unlinked
  enums : List.Forall₂ Enumeration.NumberedAs d.enums d'.enums
  bitfields : d'.bitfields = d.bitfields
  roles : d'.roles = d.roles
  languages : d'.languages = d.languages
  sourceFiles : d'.sourceFiles = d.sourceFiles

variable {d bound high granted : Document} {options : LinkOptions} {l : LinkedDocument}

/-- The enumerations of a linked document are the declared ones with their numbers. -/
theorem LinkSteps.numberedAs (s : LinkSteps options d bound high granted l) :
    List.Forall₂ Enumeration.NumberedAs d.enums l.document.enums := by
  have hd : d.Placed := checkPlacement_eq_ok_iff.1 s.placement
  obtain ⟨enums, henums, _, _, _, rfl⟩ := (bindFields_eq_ok_iff hd).1 s.fields
  rw [s.enums]
  refine (mapM_eq_ok.1 henums).imp fun e e' h => ?_
  exact Enumeration.numberedAs_of_number (placed_eq_ok.1 h)

/-- **Linking keeps the declarations.**  Whatever the options, a linked document differs from the
document that was linked in linked state and in the values of items only, and there it keeps every
value that was declared. -/
theorem link_keeps (h : d.link options = .ok l) : d.Kept l.document := by
  obtain ⟨bound, high, granted, s⟩ := link_eq_ok_iff.1 h
  have hparts := s.unlinked
  constructor
  · exact congrArg Document.entities hparts
  · exact s.numberedAs
  · exact s.bitfields
  · have hroles := congrArg Document.roles hparts
    exact hroles
  · have hlanguages := congrArg Document.languages hparts
    exact hlanguages
  · have hfiles := congrArg Document.sourceFiles hparts
    exact hfiles

/-- The sessions with stale linked state, and with two more items of their enumeration, the first of
which has a value. -/
def lostSessions : Document :=
  { sessions true with
    enums :=
      [{ Enumeration.declare ⟨0, Handle.bound_pos⟩ "state" with
          items := [{ name := "open" }, { name := "closed" },
            { name := "lost", value := some 7, labels := [⟨0, "Lost"⟩] }, { name := "found" }] }] }

/-- The item with a value keeps it, and the others are numbered around it. -/
theorem link_keeps_lostSessions :
    ∃ l, lostSessions.link .trusted = .ok l ∧
      l.document.enums.map (fun e => e.items.map EnumItem.value) =
        [[some 0, some 1, some 7, some 8]] ∧
      l.document.entities ≠ lostSessions.entities ∧ lostSessions.Kept l.document := by
  obtain ⟨l, h, hparts⟩ := exists_ok_of_any (r := lostSessions.link .trusted)
    (p := fun l => decide (l.document.enums.map (fun e => e.items.map EnumItem.value) =
        [[some 0, some 1, some 7, some 8]] ∧ l.document.entities ≠ lostSessions.entities))
    (by decide +kernel)
  obtain ⟨hvalues, hentities⟩ := of_decide_eq_true hparts
  exact ⟨l, h, hvalues, hentities, link_keeps h⟩

end Document

end DataModel
