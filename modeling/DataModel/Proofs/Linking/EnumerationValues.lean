import DataModel.Proofs.Linking.Relinking
import Mathlib.Data.List.Induction
import Mathlib.Order.Bounds.Basic

/-!
# The values of an enumeration

`EnumItem.Numbering` says of a list of integers that they are the values of some items, in unbounded
arithmetic and without reference to how items are numbered: each is the one that is due to its item
(`EnumItem.Due`), none exceeds a word of 64 bits, and no two are equal.  `EnumItem.Fault` says what
is wrong with an item behind items that have their values.

`Enumeration.number_exactly`: an enumeration with items is numbered with the values that its items
have, or it is refused for the first item that is at fault.

The step is one item behind numbered ones.  It has its value or it is at fault
(`EnumItem.due_or_fault`), and an item without a declared value is never at fault for a repetition,
because one more than the greatest value is new (`EnumItem.Due.notMem`).  Hence all items have their
values or one of them is the first at fault (`EnumItem.numbering_or_fault`).  Numbering returns the
values and fails for the fault, so neither of the two equivalences has a second half of its own.
-/

namespace DataModel

namespace EnumItem

/-- The integer that is due to an item behind items with the given values: the declared value, or
else zero at the front and one more than the greatest value behind it. -/
inductive Due (i : EnumItem) (before : List Int) : Int → Prop
  | declared {w : Int64} (value : i.value = some w) : Due i before w.toInt
  | front (value : i.value = none) (first : before = []) : Due i before 0
  | next {m : Int} (value : i.value = none) (greatest : IsGreatest {v | v ∈ before} m) :
      Due i before (m + 1)

/-- **The integers are the values of the items**: each is the one that is due to its item behind the
items in front, all fit into a word, and no two are equal. -/
structure Numbering (items : List EnumItem) (vs : List Int) : Prop where
  length : vs.length = items.length
  due : ∀ (k : Nat) (i : EnumItem) (v : Int), items[k]? = some i → vs[k]? = some v →
    i.Due (vs.take k) v
  fits : ∀ v ∈ vs, v ≤ Int64.maxValue.toInt
  distinct : vs.Nodup

/-- What is wrong with an item behind items with the given values, as the cause of an error. -/
inductive Fault (owner : String) (before : List Int) (i : EnumItem) : Cause → Prop
  /-- The item needs a value above the greatest one that there is. -/
  | exhausted (value : i.value = none) (used : Int64.maxValue.toInt ∈ before) :
      Fault owner before i (.invalidDeclaration (.noValueLeft (qualified owner i.name)))
  /-- The declared value is in use. -/
  | repeated {w : Int64} (value : i.value = some w) (used : w.toInt ∈ before) :
      Fault owner before i (.duplicateValue (qualified owner i.name) w)

/-! ### The greatest value -/

theorem toInt_max (v w : Int64) : (max v w).toInt = max v.toInt w.toInt := by
  have hmax : max v w = if v ≤ w then w else v := rfl
  rw [hmax]
  split_ifs with hle
  · exact (max_eq_right (Int64.le_iff_toInt_le.1 hle)).symm
  · exact (max_eq_left (le_of_not_ge fun h => hle (Int64.le_iff_toInt_le.2 h))).symm

theorem greatest?_concat (before : List Int64) (w : Int64) :
    greatest? (before ++ [w]) = some ((greatest? before).elim w (max · w)) := by
  rw [greatest?, List.foldl_append]
  rfl

theorem greatest?_eq_none_iff {before : List Int64} : greatest? before = none ↔ before = [] := by
  rcases List.eq_nil_or_concat before with rfl | ⟨before, w, rfl⟩
  · simp [greatest?]
  · simp [greatest?_concat]

/-- The greatest of some words is the greatest of their integers. -/
theorem isGreatest_of_greatest? {before : List Int64} {m : Int64} (h : greatest? before = some m) :
    IsGreatest {v | v ∈ before.map Int64.toInt} m.toInt := by
  induction before using List.reverseRecOn generalizing m with
  | nil => cases h
  | append_singleton before w ih =>
    have hset : {v | v ∈ (before ++ [w]).map Int64.toInt} =
        insert w.toInt {v | v ∈ before.map Int64.toInt} := by
      ext v
      simp [or_comm]
    rw [greatest?_concat, Option.some.injEq] at h
    rw [hset, ← h]
    cases hbefore : greatest? before with
    | none =>
      obtain rfl := greatest?_eq_none_iff.1 hbefore
      simp [isGreatest_singleton]
    | some m =>
      rw [Option.elim_some, toInt_max, max_comm]
      exact (ih hbefore).insert w.toInt

/-- The greatest word. -/
theorem toInt_maxValue : Int64.maxValue.toInt = 9223372036854775807 := by decide

/-- Below the greatest word the sum with one does not wrap around. -/
theorem toInt_add_one {m : Int64} (hm : m ≠ Int64.maxValue) : (m + 1).toInt = m.toInt + 1 := by
  have hne : m.toInt ≠ Int64.maxValue.toInt := fun heq => hm (Int64.toInt_inj.1 heq)
  rw [toInt_maxValue] at hne
  have hlow := m.le_toInt
  have hhigh := m.toInt_lt
  have hone : (1 : Int64).toInt = 1 := by decide
  rw [Int64.toInt_add, hone]
  exact Int.bmod_eq_of_le (by omega) (by omega)

/-! ### One item -/

section

variable {i : EnumItem} {before : List Int64} {w : Int64} {vs : List Int} {v : Int}

/-- At most one value is due to an item. -/
theorem Due.unique {v' : Int} (h : i.Due vs v) (h' : i.Due vs v') : v = v' := by
  cases h with
  | @declared w value =>
    cases h' with
    | declared value' => rw [Option.some.inj (value.symm.trans value')]
    | front value' | next value' => cases value.symm.trans value'
  | front value first =>
    subst first
    cases h' with
    | declared value' => cases value.symm.trans value'
    | front => rfl
    | next _ greatest => cases greatest.1
  | next value greatest =>
    cases h' with
    | declared value' => cases value.symm.trans value'
    | front _ first =>
      subst first
      cases greatest.1
    | next _ greatest' => rw [greatest.unique greatest']

/-- **A value that was not declared is new.** -/
theorem Due.notMem (h : i.Due vs v) (hvalue : i.value = none) : v ∉ vs := by
  cases h with
  | declared value => cases hvalue.symm.trans value
  | front _ first => simp [first]
  | next _ greatest =>
    intro hmem
    have hle := greatest.2 hmem
    omega

/-- **Numbering gives an item the value that is due to it**, if that is a word. -/
theorem number?_eq_some_iff :
    i.number? before = some w ↔ i.Due (before.map Int64.toInt) w.toInt := by
  have hdue {v : Int64} (h : i.Due (before.map Int64.toInt) v.toInt) :
      v = w ↔ i.Due (before.map Int64.toInt) w.toInt :=
    ⟨fun heq => heq ▸ h, fun h' => Int64.toInt_inj.1 (h.unique h')⟩
  rw [number?]
  cases hvalue : i.value with
  | some v =>
    rw [Option.some.injEq]
    exact hdue (.declared hvalue)
  | none =>
    cases hgreatest : greatest? before with
    | none =>
      rw [Option.some.injEq]
      refine hdue (.front hvalue ?_)
      rw [greatest?_eq_none_iff.1 hgreatest, List.map_nil]
    | some m =>
      have hnext : i.Due (before.map Int64.toInt) (m.toInt + 1) :=
        .next hvalue (isGreatest_of_greatest? hgreatest)
      dsimp only
      split_ifs with hmax
      · refine ⟨nofun, fun h => ?_⟩
        -- One more than the greatest word is none.
        have hsum := hnext.unique h
        have hlt := w.toInt_lt
        rw [hmax, toInt_maxValue] at hsum
        omega
      · rw [← toInt_add_one hmax] at hnext
        rw [Option.some.injEq]
        exact hdue hnext

/-- An item gets no value if it has none and the greatest one that there is is in use. -/
theorem number?_eq_none_iff :
    i.number? before = none ↔ i.value = none ∧ Int64.maxValue.toInt ∈ before.map Int64.toInt := by
  rw [number?]
  cases hvalue : i.value with
  | some v => simp
  | none =>
    cases hgreatest : greatest? before with
    | none => simp [greatest?_eq_none_iff.1 hgreatest]
    | some m =>
      have hm := isGreatest_of_greatest? hgreatest
      dsimp only
      rw [ite_eq_left_iff, eq_self, true_and]
      simp only [reduceCtorEq, imp_false, not_not]
      constructor
      · rintro rfl
        exact hm.1
      · intro hmem
        have hle : Int64.maxValue.toInt ≤ m.toInt := hm.2 hmem
        have hlt := m.toInt_lt
        rw [toInt_maxValue] at hle
        exact Int64.toInt_inj.1 (toInt_maxValue ▸ by omega)

/-- **An item has a new value or is at fault.** -/
theorem due_or_fault (owner : String) (i : EnumItem) (before : List Int64) :
    (∃ w, i.number? before = some w ∧ w ∉ before) ∨
      ∃ c, i.Fault owner (before.map Int64.toInt) c := by
  cases hnumber : i.number? before with
  | none =>
    obtain ⟨hvalue, hused⟩ := number?_eq_none_iff.1 hnumber
    exact .inr ⟨_, .exhausted hvalue hused⟩
  | some w =>
    by_cases hused : w ∈ before
    · have hmem : w.toInt ∈ before.map Int64.toInt := List.mem_map_of_mem hused
      cases hvalue : i.value with
      | none => exact absurd hmem ((number?_eq_some_iff.1 hnumber).notMem hvalue)
      | some v =>
        obtain rfl : v = w := by
          rw [number?, hvalue] at hnumber
          exact Option.some.inj hnumber
        exact .inr ⟨_, .repeated hvalue hmem⟩
    · exact .inl ⟨w, rfl, hused⟩

end

/-! ### All items -/

section

variable {items : List EnumItem} {i : EnumItem} {vs : List Int} {v : Int}

theorem numbering_nil : Numbering [] [] := by
  constructor
  · rfl
  · intro k i v hi
    rw [List.getElem?_nil] at hi
    cases hi
  · exact List.forall_mem_nil _
  · exact List.nodup_nil

/-- **One more item is numbered** behind the others. -/
theorem numbering_concat : Numbering (items ++ [i]) (vs ++ [v]) ↔
    Numbering items vs ∧ i.Due vs v ∧ v ≤ Int64.maxValue.toInt ∧ v ∉ vs := by
  constructor
  · intro h
    have hlength : vs.length = items.length := by simpa using h.length
    have hfits := h.fits
    have hdistinct := h.distinct
    rw [List.forall_mem_append, List.forall_mem_singleton] at hfits
    rw [← List.concat_eq_append, List.nodup_concat] at hdistinct
    refine ⟨⟨hlength, fun k j w hj hw => ?_, hfits.1, hdistinct.2⟩, ?_, hfits.2, hdistinct.1⟩
    · have hk : k < vs.length := (List.getElem?_eq_some_iff.1 hw).1
      have hdue := h.due k j w
      rw [List.getElem?_append_left (hlength ▸ hk), List.getElem?_append_left hk,
        List.take_append_of_le_length hk.le] at hdue
      exact hdue hj hw
    · have hdue := h.due items.length i v (by simp) (by simp [← hlength])
      rwa [← hlength, List.take_left] at hdue
  · rintro ⟨h, hdue, hfits, hnew⟩
    have hlength := h.length
    constructor
    · simp [hlength]
    · intro k j w hj hw
      rcases Nat.lt_or_ge k vs.length with hk | hk
      · rw [List.getElem?_append_left (hlength ▸ hk)] at hj
        rw [List.getElem?_append_left hk] at hw
        rw [List.take_append_of_le_length hk.le]
        exact h.due k j w hj hw
      · rw [List.getElem?_append_right (hlength ▸ hk), List.getElem?_singleton] at hj
        rw [List.getElem?_append_right hk, List.getElem?_singleton] at hw
        split_ifs at hj hw with hlast
        obtain rfl := Option.some.inj hj
        obtain rfl := Option.some.inj hw
        obtain rfl : k = vs.length := by omega
        rwa [List.take_left]
    · rw [List.forall_mem_append, List.forall_mem_singleton]
      exact ⟨h.fits, hfits⟩
    · rw [← List.concat_eq_append, List.nodup_concat]
      exact ⟨hnew, h.distinct⟩

/-- The values of items are determined. -/
theorem Numbering.unique {vs' : List Int} (h : Numbering items vs) (h' : Numbering items vs') :
    vs = vs' := by
  induction items using List.reverseRecOn generalizing vs vs' with
  | nil => rw [List.length_eq_zero_iff.1 h.length, List.length_eq_zero_iff.1 h'.length]
  | append_singleton items i ih =>
    rcases List.eq_nil_or_concat vs with rfl | ⟨vs, v, rfl⟩
    · simpa using h.length
    rcases List.eq_nil_or_concat vs' with rfl | ⟨vs', v', rfl⟩
    · simpa using h'.length
    rw [List.concat_eq_append, numbering_concat] at h h'
    obtain rfl := ih h.1 h'.1
    rw [h.2.1.unique h'.2.1]

/-- The integers of numbered items are those of words. -/
theorem Numbering.exists_words (h : Numbering items vs) :
    ∃ ws : List Int64, ws.map Int64.toInt = vs := by
  induction items using List.reverseRecOn generalizing vs with
  | nil =>
    obtain rfl := List.length_eq_zero_iff.1 h.length
    exact ⟨[], rfl⟩
  | append_singleton items i ih =>
    rcases List.eq_nil_or_concat vs with rfl | ⟨vs, v, rfl⟩
    · exact ⟨[], rfl⟩
    · rw [List.concat_eq_append, numbering_concat] at h
      obtain ⟨h, hdue, hfits, _⟩ := h
      obtain ⟨ws, rfl⟩ := ih h
      -- No value is below the words either, as it is declared or above another one.
      have hlow : -2 ^ 63 ≤ v := by
        cases hdue with
        | @declared w => exact w.le_toInt
        | front => omega
        | next _ greatest =>
          obtain ⟨w, _, rfl⟩ := List.mem_map.1 greatest.1
          have := w.le_toInt
          omega
      rw [toInt_maxValue] at hfits
      refine ⟨ws ++ [Int64.ofInt v], ?_⟩
      rw [List.map_append, List.map_singleton, Int64.toInt_ofInt_of_le hlow (by omega),
        List.concat_eq_append]

/-- **All items have their values, or one of them is the first at fault.** -/
theorem numbering_or_fault (owner : String) (items : List EnumItem) :
    (∃ ws : List Int64, Numbering items (ws.map Int64.toInt)) ∨
      ∃ before i after, items = before ++ i :: after ∧ ∃ ws : List Int64,
        Numbering before (ws.map Int64.toInt) ∧ ∃ c, i.Fault owner (ws.map Int64.toInt) c := by
  induction items using List.reverseRecOn with
  | nil => exact .inl ⟨[], numbering_nil⟩
  | append_singleton items i ih =>
    rcases ih with ⟨ws, h⟩ | ⟨before, j, after, rfl, hfault⟩
    · rcases due_or_fault owner i ws with ⟨w, hw, hnew⟩ | hfault
      · refine .inl ⟨ws ++ [w], ?_⟩
        rw [List.map_append, List.map_singleton, numbering_concat]
        refine ⟨h, number?_eq_some_iff.1 hw, ?_, ?_⟩
        · have hlt := w.toInt_lt
          rw [toInt_maxValue]
          omega
        · intro hmem
          obtain ⟨w', hw', heq⟩ := List.mem_map.1 hmem
          exact hnew (Int64.toInt_inj.1 heq ▸ hw')
      · exact .inr ⟨items, i, [], rfl, ws, h, hfault⟩
    · exact .inr ⟨before, j, after ++ [i], by simp, hfault⟩

/-- An item at fault has no value. -/
theorem Fault.not_numbering {owner : String} {c : Cause} (hfault : i.Fault owner vs c)
    (h : Numbering items vs) (vs' : List Int) : ¬Numbering (items ++ [i]) vs' := by
  intro h'
  rcases List.eq_nil_or_concat vs' with rfl | ⟨vs', v, rfl⟩
  · simpa using h'.length
  rw [List.concat_eq_append, numbering_concat] at h'
  obtain ⟨h', hdue, hfits, hnew⟩ := h'
  obtain rfl := h.unique h'
  cases hfault with
  | exhausted value used =>
    cases hdue with
    | declared value' => cases value.symm.trans value'
    | front _ first => simp [first] at used
    | next _ greatest =>
      have hle := greatest.2 used
      omega
  | repeated value used =>
    obtain rfl := hdue.unique (.declared value)
    exact hnew used

end

end EnumItem

/-! ### Numbering -/

namespace Enumeration

open EnumItem (Numbering)

variable {e e' : Enumeration} {items items' rest : List EnumItem} {before ws : List Int64}

/-- The items with the given values. -/
def setValues (items : List EnumItem) (ws : List Int64) : List EnumItem :=
  List.zipWith (fun i w => { i with value := some w }) items ws

/-- **Numbering goes on behind numbered items.** -/
theorem numberItems_append (hlength : ws.length = items.length)
    (h : e.numberItems before items = .ok (setValues items ws)) :
    e.numberItems before (items ++ rest) =
      (setValues items ws ++ ·) <$> e.numberItems (before ++ ws) rest := by
  induction items generalizing before ws with
  | nil =>
    obtain rfl := List.length_eq_zero_iff.1 hlength
    rw [List.append_nil, List.nil_append]
    exact (id_map _).symm
  | cons i items ih =>
    obtain ⟨w, ws, rfl⟩ := List.exists_cons_of_length_eq_add_one hlength
    obtain ⟨v, hv, hnew, items', hitems, heq⟩ := numberItems_cons_eq_ok.1 h
    obtain ⟨hi, rfl⟩ := List.cons.inj heq
    obtain rfl : v = w := Option.some.inj (congrArg EnumItem.value hi)
    have hrest := ih (Nat.succ.inj hlength) hitems
    have hcontains : before.contains v = false := by simpa using hnew
    rw [List.cons_append, numberItems, hv]
    dsimp only
    rw [hcontains, if_neg Bool.false_ne_true, hrest, List.append_assoc, List.singleton_append]
    cases e.numberItems (before ++ v :: ws) rest <;> rfl

/-- An item that is due a new value gets it. -/
theorem numberItems_singleton {i : EnumItem} {w : Int64} (hnumber : i.number? before = some w)
    (hnew : w ∉ before) : e.numberItems before [i] = .ok [{ i with value := some w }] :=
  numberItems_cons_eq_ok.2 ⟨w, hnumber, hnew, [], rfl, rfl⟩

/-- **Numbering gives items their values.** -/
theorem numberItems_of_numbering (h : Numbering items (ws.map Int64.toInt)) :
    e.numberItems [] items = .ok (setValues items ws) := by
  induction items using List.reverseRecOn generalizing ws with
  | nil => rfl
  | append_singleton items i ih =>
    rcases List.eq_nil_or_concat ws with rfl | ⟨ws, w, rfl⟩
    · simpa using h.length
    · rw [List.concat_eq_append, List.map_append, List.map_singleton,
        EnumItem.numbering_concat] at h
      obtain ⟨h, hdue, -, hnew⟩ := h
      have hlength : ws.length = items.length := by simpa using h.length
      have hnew : w ∉ ws := fun hw => hnew (List.mem_map_of_mem hw)
      rw [numberItems_append hlength (ih h), List.nil_append,
        numberItems_singleton (EnumItem.number?_eq_some_iff.2 hdue) hnew, List.concat_eq_append,
        setValues, setValues, List.zipWith_append hlength.symm]
      rfl

/-- An item at fault is refused. -/
theorem numberItems_cons_of_fault {i : EnumItem} {c : Cause}
    (hfault : i.Fault e.name (ws.map Int64.toInt) c) : e.numberItems ws (i :: rest) = fail c := by
  cases hfault with
  | exhausted value used =>
    rw [numberItems, EnumItem.number?_eq_none_iff.2 ⟨value, used⟩]
    rfl
  | @repeated w value used =>
    have hnumber : i.number? ws = some w := EnumItem.number?_eq_some_iff.2 (.declared value)
    obtain ⟨w', hw', heq⟩ := List.mem_map.1 used
    obtain rfl := Int64.toInt_inj.1 heq
    rw [numberItems, hnumber]
    exact if_pos (List.contains_iff_mem.2 hw')

/-- **Numbering fails for the first item at fault.** -/
theorem numberItems_of_fault {i : EnumItem} {c : Cause} (h : Numbering items (ws.map Int64.toInt))
    (hfault : i.Fault e.name (ws.map Int64.toInt) c) :
    e.numberItems [] (items ++ i :: rest) = fail c := by
  rw [numberItems_append (by simpa using h.length) (numberItems_of_numbering h), List.nil_append,
    numberItems_cons_of_fault hfault]
  rfl

/-- There is a first item at fault, and the cause says why: the items in front have their values,
and with this one no more all have. -/
def FirstFault (e : Enumeration) (c : Cause) : Prop :=
  ∃ before i after vs, e.items = before ++ i :: after ∧ Numbering before vs ∧
    i.Fault e.name vs c ∧ ∀ vs', ¬Numbering (before ++ [i]) vs'

/-- Items have their values, or there is a first one at fault. -/
theorem numbering_or_firstFault (e : Enumeration) :
    (∃ vs, Numbering e.items vs) ∨ ∃ c, e.FirstFault c := by
  rcases EnumItem.numbering_or_fault e.name e.items with
    ⟨ws, h⟩ | ⟨before, i, after, hsplit, ws, hbefore, c, hfault⟩
  · exact .inl ⟨_, h⟩
  · exact .inr ⟨c, before, i, after, _, hsplit, hbefore, hfault, hfault.not_numbering hbefore⟩

/-- An enumeration without items is refused. -/
theorem number_of_items_nil (h : e.items = []) :
    e.number = .error { cause := .invalidDeclaration (.noItems .enumeration e.name) } := by
  rw [number, h]
  rfl

/-- An enumeration is numbered with the values of its items. -/
theorem number_of_numbering {vs : List Int} (hne : e.items ≠ []) (h : Numbering e.items vs) :
    e.number = .ok { e with items := setValues e.items (vs.map Int64.ofInt) } := by
  obtain ⟨ws, rfl⟩ := h.exists_words
  have hwords : (ws.map Int64.toInt).map Int64.ofInt = ws := by
    rw [List.map_map]
    exact List.map_id'' (fun w => w.ofInt_toInt) ws
  refine number_eq_ok_iff.2 ⟨hne, _, numberItems_of_numbering h, ?_⟩
  rw [hwords]

/-- An enumeration is refused for the first item at fault. -/
theorem number_of_firstFault {c : Cause} (h : e.FirstFault c) :
    e.number = .error { cause := c } := by
  obtain ⟨before, i, after, vs, hsplit, hbefore, hfault, _⟩ := h
  obtain ⟨ws, rfl⟩ := hbefore.exists_words
  have hitems : e.numberItems [] e.items = fail c := by
    rw [hsplit, numberItems_of_fault hbefore hfault]
  have hne : ¬e.items.isEmpty := by simp [hsplit]
  rw [number, if_neg hne, hitems]
  rfl

/-- **An enumeration is numbered with the values that its items have, or refused for the first item
that is at fault.**  No value wraps around on its way into a word, and only an item with a declared
value is ever refused as a duplicate. -/
theorem number_exactly (e : Enumeration) :
    (∀ e', e.number = .ok e' ↔ e.items ≠ [] ∧ ∃ vs, Numbering e.items vs ∧
      { e with items := setValues e.items (vs.map Int64.ofInt) } = e') ∧
    (∀ vs, Numbering e.items vs → ∀ v ∈ vs, (Int64.ofInt v).toInt = v) ∧
    ∀ err, e.number = .error err ↔
      e.items = [] ∧ err = { cause := .invalidDeclaration (.noItems .enumeration e.name) } ∨
      ∃ c, e.FirstFault c ∧ err = { cause := c } := by
  -- Each of the three cases excludes the others by its result.
  have hcases : e.items = [] ∨ (e.items ≠ [] ∧ ∃ vs, Numbering e.items vs) ∨
      ∃ c, e.FirstFault c := by
    rcases eq_or_ne e.items [] with hnil | hne
    · exact .inl hnil
    · exact .inr (e.numbering_or_firstFault.imp_left fun h => ⟨hne, h⟩)
  refine ⟨fun e' => ⟨fun hok => ?_, ?_⟩, ?_, fun err => ⟨fun herr => ?_, ?_⟩⟩
  · rcases hcases with hnil | ⟨hne, vs, h⟩ | ⟨c, h⟩
    · cases (number_of_items_nil hnil).symm.trans hok
    · exact ⟨hne, vs, h, Except.ok.inj ((number_of_numbering hne h).symm.trans hok)⟩
    · cases (number_of_firstFault h).symm.trans hok
  · rintro ⟨hne, vs, h, rfl⟩
    exact number_of_numbering hne h
  · intro vs h v hv
    obtain ⟨ws, rfl⟩ := h.exists_words
    obtain ⟨w, _, rfl⟩ := List.mem_map.1 hv
    rw [Int64.ofInt_toInt]
  · rcases hcases with hnil | ⟨hne, vs, h⟩ | ⟨c, h⟩
    · exact .inl ⟨hnil, (Except.error.inj ((number_of_items_nil hnil).symm.trans herr)).symm⟩
    · cases (number_of_numbering hne h).symm.trans herr
    · exact .inr ⟨c, h, (Except.error.inj ((number_of_firstFault h).symm.trans herr)).symm⟩
  · rintro (⟨hnil, rfl⟩ | ⟨c, h, rfl⟩)
    · exact number_of_items_nil hnil
    · exact number_of_firstFault h

-- The third item follows the greatest value, which is not that of the second one.
example (e : Enumeration) :
    e.numberItems [] [{ name := "a", value := some 5 }, { name := "b", value := some (-3) },
      { name := "c" }] =
    .ok [{ name := "a", value := some 5 }, { name := "b", value := some (-3) },
      { name := "c", value := some 6 }] := rfl

end Enumeration

end DataModel
