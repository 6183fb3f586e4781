import DataModel.Handle

/-!
# Field paths

A path is written with dots, `user.email`, and kept as its names. Linking adds the *chain*: the
field that each name stands for. Every field of the chain but the last leads into the entity of the
next.

Main statements: `Path.parse_dotted`, a path whose names hold no dot is read back from its dotted
form, and `Path.dotted_parse`, the path that is read from a text is written as the text.
-/

namespace DataModel

/-- A path of field names and, once linked, the fields that they name. -/
structure Path where
  names : List String
  /-- The fields along the path; empty before linking. -/
  chain : List FieldId := []
  deriving DecidableEq

namespace Path

/-- The path with the given names, unlinked. -/
def ofNames (names : List String) : Path := ⟨names, []⟩

/-- The pieces of a text between its dots; a text without dots is one piece. -/
def pieces : List Char → List (List Char)
  | [] => [[]]
  | c :: cs =>
    if c = '.' then [] :: pieces cs
    else
      match pieces cs with
      | [] => [[c]]
      | piece :: rest => (c :: piece) :: rest

/-- The path written in a text. -/
def parse (s : String) : Path := ofNames ((pieces s.toList).map String.ofList)

/-- The path as it is written. -/
def dotted (p : Path) : String := ".".intercalate p.names

/-- The field at the end of a linked path. -/
def terminal (p : Path) : Option FieldId := p.chain.getLast?

/-- Every name has its field. The empty path always has. -/
def isResolved (p : Path) : Bool := p.chain.length == p.names.length

/-- The path names a field of the entity that it starts from. -/
def isLocal (p : Path) : Bool := p.names.length == 1

/-- The path with its chain. -/
def bind (p : Path) (chain : List FieldId) : Path := { p with chain }

/-- The path as it was declared. -/
def unlinked (p : Path) : Path := { p with chain := [] }

theorem pieces_eq_singleton {cs : List Char} (h : '.' ∉ cs) : pieces cs = [cs] := by
  induction cs with
  | nil => rfl
  | cons c cs ih =>
    rw [List.mem_cons, not_or] at h
    simp [pieces, ih h.2, Ne.symm h.1]

theorem pieces_append_dot {cs : List Char} (h : '.' ∉ cs) (rest : List Char) :
    pieces (cs ++ '.' :: rest) = cs :: pieces rest := by
  induction cs with
  | nil => simp [pieces]
  | cons c cs ih =>
    rw [List.mem_cons, not_or] at h
    simp [pieces, ih h.2, Ne.symm h.1]

theorem pieces_intercalate {names : List (List Char)} (hne : names ≠ [])
    (h : ∀ n ∈ names, '.' ∉ n) : pieces (['.'].intercalate names) = names := by
  induction names with
  | nil => exact absurd rfl hne
  | cons n names ih =>
    cases names with
    | nil => simpa using pieces_eq_singleton (h n (by simp))
    | cons m names =>
      have hn := h n (by simp)
      have hrest := ih (by simp) fun k hk => h k (by simp [hk])
      rw [List.intercalate_cons_cons]
      simpa [hrest] using pieces_append_dot hn (['.'].intercalate (m :: names))

/-- **A path whose names hold no dot is read back from its dotted form.** -/
theorem parse_dotted {names : List String} (hne : names ≠ [])
    (h : ∀ n ∈ names, '.' ∉ n.toList) : parse (ofNames names).dotted = ofNames names := by
  have key : pieces (".".intercalate names).toList = names.map String.toList := by
    rw [String.toList_intercalate]
    exact pieces_intercalate (by simpa using hne) (by simpa using h)
  simp only [parse, dotted, ofNames, key, List.map_map]
  simp [Function.comp_def]

theorem pieces_ne_nil (cs : List Char) : pieces cs ≠ [] := by
  cases cs with
  | nil => exact List.cons_ne_nil _ _
  | cons c cs =>
    rw [pieces]
    split
    · exact List.cons_ne_nil _ _
    · split <;> exact List.cons_ne_nil _ _

/-- The pieces of a text make up the text. -/
theorem intercalate_pieces (cs : List Char) : ['.'].intercalate (pieces cs) = cs := by
  induction cs with
  | nil => rfl
  | cons c cs ih =>
    rw [pieces]
    split
    case isTrue hdot =>
      rw [List.intercalate_cons_of_ne_nil (pieces_ne_nil cs), ih, hdot]
      rfl
    case isFalse =>
      -- The character goes in front of the first piece.
      cases hpieces : pieces cs with
      | nil => exact absurd hpieces (pieces_ne_nil cs)
      | cons piece rest =>
        rw [hpieces] at ih
        rw [← ih]
        cases rest with
        | nil => simp
        | cons next rest => simp

/-- **A path that is read from a text is written as the text.** -/
theorem dotted_parse (s : String) : (parse s).dotted = s := by
  rw [← String.toList_inj, parse, dotted, ofNames, String.toList_intercalate, List.map_map]
  have hid : String.toList ∘ String.ofList = id := funext fun cs => String.toList_ofList
  rw [hid, List.map_id]
  exact intercalate_pieces s.toList

end Path

end DataModel
