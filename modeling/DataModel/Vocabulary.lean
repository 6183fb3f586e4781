/-!
# Closed vocabularies

A *vocabulary* is a closed set of values with one word for each: the field types, the operators of
a search, the actions of a reference. Snapshots store these words and messages quote them.

Main statement: `Vocabulary.ofWord?_word`, a word that was written names its value again.
-/

namespace DataModel

/-- A closed set of values, in declaration order, with one word for each. -/
class Vocabulary (α : Type) where
  /-- Every value, in declaration order. -/
  all : List α
  /-- The word for a value. -/
  word : α → String
  /-- Nothing is left out of `all`. -/
  mem_all : ∀ a : α, a ∈ all
  /-- No two entries of `all` share a word. -/
  nodup_words : (all.map word).Nodup

namespace Vocabulary

/-- A map that repeats no image on a list separates its members. -/
theorem eq_of_map_nodup {α β : Type} {f : α → β} {a b : α} (hf : f a = f b) :
    ∀ {l : List α}, (l.map f).Nodup → a ∈ l → b ∈ l → a = b
  | c :: l, hl, ha, hb => by
    rw [List.map_cons, List.nodup_cons] at hl
    rcases List.mem_cons.1 ha with ha | ha <;> rcases List.mem_cons.1 hb with hb | hb
    · rw [ha, hb]
    · exact absurd (List.mem_map.2 ⟨b, hb, by rw [← hf, ha]⟩) hl.1
    · exact absurd (List.mem_map.2 ⟨a, ha, by rw [hf, hb]⟩) hl.1
    · exact eq_of_map_nodup hf hl.2 ha hb

variable {α : Type} [Vocabulary α]

/-- The first value whose word is `w`. -/
def ofWord? (w : String) : Option α :=
  (all (α := α)).find? fun a => word a == w

/-- The words in declaration order. -/
def words : List String :=
  (all (α := α)).map word

theorem word_injective {a b : α} (h : word a = word b) : a = b :=
  eq_of_map_nodup h nodup_words (mem_all a) (mem_all b)

/-- **A written word names its value again.** -/
theorem ofWord?_word (a : α) : ofWord? (word a) = some a := by
  unfold ofWord?
  cases h : (all (α := α)).find? fun b => word b == word a with
  | none =>
    have := List.find?_eq_none.1 h a (mem_all a)
    simp at this
  | some b =>
    have := List.find?_some h
    simp only [beq_iff_eq] at this
    rw [word_injective this]

end Vocabulary

end DataModel
