import DataModel.Linking.Heights
import Mathlib.Data.List.Chain
import Mathlib.Logic.Relation
import Mathlib.Order.Bounds.Basic

/-!
# Longest chains

The heights of a graph (`Heights.IsHeight`) are the lengths of its longest chains
(`IsHeight.isGreatest_chain`), and where they exist there is no cycle (`IsHeight.acyclic`).
-/

namespace DataModel.Heights

variable {edges : Edges}

/-- There is an edge from `v` to `t`. -/
abbrev Edge (edges : Edges) (v t : Nat) : Prop := t ∈ edges.out v

/-- A closed walk that repeats no vertex but the one that it begins and ends with. -/
def IsCycle (edges : Edges) (cycle : List Nat) : Prop :=
  ∃ v rest, cycle = v :: rest ++ [v] ∧ (v :: rest).Nodup ∧ cycle.IsChain (Edge edges)

/-- A function is the height of a graph: it falls along every edge, and from a vertex of positive
height some edge leads exactly one lower. -/
structure IsHeight (edges : Edges) (height : Nat → Nat) : Prop where
  lt : ∀ v, ∀ t ∈ edges.out v, height t < height v
  attained : ∀ v, height v ≠ 0 → ∃ t ∈ edges.out v, height v = height t + 1

namespace IsHeight

variable {height : Nat → Nat}

/-- The height is one more than the greatest height that an edge leads to. -/
theorem isGreatest_succ (h : IsHeight edges height) {v t : Nat} (ht : t ∈ edges.out v) :
    IsGreatest {m | ∃ u ∈ edges.out v, m = height u + 1} (height v) := by
  constructor
  · exact h.attained v (Nat.ne_of_gt (Nat.zero_lt_of_lt (h.lt v t ht)))
  · rintro m ⟨u, hu, rfl⟩
    exact h.lt v u hu

/-- No chain from a vertex is longer than its height. -/
theorem length_le (h : IsHeight edges height) {chain : List Nat} {v : Nat}
    (hc : (v :: chain).IsChain (Edge edges)) : chain.length ≤ height v := by
  induction chain generalizing v with
  | nil => exact Nat.zero_le _
  | cons t chain ih =>
    rw [List.isChain_cons_cons] at hc
    have hrest := ih hc.2
    have hlt := h.lt v t hc.1
    rw [List.length_cons]
    omega

/-- Some chain from a vertex is as long as its height. -/
theorem exists_chain (h : IsHeight edges height) (v : Nat) :
    ∃ chain : List Nat, (v :: chain).IsChain (Edge edges) ∧ chain.length = height v := by
  -- The chain steps down by one height at a time.
  induction hm : height v generalizing v with
  | zero => exact ⟨[], List.isChain_singleton v, rfl⟩
  | succ m ih =>
    obtain ⟨t, ht, hvt⟩ := h.attained v (by omega)
    obtain ⟨chain, hc, hl⟩ := ih t (by omega)
    refine ⟨t :: chain, List.isChain_cons_cons.2 ⟨ht, hc⟩, ?_⟩
    rw [List.length_cons, hl]

/-- **The height is the length of the longest chain.** -/
theorem isGreatest_chain (h : IsHeight edges height) (v : Nat) :
    IsGreatest {m | ∃ chain : List Nat, (v :: chain).IsChain (Edge edges) ∧ chain.length = m}
      (height v) := by
  constructor
  · exact h.exists_chain v
  · rintro m ⟨chain, hc, rfl⟩
    exact h.length_le hc

/-- **A graph with heights has no cycle.** -/
theorem acyclic (h : IsHeight edges height) (v : Nat) : ¬ Relation.TransGen (Edge edges) v v := by
  -- Along a chain of edges the height falls, so it cannot come back to where it was.
  have hlt {u t : Nat} (hut : Relation.TransGen (Edge edges) u t) : height t < height u := by
    induction hut with
    | single ht => exact h.lt _ _ ht
    | tail _ ht ih => exact Nat.lt_trans (h.lt _ _ ht) ih
  exact fun hv => Nat.lt_irrefl _ (hlt hv)

end IsHeight

/-- A cycle leads from a vertex back to itself. -/
theorem IsCycle.transGen {cycle : List Nat} (h : IsCycle edges cycle) :
    ∃ v, Relation.TransGen (Edge edges) v v := by
  obtain ⟨v, rest, rfl, _, hc⟩ := h
  refine ⟨v, ?_⟩
  cases rest with
  | nil => exact .single (List.isChain_cons_cons.1 hc).1
  | cons t rest =>
    rw [List.cons_append, List.cons_append, List.isChain_cons_cons, ← List.cons_append] at hc
    have ht := List.relationReflTransGen_of_exists_isChain_cons _ hc.2 (by simp : _ = v)
    exact Relation.TransGen.head' hc.1 ht

/-- From every vertex of a cycle an edge leads on. -/
theorem IsCycle.exists_edge {cycle : List Nat} (h : IsCycle edges cycle) {u : Nat}
    (hu : u ∈ cycle) : ∃ t, t ∈ edges.out u := by
  obtain ⟨v, rest, rfl, _, hc⟩ := h
  have hu' : u ∈ v :: rest := by
    rcases List.mem_append.1 hu with hu | hu
    · exact hu
    · rw [List.mem_singleton.1 hu]
      exact List.mem_cons_self
  -- Behind the vertex stands the next one, or else the vertex that closes the cycle.
  obtain ⟨before, after, hsplit⟩ := List.append_of_mem hu'
  rw [hsplit, List.append_assoc] at hc
  have hrest := hc.right_of_append
  cases after with
  | nil => exact ⟨v, (List.isChain_cons_cons.1 hrest).1⟩
  | cons t after => exact ⟨t, (List.isChain_cons_cons.1 hrest).1⟩

end DataModel.Heights
