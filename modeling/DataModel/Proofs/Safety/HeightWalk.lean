import DataModel.Proofs.Linking.HeightWalk
import DataModel.Proofs.Outcome
import DataModel.Proofs.Safety.Watched

/-!
# The walk that finds the heights, watched

The walk reads and writes colours and heights by position, and where it meets a grey vertex it looks
for it on its path.  On a graph whose edges lead to vertices it never misses one
(`Watched.walk_eq`): the invariant of the walk says that a grey vertex is on the path, and a step
looks at the vertices of the path and at their targets only (`Watched.walkStep_eq`).  The loop ends
because every step takes one from the work that is left (`Heights.Walk.work`).
-/

namespace DataModel.Watched

open Heights

variable {ε : Type}

/-! ### Watched forms -/

def paint (w : Walk) (v : Nat) (c : Colour) : Watched ε Walk := do
  return { w with colours := ← write w.colours v c }

/-- The entity `v` is above `t`. -/
def raise (w : Walk) (v t : Nat) : Watched ε Walk := do
  let height := max (← read w.heights v) ((← read w.heights t) + 1)
  return { w with heights := ← write w.heights v height }

/-- Enters an entity from the end of the path. -/
def push (w : Walk) (v : Nat) : Watched ε Walk := do
  return { ← paint w v .grey with frames := (v, 0) :: w.frames }

/-- The path from `t` on, which has to be on it, and back to `t`. -/
def cycle (w : Walk) (t : Nat) : Watched ε (List Nat) :=
  let path := (w.frames.map Prod.fst).reverse
  match path.idxOf? t with
  | some start => return path.drop start ++ [t]
  | none => stop .offPath

/-- Follows the next edge of `v`, which the path ends with, or leaves `v` if there is none. -/
def walkStep (edges : Edges) (w : Walk) (v next : Nat) (below : List (Nat × Nat)) :
    Watched (List Nat) Walk := do
  match (← read edges v)[next]? with
  | some t =>
    let w := { w with frames := (v, next + 1) :: below }
    match ← read w.colours t with
    | .white => push w t
    | .grey => of (.error (← cycle w t))
    | .black => raise w v t
  | none =>
    let w := { ← paint w v .black with frames := below }
    match below with
    | [] => return w
    | (u, _) :: _ => raise w u v

/-- Walks until the path is empty, which has to be the case after a number of steps. -/
def walkOn (edges : Edges) : (steps : Nat) → Walk → Watched (List Nat) Walk
  | 0, w => if w.frames.isEmpty then return w else stop .endless
  | steps + 1, w =>
    match w.frames with
    | [] => return w
    | (v, next) :: below => do walkOn edges steps (← walkStep edges w v next below)

/-- Finds the height of an entity and of everything below it, or returns a cycle. -/
def walkFrom (edges : Edges) (w : Walk) (v : Nat) : Watched (List Nat) Walk := do
  if (← read w.colours v) = .black then return w
  else walkOn edges (edges.steps (List.range edges.size)) (← push w v)

/-- The height of every entity, or a cycle. -/
def walk (edges : Edges) : Watched (List Nat) (Array Nat) :=
  Walk.heights <$> (List.range edges.size).foldlM (walkFrom edges) (Walk.start edges.size)

/-! ### Positions of vertices -/

variable {edges : Edges} {w : Walk} {v t next : Nat} {below : List (Nat × Nat)}

theorem paint_eq {c : Colour} (hv : v < w.colours.size) :
    (paint w v c : Watched ε Walk) = pure (w.paint v c) := by
  rw [paint, write_eq hv, pure_bind]
  rfl

theorem push_eq (hv : v < w.colours.size) : (push w v : Watched ε Walk) = pure (w.push v) := by
  rw [push, paint_eq hv, pure_bind]
  rfl

theorem raise_eq (hv : v < w.heights.size) (ht : t < w.heights.size) :
    (raise w v t : Watched ε Walk) = pure (w.raise v t) := by
  rw [raise, read_eq hv 0, pure_bind, read_eq ht 0, pure_bind]
  dsimp only
  rw [write_eq hv, pure_bind]
  rfl

/-- A vertex of the path is found on it. -/
theorem cycle_eq (ht : t ∈ w.frames.map Prod.fst) :
    (cycle w t : Watched ε (List Nat)) = pure (w.cycle t) := by
  have hsome : ((w.frames.map Prod.fst).reverse.idxOf? t).isSome := by
    rw [List.isSome_idxOf?]
    exact List.mem_reverse.2 ht
  obtain ⟨start, hstart⟩ := Option.isSome_iff_exists.1 hsome
  rw [cycle, Walk.cycle, hstart]
  rfl

theorem read_colour (h : Walk.Coloured edges w) (hv : v < edges.size) :
    (read w.colours v : Watched ε Colour) = pure (w.colour v) :=
  read_eq (by rwa [h.colours_size]) _

/-- What has a colour is a vertex. -/
theorem lt_size_of_colour (h : Walk.Coloured edges w) (hv : w.colour v ≠ .white) :
    v < edges.size := by
  rw [← h.colours_size]
  exact Walk.lt_size hv

/-! ### The walk -/

/-- **A step of the walk has no fault.** -/
theorem walkStep_eq (h : Walk.State edges w) (hedges : ∀ u, ∀ s ∈ edges.out u, s < edges.size)
    (hframes : w.frames = (v, next) :: below) :
    walkStep edges w v next below = of (w.step edges v next below) := by
  obtain ⟨hgrey, _, hle, _, _⟩ := h.top hframes
  have hgrey' : w.colour v ≠ .white := by rw [hgrey]; nofun
  have hv : v < edges.size := lt_size_of_colour h.toColoured hgrey'
  have hread : (read edges v : Watched (List Nat) _) = pure (edges.out v) := read_eq hv []
  rw [walkStep, hread, pure_bind]
  cases hnext : (edges.out v)[next]? with
  | some t =>
    have ht : t < edges.size := hedges v t (List.mem_of_getElem? hnext)
    have hadvance := h.advance hframes
    dsimp only
    rw [read_colour hadvance ht, pure_bind]
    -- The colour of the target is that of the walk before its frame was advanced.
    show (match w.colour t with
      | .white => _
      | .grey => _
      | .black => _) = _
    cases hcolour : w.colour t with
    | white =>
      rw [Walk.step_of_white hnext hcolour]
      exact push_eq (by rwa [hadvance.colours_size])
    | grey =>
      have hmem := (hadvance.grey t).2 hcolour
      rw [Walk.step_of_grey hnext hcolour]
      dsimp only
      rw [cycle_eq hmem, pure_bind]
    | black =>
      have hblack : w.colour t ≠ .white := by rw [hcolour]; nofun
      rw [Walk.step_of_black hnext hcolour]
      exact raise_eq (hadvance.lt_heights_size hgrey') (hadvance.lt_heights_size hblack)
  | none =>
    have hlength : next = (edges.out v).length :=
      Nat.le_antisymm hle (List.getElem?_eq_none_iff.1 hnext)
    have hpop := h.coloured_pop hframes hlength
    dsimp only
    rw [paint_eq (by rwa [h.colours_size]), pure_bind]
    cases below with
    | nil =>
      rw [Walk.step_of_none_nil hnext]
      rfl
    | cons frame below =>
      obtain ⟨u, m⟩ := frame
      rw [Walk.step_of_none_cons hnext]
      refine raise_eq ?_ ?_
      · refine hpop.lt_heights_size ?_
        rw [(hpop.grey u).1 (by simp)]
        nofun
      · exact h.lt_heights_size hgrey'

/-- **The walk ends within its steps**, and none of them has a fault. -/
theorem walkOn_eq (h : Walk.State edges w) (hedges : ∀ u, ∀ s ∈ edges.out u, s < edges.size)
    {steps : Nat} (hsteps : Walk.work edges w ≤ steps) :
    walkOn edges steps w = of (Walk.run edges steps w) := by
  induction steps generalizing w with
  | zero =>
    have hempty : w.frames = [] := by
      have hrun : Walk.Leads edges _ (.ok w) := h.leads_run hedges hsteps
      exact hrun.2.2
    rw [walkOn, hempty]
    rfl
  | succ steps ih =>
    rw [walkOn, Walk.run]
    cases hframes : w.frames with
    | nil => rfl
    | cons frame below =>
      obtain ⟨v, next⟩ := frame
      dsimp only
      rw [walkStep_eq h hedges hframes, of_bind]
      have hstep := h.leads_step hedges hframes
      cases hr : w.step edges v next below with
      | error cycle => rfl
      | ok w' =>
        rw [hr] at hstep
        obtain ⟨h', _, hwork⟩ := hstep
        rw [of_ok, pure_bind, pure_bind]
        exact ih h' (by omega)

theorem walkFrom_eq (h : Walk.State edges w) (hedges : ∀ u, ∀ s ∈ edges.out u, s < edges.size)
    (hempty : w.frames = []) (hv : v < edges.size) :
    walkFrom edges w v = of (w.visit edges v) := by
  rw [walkFrom, Walk.visit, read_colour h.toColoured hv, pure_bind]
  split_ifs with hblack
  · rfl
  · have hwhite : w.colour v = .white := by
      by_contra hne
      exact hblack (h.black_of_ne_white hempty hne)
    rw [push_eq (by rwa [h.colours_size]), pure_bind]
    refine walkOn_eq ?_ hedges ?_
    · exact h.state_push (by rw [hempty]; exact .nil) hwhite hv
    · rw [Walk.work_push h.toColoured hwhite hv, Walk.work, hempty]
      exact Walk.steps_filter_le _ _

/-- Vertices are visited one after the other, without a fault. -/
theorem foldlM_walkFrom_eq (h : Walk.State edges w)
    (hedges : ∀ u, ∀ s ∈ edges.out u, s < edges.size) (hempty : w.frames = []) {vs : List Nat}
    (hvs : ∀ v ∈ vs, v < edges.size) :
    vs.foldlM (walkFrom edges) w = of (vs.foldlM (fun w v => w.visit edges v) w) := by
  induction vs generalizing w with
  | nil => rfl
  | cons v vs ih =>
    rw [List.forall_mem_cons] at hvs
    rw [List.foldlM_cons, List.foldlM_cons, walkFrom_eq h hedges hempty hvs.1, of_bind]
    have hvisit := h.leads_visit hedges hempty hvs.1
    cases hr : w.visit edges v with
    | error cycle => rfl
    | ok w' =>
      rw [hr] at hvisit
      obtain ⟨h', _, hempty', _⟩ := hvisit
      rw [of_ok, pure_bind, pure_bind]
      exact ih h' hempty' hvs.2

/-- **The walk over a whole graph has no fault.** -/
theorem walk_eq (hedges : ∀ u, ∀ s ∈ edges.out u, s < edges.size) :
    walk edges = of (compute edges) := by
  rw [walk, compute, foldlM_walkFrom_eq Walk.state_start hedges rfl, map_of]
  exact fun v hv => List.mem_range.1 hv

/-- The heights that were found are those of the vertices. -/
theorem size_of_compute {heights : Array Nat}
    (hedges : ∀ u, ∀ s ∈ edges.out u, s < edges.size) (h : compute edges = .ok heights) :
    heights.size = edges.size := by
  have hrange : ∀ v ∈ List.range edges.size, v < edges.size := fun v hv => List.mem_range.1 hv
  have hwalk := Walk.state_start.leads_visits hedges rfl hrange
  rw [compute] at h
  obtain ⟨w, hw, rfl⟩ := map_eq_ok.1 h
  rw [hw] at hwalk
  exact hwalk.1.heights_size

end DataModel.Watched
