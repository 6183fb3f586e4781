import DataModel.Proofs.Linking.LongestChains
import Mathlib.Data.List.Nodup
import Mathlib.Tactic.SplitIfs

/-!
# The walk that finds the heights

`Heights.compute_spec`: on any graph the walk ends with the height of every vertex or with a cycle.

The invariant of the walk is `Walk.State`.  The grey vertices are those of the path.  For every
vertex some of the edges were followed to the end (`Walk.Followed`): none for a white vertex, all
for a black one, and for a grey one those before the edge that the path takes from it.  The targets
of these are black, and the height is what they make it.

Every step takes one from the work that is left (`Walk.work`), so the walk ends within its steps.
-/

namespace DataModel.Heights

variable {edges : Edges}

/-! ### Heights above targets -/

/-- The height of a vertex whose edges lead to some targets. -/
def above (height : Nat → Nat) (ts : List Nat) : Nat :=
  ts.foldl (fun h t => max h (height t + 1)) 0

section

variable {height height' : Nat → Nat} {ts : List Nat}

theorem above_concat (height : Nat → Nat) (ts : List Nat) (t : Nat) :
    above height (ts ++ [t]) = max (above height ts) (height t + 1) := by
  rw [above, List.foldl_append]
  rfl

theorem above_congr (h : ∀ t ∈ ts, height' t = height t) : above height' ts = above height ts := by
  induction ts using List.reverseRecOn with
  | nil => rfl
  | append_singleton ts t ih =>
    rw [above_concat, above_concat, h t (by simp), ih fun u hu => h u (List.mem_append_left _ hu)]

theorem lt_above {t : Nat} (ht : t ∈ ts) : height t < above height ts := by
  induction ts using List.reverseRecOn with
  | nil => exact absurd ht List.not_mem_nil
  | append_singleton ts u ih =>
    rw [above_concat]
    rcases List.mem_append.1 ht with ht | ht
    · exact Nat.lt_of_lt_of_le (ih ht) (Nat.le_max_left _ _)
    · rw [List.mem_singleton.1 ht]
      exact Nat.le_max_right _ _

/-- A positive height is one more than the height of some target. -/
theorem exists_above (h : above height ts ≠ 0) : ∃ t ∈ ts, above height ts = height t + 1 := by
  induction ts using List.reverseRecOn with
  | nil => exact absurd rfl h
  | append_singleton ts u ih =>
    rw [above_concat] at h ⊢
    -- Either the last target is the highest, or else one of those before it.
    by_cases hu : above height ts ≤ height u + 1
    · exact ⟨u, by simp, by omega⟩
    · obtain ⟨t, ht, heq⟩ := ih (by omega)
      exact ⟨t, List.mem_append_left _ ht, by omega⟩

end

namespace Walk

variable {w : Walk} {v t u next : Nat} {c : Colour} {ts : List Nat} {below : List (Nat × Nat)}

/-! ### Colours and heights -/

theorem colour_paint_self (hv : v < w.colours.size) : (w.paint v c).colour v = c := by
  simp [paint, colour, hv]

theorem colour_paint_of_ne (hu : u ≠ v) : (w.paint v c).colour u = w.colour u := by
  simp [paint, colour, Ne.symm hu]

theorem colour_push_self (ht : t < w.colours.size) : (w.push t).colour t = .grey :=
  colour_paint_self ht

theorem colour_push_of_ne (hu : u ≠ t) : (w.push t).colour u = w.colour u :=
  colour_paint_of_ne hu

theorem height_raise_self (hv : v < w.heights.size) :
    (w.raise v t).height v = max (w.height v) (w.height t + 1) := by
  simp [raise, height, hv]

theorem height_raise_of_ne (hu : u ≠ v) : (w.raise v t).height u = w.height u := by
  simp [raise, height, Ne.symm hu]

theorem colour_raise : (w.raise v t).colour = w.colour := rfl

/-- What lies outside the graph is white. -/
theorem lt_size (hv : w.colour v ≠ .white) : v < w.colours.size := by
  by_contra hle
  exact hv (by simp [colour, hle])

/-! ### Edges that were followed -/

/-- The edges of `v` to some targets were followed to the end. -/
structure Followed (w : Walk) (v : Nat) (ts : List Nat) : Prop where
  black : ∀ t ∈ ts, w.colour t = .black
  height : w.height v = above w.height ts

theorem Followed.ne_of_mem (h : w.Followed u ts) (ht : t ∈ ts) (hv : w.colour v ≠ .black) :
    t ≠ v := by
  rintro rfl
  exact hv (h.black t ht)

theorem Followed.paint (h : w.Followed u ts)
    (hv : w.colour v ≠ .black) : (w.paint v c).Followed u ts := by
  refine ⟨fun t ht => ?_, h.height⟩
  rw [colour_paint_of_ne (h.ne_of_mem ht hv), h.black t ht]

theorem Followed.frames (h : w.Followed u ts) (fs : List (Nat × Nat)) :
    ({ w with frames := fs } : Walk).Followed u ts := ⟨h.black, h.height⟩

/-- What was followed from other vertices does not rest on a vertex that is raised. -/
theorem Followed.raise (h : w.Followed u ts) (hu : u ≠ v)
    (hv : w.colour v ≠ .black) : (w.raise v t).Followed u ts := by
  refine ⟨h.black, ?_⟩
  rw [height_raise_of_ne hu, h.height]
  exact (above_congr fun s hs => height_raise_of_ne (h.ne_of_mem hs hv)).symm

/-- **A vertex is raised when one more of its edges was followed.** -/
theorem Followed.concat (h : w.Followed v ts)
    (hsize : v < w.heights.size) (hv : w.colour v ≠ .black) (ht : w.colour t = .black) :
    (w.raise v t).Followed v (ts ++ [t]) := by
  have hblack : ∀ s ∈ ts ++ [t], w.colour s = .black := by
    intro s hs
    rcases List.mem_append.1 hs with hs | hs
    · exact h.black s hs
    · rwa [List.mem_singleton.1 hs]
  refine ⟨hblack, ?_⟩
  have habove : above (w.raise v t).height (ts ++ [t]) = above w.height (ts ++ [t]) :=
    above_congr fun s hs => height_raise_of_ne fun heq => hv (heq ▸ hblack s hs)
  rw [habove, above_concat, height_raise_self hsize, h.height]

/-! ### The invariant -/

/-- The frames below `v` wait for it: each has followed its edges before the one that leads to the
frame above it. -/
inductive Waiting (edges : Edges) (w : Walk) : (v : Nat) → (below : List (Nat × Nat)) → Prop
  | nil {v : Nat} : Waiting edges w v []
  | cons {v u next : Nat} {ts : List Nat} {below : List (Nat × Nat)}
      (le : next ≤ (edges.out u).length) (take : (edges.out u).take next = ts ++ [v])
      (followed : w.Followed u ts) (rest : Waiting edges w u below) :
      Waiting edges w v ((u, next) :: below)

/-- The last frame of a path has followed some of its edges, and the others wait for it. -/
inductive Stack (edges : Edges) (w : Walk) : List (Nat × Nat) → Prop
  | nil : Stack edges w []
  | cons {v next : Nat} {below : List (Nat × Nat)} (le : next ≤ (edges.out v).length)
      (followed : w.Followed v ((edges.out v).take next)) (waiting : Waiting edges w v below) :
      Stack edges w ((v, next) :: below)

/-- The vertices of a path are the grey ones, and the edges of the others were all followed, or
none of them. -/
structure Coloured (edges : Edges) (w : Walk) : Prop where
  colours_size : w.colours.size = edges.size
  heights_size : w.heights.size = edges.size
  nodup : (w.frames.map Prod.fst).Nodup
  grey : ∀ v, v ∈ w.frames.map Prod.fst ↔ w.colour v = .grey
  white : ∀ v, w.colour v = .white → w.Followed v []
  black : ∀ v, w.colour v = .black → w.Followed v (edges.out v)

/-- **The invariant of the walk.** -/
structure State (edges : Edges) (w : Walk) : Prop extends Coloured edges w where
  stack : Stack edges w w.frames

theorem Waiting.paint (h : Waiting edges w u below) (hv : w.colour v ≠ .black) :
    Waiting edges (w.paint v c) u below := by
  induction h with
  | nil => exact .nil
  | cons le take followed _ ih => exact .cons le take (followed.paint hv) ih

theorem Waiting.raise (h : Waiting edges w u below)
    (hbelow : v ∉ below.map Prod.fst) (hv : w.colour v ≠ .black) :
    Waiting edges (w.raise v t) u below := by
  induction h with
  | nil => exact .nil
  | cons le take followed _ ih =>
    rw [List.map_cons, List.mem_cons, not_or] at hbelow
    exact .cons le take (followed.raise (Ne.symm hbelow.1) hv) (ih hbelow.2)

theorem Waiting.frames (h : Waiting edges w u below)
    (fs : List (Nat × Nat)) : Waiting edges { w with frames := fs } u below := by
  induction h with
  | nil => exact .nil
  | cons le take followed _ ih => exact .cons le take (followed.frames fs) ih

/-- The frames from the last one on stand along edges, backwards. -/
theorem Waiting.isChain (h : Waiting edges w v below) :
    (v :: below.map Prod.fst).IsChain (flip (Edge edges)) := by
  induction h with
  | nil => exact List.isChain_singleton _
  | @cons v u next ts below _ take _ _ ih =>
    have hedge : v ∈ (edges.out u).take next := by
      rw [take]
      simp
    exact List.isChain_cons_cons.2 ⟨List.mem_of_mem_take hedge, ih⟩

/-! ### Steps that keep the colours right -/

/-- A white vertex is entered. -/
theorem Coloured.push (h : Coloured edges w) (ht : w.colour t = .white)
    (hlt : t < edges.size) : Coloured edges (w.push t) := by
  have hself : (w.push t).colour t = .grey := colour_push_self (by rwa [h.colours_size])
  have hfollowed {v : Nat} {ts : List Nat} (hf : w.Followed v ts) : (w.push t).Followed v ts :=
    (hf.paint (by rw [ht]; nofun)).frames _
  refine ⟨?_, h.heights_size, ?_, ?_, ?_, ?_⟩
  · rw [← h.colours_size]
    exact Array.size_setIfInBounds
  · refine List.nodup_cons.2 ⟨fun hmem => ?_, h.nodup⟩
    have hgrey := (h.grey t).1 hmem
    rw [ht] at hgrey
    cases hgrey
  · intro v
    show v ∈ t :: w.frames.map Prod.fst ↔ _
    rw [List.mem_cons]
    by_cases hv : v = t
    · simp [hv, hself]
    · simp [hv, colour_push_of_ne hv, h.grey v]
  · intro v hwhite
    have hv : v ≠ t := by
      rintro rfl
      rw [hself] at hwhite
      cases hwhite
    rw [colour_push_of_ne hv] at hwhite
    exact hfollowed (h.white v hwhite)
  · intro v hblack
    have hv : v ≠ t := by
      rintro rfl
      rw [hself] at hblack
      cases hblack
    rw [colour_push_of_ne hv] at hblack
    exact hfollowed (h.black v hblack)

/-- A vertex of the path is raised. -/
theorem Coloured.raise (h : Coloured edges w) (hv : w.colour v = .grey) :
    Coloured edges (w.raise v t) := by
  have hv' : w.colour v ≠ .black := by rw [hv]; nofun
  refine ⟨h.colours_size, ?_, h.nodup, h.grey, ?_, ?_⟩
  · rw [← h.heights_size]
    exact Array.size_setIfInBounds
  · intro u hwhite
    refine (h.white u hwhite).raise ?_ hv'
    rintro rfl
    rw [colour_raise, hv] at hwhite
    cases hwhite
  · intro u hblack
    refine (h.black u hblack).raise ?_ hv'
    rintro rfl
    exact hv' hblack

/-- The last vertex of the path is left. -/
theorem Coloured.pop (h : Coloured edges w)
    (hframes : w.frames = (v, next) :: below) (hf : w.Followed v (edges.out v)) :
    Coloured edges { w.paint v .black with frames := below } := by
  have hmem := h.grey
  have hnodup := h.nodup
  rw [hframes, List.map_cons, List.nodup_cons] at hnodup
  simp only [hframes, List.map_cons, List.mem_cons] at hmem
  have hv : w.colour v = .grey := (hmem v).1 (.inl rfl)
  have hv' : w.colour v ≠ .black := by rw [hv]; nofun
  have hself : (w.paint v .black).colour v = .black :=
    colour_paint_self (lt_size (by rw [hv]; nofun))
  have hother {u : Nat} (hu : u ≠ v) : (w.paint v .black).colour u = w.colour u :=
    colour_paint_of_ne hu
  have hfollowed {u : Nat} {ts : List Nat} (hf : w.Followed u ts) :
      ({ w.paint v .black with frames := below } : Walk).Followed u ts := (hf.paint hv').frames _
  refine ⟨?_, h.heights_size, hnodup.2, ?_, ?_, ?_⟩
  · rw [← h.colours_size]
    exact Array.size_setIfInBounds
  · intro u
    show u ∈ below.map Prod.fst ↔ (w.paint v .black).colour u = .grey
    by_cases hu : u = v
    · rw [hu, hself]
      exact ⟨fun hbelow => absurd hbelow hnodup.1, nofun⟩
    · rw [hother hu, ← hmem u]
      simp [hu]
  · intro u hwhite
    have hu : u ≠ v := by
      rintro rfl
      exact absurd (hself.symm.trans hwhite) nofun
    exact hfollowed (h.white u ((hother hu).symm.trans hwhite))
  · intro u hblack
    by_cases hu : u = v
    · rw [hu]
      exact hfollowed hf
    · exact hfollowed (h.black u ((hother hu).symm.trans hblack))

/-- The path stays the same but for the number of edges that were followed from its end. -/
theorem Coloured.advance (h : Coloured edges w) (hframes : w.frames = (v, next) :: below) :
    Coloured edges { w with frames := (v, next + 1) :: below } := by
  have hnodup := h.nodup
  have hgrey := h.grey
  rw [hframes] at hnodup hgrey
  refine ⟨h.colours_size, h.heights_size, hnodup, hgrey, ?_, ?_⟩
  · exact fun u hu => (h.white u hu).frames _
  · exact fun u hu => (h.black u hu).frames _

/-! ### The work that is left -/

/-- The steps of the white vertices. -/
def whites (edges : Edges) (w : Walk) : List Nat :=
  (List.range edges.size).filter fun v => w.colour v = .white

/-- The steps of the vertices of a path. -/
def pending (edges : Edges) : List (Nat × Nat) → Nat
  | [] => 0
  | (v, next) :: below => (edges.out v).length + 1 - next + pending edges below

/-- The steps that are left to the walk, if every white vertex is entered. -/
def work (edges : Edges) (w : Walk) : Nat := edges.steps (whites edges w) + pending edges w.frames

theorem steps_filter_ne {vs : List Nat} (hnodup : vs.Nodup) (ht : t ∈ vs) :
    (edges.out t).length + 1 + edges.steps (vs.filter (· ≠ t)) = edges.steps vs := by
  induction vs with
  | nil => exact absurd ht List.not_mem_nil
  | cons v vs ih =>
    rw [List.nodup_cons] at hnodup
    rcases List.mem_cons.1 ht with rfl | ht
    · have hrest : vs.filter (· ≠ t) = vs := by
        rw [List.filter_eq_self]
        intro u hu
        have hne : u ≠ t := fun heq => hnodup.1 (heq ▸ hu)
        simpa using hne
      rw [List.filter_cons_of_neg (by simp), hrest, Edges.steps]
    · have hne : v ≠ t := fun heq => hnodup.1 (heq ▸ ht)
      have hrest := ih hnodup.2 ht
      rw [List.filter_cons_of_pos (by simpa using hne), Edges.steps, Edges.steps]
      omega

/-- A vertex that is entered takes its work from the white ones to the path. -/
theorem work_push (h : Coloured edges w) (ht : w.colour t = .white)
    (hlt : t < edges.size) : work edges (w.push t) = work edges w := by
  have hwhites : whites edges (w.push t) = (whites edges w).filter (· ≠ t) := by
    rw [whites, whites, List.filter_filter]
    refine List.filter_congr fun v _ => ?_
    by_cases hv : v = t
    · simp [hv, colour_push_self (h.colours_size ▸ hlt)]
    · simp [hv, colour_push_of_ne hv]
  have hmem : t ∈ whites edges w := by simp [whites, hlt, ht]
  have hnodup : (whites edges w).Nodup := List.nodup_range.filter _
  have hsteps : _ = edges.steps (whites edges w) := steps_filter_ne hnodup hmem
  have hpending : pending edges (w.push t).frames =
      (edges.out t).length + 1 + pending edges w.frames := rfl
  rw [work, work, hwhites, hpending]
  omega

/-- An edge that is followed is one step of the work. -/
theorem work_advance (hframes : w.frames = (v, next) :: below)
    (hnext : next < (edges.out v).length) :
    work edges { w with frames := (v, next + 1) :: below } + 1 = work edges w := by
  have hwhites : whites edges { w with frames := (v, next + 1) :: below } = whites edges w := rfl
  rw [work, work, hwhites, hframes, pending, pending]
  omega

/-- A vertex that is left is one step of the work. -/
theorem work_pop (h : Coloured edges w) (hframes : w.frames = (v, next) :: below)
    (hnext : next = (edges.out v).length) :
    work edges { w.paint v .black with frames := below } + 1 = work edges w := by
  have hv : w.colour v = .grey := (h.grey v).1 (by simp [hframes])
  have hself : (w.paint v .black).colour v = .black :=
    colour_paint_self (lt_size (by rw [hv]; nofun))
  have hwhites : whites edges { w.paint v .black with frames := below } = whites edges w := by
    refine List.filter_congr fun u _ => ?_
    show decide ((w.paint v .black).colour u = .white) = decide (w.colour u = .white)
    by_cases hu : u = v
    · simp [hu, hself, hv]
    · simp [colour_paint_of_ne hu]
  have hpending : pending edges w.frames = 1 + pending edges below := by
    rw [hframes, pending, hnext, Nat.add_sub_cancel_left]
  rw [work, work, hwhites, hpending]
  show edges.steps (whites edges w) + pending edges below + 1 = _
  omega

/-! ### Steps -/

theorem step_of_white (hnext : (edges.out v)[next]? = some t) (ht : w.colour t = .white) :
    w.step edges v next below = .ok ({ w with frames := (v, next + 1) :: below }.push t) := by
  have ht' : ({ w with frames := (v, next + 1) :: below } : Walk).colour t = .white := ht
  simp only [step, hnext, ht']

theorem step_of_grey (hnext : (edges.out v)[next]? = some t) (ht : w.colour t = .grey) :
    w.step edges v next below = .error ({ w with frames := (v, next + 1) :: below }.cycle t) := by
  have ht' : ({ w with frames := (v, next + 1) :: below } : Walk).colour t = .grey := ht
  simp only [step, hnext, ht']

theorem step_of_black (hnext : (edges.out v)[next]? = some t) (ht : w.colour t = .black) :
    w.step edges v next below = .ok ({ w with frames := (v, next + 1) :: below }.raise v t) := by
  have ht' : ({ w with frames := (v, next + 1) :: below } : Walk).colour t = .black := ht
  simp only [step, hnext, ht']

theorem step_of_none_nil (hnext : (edges.out v)[next]? = none) :
    w.step edges v next [] = .ok { w.paint v .black with frames := [] } := by
  simp only [step, hnext]

theorem step_of_none_cons {u m : Nat} (hnext : (edges.out v)[next]? = none) :
    w.step edges v next ((u, m) :: below) =
      .ok ({ w.paint v .black with frames := (u, m) :: below }.raise u v) := by
  simp only [step, hnext]

/-- The last frame of a path that stands on a stack. -/
theorem State.top (h : State edges w) (hframes : w.frames = (v, next) :: below) :
    w.colour v = .grey ∧ v ∉ below.map Prod.fst ∧ next ≤ (edges.out v).length ∧
      w.Followed v ((edges.out v).take next) ∧ Waiting edges w v below := by
  have hv : w.colour v = .grey := (h.grey v).1 (by simp [hframes])
  have hnodup := h.nodup
  have hstack := h.stack
  rw [hframes] at hnodup hstack
  cases hstack with
  | cons le followed waiting => exact ⟨hv, (List.nodup_cons.1 hnodup).1, le, followed, waiting⟩

theorem Coloured.lt_heights_size (h : Coloured edges w) (hv : w.colour v ≠ .white) :
    v < w.heights.size := by
  rw [h.heights_size, ← h.colours_size]
  exact lt_size hv

/-- A vertex that is entered has followed no edge. -/
theorem Coloured.state_push (h : Coloured edges w) (hw : Waiting edges w t w.frames)
    (ht : w.colour t = .white) (hlt : t < edges.size) : State edges (w.push t) := by
  have ht' : w.colour t ≠ .black := by rw [ht]; nofun
  refine ⟨h.push ht hlt, .cons (Nat.zero_le _) ?_ ((hw.paint ht').frames _)⟩
  exact ((h.white t ht).paint ht').frames _

theorem idxOf?_append_cons {before rest : List Nat} (h : t ∉ before) :
    (before ++ t :: rest).idxOf? t = some before.length := by
  induction before with
  | nil => simp [List.idxOf?_cons]
  | cons u before ih =>
    rw [List.mem_cons, not_or] at h
    rw [List.cons_append, List.idxOf?_cons, ih h.2]
    simp [Ne.symm h.1]

/-- A grey vertex met again closes a cycle. -/
theorem State.isCycle (h : State edges w) (hframes : w.frames = (v, next) :: below)
    (hedge : t ∈ edges.out v) (ht : w.colour t = .grey) :
    IsCycle edges ({ w with frames := (v, next + 1) :: below }.cycle t) := by
  have hstack := h.stack
  have hnodup := h.nodup
  have hmem := (h.grey t).2 ht
  rw [hframes] at hstack hnodup hmem
  have hc : ((v :: below.map Prod.fst).reverse ++ [t]).IsChain (Edge edges) := by
    rw [← List.reverse_cons, List.isChain_reverse]
    cases hstack with
    | cons _ _ waiting => exact List.isChain_cons_cons.2 ⟨hedge, waiting.isChain⟩
  have hpath : ((v :: below.map Prod.fst).reverse).Nodup := List.nodup_reverse.2 hnodup
  -- The path splits where it holds `t` first.
  obtain ⟨before, rest, hsplit, hbefore⟩ := List.eq_append_cons_of_mem (List.mem_reverse.2 hmem)
  rw [List.map_cons] at hsplit
  have hcycle : { w with frames := (v, next + 1) :: below }.cycle t = t :: rest ++ [t] := by
    rw [cycle, List.map_cons, hsplit, idxOf?_append_cons hbefore]
    simp
  rw [hsplit] at hc hpath
  refine ⟨t, rest, hcycle, hpath.of_append_right, ?_⟩
  rw [hcycle]
  rw [List.append_assoc] at hc
  exact hc.right_of_append

/-- An edge to a white vertex is the one that the path takes from now on. -/
theorem State.follow_white (h : State edges w) (hframes : w.frames = (v, next) :: below)
    (hnext : (edges.out v)[next]? = some t) (ht : w.colour t = .white) (hlt : t < edges.size) :
    State edges ({ w with frames := (v, next + 1) :: below }.push t) := by
  obtain ⟨_, _, _, followed, waiting⟩ := h.top hframes
  have hle : next + 1 ≤ (edges.out v).length := (List.getElem?_eq_some_iff.1 hnext).1
  refine (h.advance hframes).state_push ?_ ht hlt
  refine .cons hle ?_ (followed.frames _) (waiting.frames _)
  rw [List.take_add_one, hnext]
  rfl

/-- An edge to a black vertex is followed to the end at once. -/
theorem State.follow_black (h : State edges w) (hframes : w.frames = (v, next) :: below)
    (hnext : (edges.out v)[next]? = some t) (ht : w.colour t = .black) :
    State edges ({ w with frames := (v, next + 1) :: below }.raise v t) := by
  obtain ⟨hv, hbelow, _, followed, waiting⟩ := h.top hframes
  have hv' : w.colour v ≠ .black := by rw [hv]; nofun
  have hle : next + 1 ≤ (edges.out v).length := (List.getElem?_eq_some_iff.1 hnext).1
  refine ⟨(h.advance hframes).raise hv, .cons hle ?_ ((waiting.frames _).raise hbelow hv')⟩
  rw [List.take_add_one, hnext]
  exact (followed.frames _).concat (h.lt_heights_size (by rw [hv]; nofun)) hv' ht

/-- A vertex is left once all its edges were followed. -/
theorem State.coloured_pop (h : State edges w) (hframes : w.frames = (v, next) :: below)
    (hnext : next = (edges.out v).length) :
    Coloured edges { w.paint v .black with frames := below } := by
  obtain ⟨_, _, _, followed, _⟩ := h.top hframes
  rw [hnext, List.take_length] at followed
  exact h.pop hframes followed

/-- When a vertex is left, the edge that led to it is followed to the end. -/
theorem State.leave {u m : Nat} (h : State edges w)
    (hframes : w.frames = (v, next) :: (u, m) :: below) (hnext : next = (edges.out v).length) :
    State edges ({ w.paint v .black with frames := (u, m) :: below }.raise u v) := by
  obtain ⟨hv, hbelow, _, _, waiting⟩ := h.top hframes
  have hv' : w.colour v ≠ .black := by rw [hv]; nofun
  have hpop := h.coloured_pop hframes hnext
  have hu : ({ w.paint v .black with frames := (u, m) :: below } : Walk).colour u = .grey :=
    (hpop.grey u).1 (by simp)
  have hu' : ({ w.paint v .black with frames := (u, m) :: below } : Walk).colour u ≠ .black := by
    rw [hu]
    nofun
  have hblack : ({ w.paint v .black with frames := (u, m) :: below } : Walk).colour v = .black :=
    colour_paint_self (lt_size (by rw [hv]; nofun))
  have hnodup := List.nodup_cons.1 hpop.nodup
  cases waiting with
  | cons le take followed rest =>
    refine ⟨hpop.raise hu, .cons le ?_ (((rest.paint hv').frames _).raise hnodup.1 hu')⟩
    rw [take]
    exact ((followed.paint hv').frames _).concat (hpop.lt_heights_size (by rw [hu]; nofun)) hu'
      hblack

/-- What a part of the walk may lead to: a walk as it should be, or a cycle. -/
def Leads (edges : Edges) (good : Walk → Prop) : Except (List Nat) Walk → Prop
  | .ok w => State edges w ∧ good w
  | .error cycle => IsCycle edges cycle

/-- Parts of the walk follow one another. -/
theorem Leads.bind {good good' : Walk → Prop} {r : Except (List Nat) Walk}
    {f : Walk → Except (List Nat) Walk} (h : Leads edges good r)
    (hf : ∀ w, State edges w → good w → Leads edges good' (f w)) : Leads edges good' (r >>= f) := by
  cases r with
  | error cycle => exact h
  | ok w => exact hf w h.1 h.2

theorem Leads.mono {good good' : Walk → Prop} {r : Except (List Nat) Walk} (h : Leads edges good r)
    (hgood : ∀ w, good w → good' w) : Leads edges good' r := by
  cases r with
  | error cycle => exact h
  | ok w => exact ⟨h.1, hgood w h.2⟩

/-- No vertex turns white again. -/
def Entered (w w' : Walk) : Prop := ∀ u, w.colour u ≠ .white → w'.colour u ≠ .white

theorem Entered.refl (w : Walk) : w.Entered w := fun _ hu => hu

theorem Entered.trans {w₁ w₂ w₃ : Walk} (h : w₁.Entered w₂) (h' : w₂.Entered w₃) :
    w₁.Entered w₃ := fun u hu => h' u (h u hu)

theorem entered_push : w.Entered (w.push t) := by
  intro u hu
  by_cases hut : u = t
  · rw [hut, colour_push_self (hut ▸ lt_size hu)]
    nofun
  · rwa [colour_push_of_ne hut]

theorem entered_paint_black : w.Entered (w.paint v .black) := by
  intro u hu
  by_cases huv : u = v
  · rw [huv, colour_paint_self (huv ▸ lt_size hu)]
    nofun
  · rwa [colour_paint_of_ne huv]

/-- **A step keeps the invariant**, and does one step of the work. -/
theorem State.leads_step (h : State edges w) (hedges : ∀ u, ∀ s ∈ edges.out u, s < edges.size)
    (hframes : w.frames = (v, next) :: below) :
    Leads edges (fun w' => w.Entered w' ∧ work edges w' + 1 = work edges w)
      (w.step edges v next below) := by
  cases hnext : (edges.out v)[next]? with
  | some t =>
    have hlt : next < (edges.out v).length := (List.getElem?_eq_some_iff.1 hnext).1
    have hedge : t ∈ edges.out v := List.mem_of_getElem? hnext
    have hsize : t < edges.size := hedges v t hedge
    have hwork := work_advance hframes hlt
    cases ht : w.colour t with
    | white =>
      rw [step_of_white hnext ht]
      refine ⟨h.follow_white hframes hnext ht hsize, entered_push, ?_⟩
      rw [work_push (h.advance hframes) ht hsize, hwork]
    | grey =>
      rw [step_of_grey hnext ht]
      exact h.isCycle hframes hedge ht
    | black =>
      rw [step_of_black hnext ht]
      exact ⟨h.follow_black hframes hnext ht, fun _ hu => hu, hwork⟩
  | none =>
    have hlength : next = (edges.out v).length :=
      Nat.le_antisymm (h.top hframes).2.2.1 (List.getElem?_eq_none_iff.1 hnext)
    have hwork := work_pop h.toColoured hframes hlength
    cases below with
    | nil =>
      rw [step_of_none_nil hnext]
      exact ⟨⟨h.coloured_pop hframes hlength, .nil⟩, entered_paint_black, hwork⟩
    | cons frame below =>
      obtain ⟨u, m⟩ := frame
      rw [step_of_none_cons hnext]
      exact ⟨h.leave hframes hlength, entered_paint_black, hwork⟩

/-! ### The walk -/

/-- **The walk goes on until its path is empty**: it does not run out of steps before. -/
theorem State.leads_run (h : State edges w) (hedges : ∀ u, ∀ s ∈ edges.out u, s < edges.size)
    {steps : Nat} (hsteps : work edges w ≤ steps) :
    Leads edges (fun w' => w.Entered w' ∧ w'.frames = []) (run edges steps w) := by
  induction steps generalizing w with
  | zero =>
    refine ⟨h, Entered.refl w, ?_⟩
    cases hframes : w.frames with
    | nil => rfl
    | cons frame below =>
      obtain ⟨v, next⟩ := frame
      have hle := (h.top hframes).2.2.1
      rw [work, hframes, pending] at hsteps
      omega
  | succ steps ih =>
    cases hframes : w.frames with
    | nil =>
      have hrun : run edges (steps + 1) w = .ok w := by simp only [run, hframes]
      rw [hrun]
      exact ⟨h, Entered.refl w, hframes⟩
    | cons frame below =>
      obtain ⟨v, next⟩ := frame
      have hrun : run edges (steps + 1) w = w.step edges v next below >>= run edges steps := by
        simp only [run, hframes]
      rw [hrun]
      refine (h.leads_step hedges hframes).bind ?_
      rintro w₁ h₁ ⟨hentered, hwork⟩
      refine (ih h₁ (by omega)).mono ?_
      rintro w₂ ⟨hentered', hempty⟩
      exact ⟨hentered.trans hentered', hempty⟩

theorem steps_filter_le (p : Nat → Bool) (vs : List Nat) :
    edges.steps (vs.filter p) ≤ edges.steps vs := by
  induction vs with
  | nil => exact Nat.le_refl _
  | cons v vs ih =>
    rw [List.filter_cons]
    split_ifs
    · rw [Edges.steps, Edges.steps]
      omega
    · rw [Edges.steps]
      omega

/-- On an empty path no vertex is grey. -/
theorem Coloured.black_of_ne_white (h : Coloured edges w) (hempty : w.frames = [])
    (hv : w.colour v ≠ .white) : w.colour v = .black := by
  cases hc : w.colour v with
  | white => exact absurd hc hv
  | grey =>
    have hmem := (h.grey v).2 hc
    rw [hempty] at hmem
    exact absurd hmem List.not_mem_nil
  | black => rfl

/-- After a visit the path is empty again, and the vertex is not white. -/
theorem State.leads_visit (h : State edges w) (hedges : ∀ u, ∀ s ∈ edges.out u, s < edges.size)
    (hempty : w.frames = []) (hv : v < edges.size) :
    Leads edges (fun w' => w.Entered w' ∧ w'.frames = [] ∧ w'.colour v ≠ .white)
      (w.visit edges v) := by
  rw [visit]
  split_ifs with hblack
  · refine ⟨h, Entered.refl w, hempty, ?_⟩
    rw [hblack]
    nofun
  · have hwhite : w.colour v = .white := by
      by_contra hne
      exact hblack (h.black_of_ne_white hempty hne)
    have hpush : State edges (w.push v) :=
      h.state_push (by rw [hempty]; exact .nil) hwhite hv
    have hwork : work edges (w.push v) ≤ edges.steps (List.range edges.size) := by
      rw [work_push h.toColoured hwhite hv, work, hempty]
      exact steps_filter_le _ _
    refine (hpush.leads_run hedges hwork).mono ?_
    rintro w' ⟨hentered, hempty'⟩
    refine ⟨entered_push.trans hentered, hempty', hentered v ?_⟩
    rw [colour_push_self (by rwa [h.colours_size])]
    nofun

/-- Vertices are visited one after the other. -/
theorem State.leads_visits (h : State edges w) (hedges : ∀ u, ∀ s ∈ edges.out u, s < edges.size)
    (hempty : w.frames = []) {vs : List Nat} (hvs : ∀ v ∈ vs, v < edges.size) :
    Leads edges (fun w' => w.Entered w' ∧ w'.frames = [] ∧ ∀ v ∈ vs, w'.colour v ≠ .white)
      (vs.foldlM (fun w v => w.visit edges v) w) := by
  induction vs generalizing w with
  | nil => exact ⟨h, Entered.refl w, hempty, by simp⟩
  | cons v vs ih =>
    rw [List.forall_mem_cons] at hvs
    rw [List.foldlM_cons]
    refine (h.leads_visit hedges hempty hvs.1).bind ?_
    rintro w₁ h₁ ⟨hentered, hempty₁, hv⟩
    refine (ih h₁ hempty₁ hvs.2).mono ?_
    rintro w₂ ⟨hentered', hempty₂, hvs'⟩
    refine ⟨hentered.trans hentered', hempty₂, ?_⟩
    exact List.forall_mem_cons.2 ⟨hentered' v hv, hvs'⟩

theorem colour_start (n v : Nat) : (start n).colour v = .white := by
  simp only [start, colour, Array.getD_eq_getD_getElem?, Array.getElem?_replicate]
  split_ifs <;> rfl

theorem height_start (n v : Nat) : (start n).height v = 0 := by
  simp only [start, height, Array.getD_eq_getD_getElem?, Array.getElem?_replicate]
  split_ifs <;> rfl

theorem state_start : State edges (start edges.size) := by
  refine ⟨⟨Array.size_replicate, Array.size_replicate, List.nodup_nil, ?_, ?_, ?_⟩, .nil⟩
  · intro v
    rw [colour_start]
    exact ⟨fun hmem => absurd hmem List.not_mem_nil, nofun⟩
  · exact fun v _ => ⟨by simp, height_start edges.size v⟩
  · intro v hblack
    rw [colour_start] at hblack
    cases hblack

/-- When every vertex was entered and left, the heights are found. -/
theorem State.isHeight (h : State edges w) (hempty : w.frames = [])
    (hvs : ∀ v < edges.size, w.colour v ≠ .white) : IsHeight edges w.height := by
  have hfollowed : ∀ v, w.height v = above w.height (edges.out v) := by
    intro v
    by_cases hv : v < edges.size
    · exact (h.black v (h.black_of_ne_white hempty (hvs v hv))).height
    -- Outside the graph there are no edges.
    · have hout : edges.out v = [] := by simp [Edges.out, hv]
      have hheight : w.height v = 0 := by simp [height, h.heights_size, hv]
      rw [hout, hheight]
      rfl
  constructor
  · intro v t ht
    rw [hfollowed v]
    exact lt_above ht
  · intro v h0
    rw [hfollowed v] at h0 ⊢
    exact exists_above h0

end Walk

/-- **The walk over a whole graph** ends with the height of every vertex, or with a cycle. -/
theorem compute_spec (hedges : ∀ v, ∀ t ∈ edges.out v, t < edges.size) : match compute edges with
    | .ok heights => IsHeight edges fun v => heights.getD v 0
    | .error cycle => IsCycle edges cycle := by
  have hrange : ∀ v ∈ List.range edges.size, v < edges.size := fun v hv => List.mem_range.1 hv
  have hwalk := Walk.state_start.leads_visits hedges rfl hrange
  rw [compute]
  cases hr : (List.range edges.size).foldlM (fun w v => w.visit edges v)
      (Walk.start edges.size) with
  | error cycle =>
    rw [hr] at hwalk
    exact hwalk
  | ok w =>
    rw [hr] at hwalk
    obtain ⟨hstate, _, hempty, hvs⟩ := hwalk
    exact hstate.isHeight hempty fun v hv => hvs v (List.mem_range.2 hv)

end DataModel.Heights
