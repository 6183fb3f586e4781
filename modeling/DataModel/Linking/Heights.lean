import DataModel.Document

/-!
# Heights

The references of a document are the edges of a graph on its entities. The height of an entity is
zero when it has no edge, and else one more than the greatest height among the entities that its
edges lead to. A depth-first walk finds the heights, or else a cycle, in which case no heights
exist.

The walk holds the path from its start to the present entity as a stack. An entity is *white* before
it is entered, *grey* on the path, and *black* once it was left; a grey entity met again closes a
cycle. The height of an entity grows edge by edge: with a black target when the edge is followed,
and with a white one when that is left.
-/

namespace DataModel

namespace Heights

/-- The entities that the edges of each entity lead to, by position. -/
abbrev Edges := Array (List Nat)

/-- The entities that edges from `v` lead to. -/
def Edges.out (edges : Edges) (v : Nat) : List Nat := edges.getD v []

/-- How many steps the walk makes on some entities: one for each edge, and one to leave each of
them. -/
def Edges.steps (edges : Edges) : List Nat → Nat
  | [] => 0
  | v :: vs => (edges.out v).length + 1 + edges.steps vs

inductive Colour
  | white
  | grey
  | black
  deriving DecidableEq

/-- The state of the walk. -/
structure Walk where
  colours : Array Colour
  heights : Array Nat
  /-- The path, its last entity first, each with the number of its edges that were followed. -/
  frames : List (Nat × Nat)

namespace Walk

/-- Nothing is known of `n` entities. -/
def start (n : Nat) : Walk := ⟨Array.replicate n .white, Array.replicate n 0, []⟩

variable (w : Walk)

def colour (v : Nat) : Colour := w.colours.getD v .white

def height (v : Nat) : Nat := w.heights.getD v 0

def paint (v : Nat) (c : Colour) : Walk := { w with colours := w.colours.setIfInBounds v c }

/-- The entity `v` is above `t`. -/
def raise (v t : Nat) : Walk :=
  { w with heights := w.heights.setIfInBounds v (max (w.height v) (w.height t + 1)) }

/-- Enters an entity from the end of the path. -/
def push (v : Nat) : Walk := { w.paint v .grey with frames := (v, 0) :: w.frames }

/-- The path from `t` on, which is on it, and back to `t`. -/
def cycle (t : Nat) : List Nat :=
  let path := (w.frames.map Prod.fst).reverse
  path.drop ((path.idxOf? t).getD 0) ++ [t]

/-- Follows the next edge of `v`, which the path ends with, or leaves `v` if there is none. -/
def step (edges : Edges) (v next : Nat) (below : List (Nat × Nat)) : Except (List Nat) Walk :=
  match (edges.out v)[next]? with
  | some t =>
    let w := { w with frames := (v, next + 1) :: below }
    match w.colour t with
    | .white => .ok (w.push t)
    | .grey => .error (w.cycle t)
    | .black => .ok (w.raise v t)
  | none =>
    let w := { w.paint v .black with frames := below }
    match below with
    | [] => .ok w
    | (u, _) :: _ => .ok (w.raise u v)

/-- Walks until the path is empty, in a number of steps at most. -/
def run (edges : Edges) : (steps : Nat) → Walk → Except (List Nat) Walk
  | 0, w => .ok w
  | steps + 1, w =>
    match w.frames with
    | [] => .ok w
    | (v, next) :: below => do run edges steps (← w.step edges v next below)

/-- Finds the height of an entity and of everything below it, or returns a cycle. -/
def visit (edges : Edges) (v : Nat) : Except (List Nat) Walk :=
  if w.colour v = .black then .ok w
  else run edges (edges.steps (List.range edges.size)) (w.push v)

end Walk

/-- The height of every entity, or a cycle. -/
def compute (edges : Edges) : Except (List Nat) (Array Nat) :=
  Walk.heights <$>
    (List.range edges.size).foldlM (fun w v => w.visit edges v) (Walk.start edges.size)

end Heights

/-- The entities that the references of an entity lead to, by position, each of them once. -/
def Entity.targets (e : Entity) : List Nat :=
  (e.fields.filterMap fun f => (f.reference.bind Reference.entity?).map Handle.index).eraseDups

/-- The edges of a document. -/
def Document.edges (d : Document) : Heights.Edges := (d.entities.map Entity.targets).toArray

/-- **The document with the height of every entity.** Its references are bound. -/
def Document.setHeights (d : Document) : Except Error Document :=
  match Heights.compute d.edges with
  | .ok heights =>
    .ok { d with
      entities := d.entities.zipIdx.map fun (e, i) => { e with height := heights.getD i 0 } }
  | .error cycle =>
    fail (.referenceCycle (cycle.map fun v => (d.entities[v]?).elim "" Entity.name))

end DataModel
