import SignalPaths.Path.Waypoints

/-!
Fan-out and fan-in: one path from a vertex to each end point it reaches, and one path to a vertex
from each start point that reaches it, by the number of that point. Fan-out degrees of the signals
are listed with the largest first and equal ones by vertex number.
-/

namespace SignalPaths.Graph

/-- One path from the root of a map to each reached vertex that the test accepts. -/
def reachedPaths (g : Graph) (m : ParentMap) (accepts : Vertex → Bool) :
    Traced PathError (List Path) :=
  (g.vertices.toList.filter fun v => m.reached v.id && accepts v).mapM
    fun v => g.pathOf m m.root v.id

def fanOut (g : Graph) (root : VertexId) : Traced PathError (List Path) := do
  let map ← (g.searchForward root .single).mapError .outOfRange
  let paths ← g.reachedPaths map Vertex.isEndPoint
  .tell (.fannedOut root paths.length)
  return paths

/-- The search runs against the edges, so that its paths are turned round. -/
def fanIn (g : Graph) (root : VertexId) : Traced PathError (List Path) := do
  let map ← (g.searchBackward root .single).mapError .outOfRange
  let paths ← g.reachedPaths map Vertex.isStartPoint
  .tell (.fannedIn root paths.length)
  return paths.map List.reverse

def fanOutDegrees (g : Graph) : List (VertexId × Nat) :=
  let signals := g.vertices.toList.filter fun v => !v.kind.isLogic
  (signals.map fun v => (v.id, g.outDegree v.id)).mergeSort fun a b => decide (b.2 ≤ a.2)

def fanOutDegreesAtLeast (g : Graph) (least : Nat) : List (VertexId × Nat) :=
  g.fanOutDegrees.filter fun entry => least ≤ entry.2

end SignalPaths.Graph
