import SignalPaths.Netlist.Graph
import SignalPaths.Search.ParentMap
import SignalPaths.Traced

/-!
The one path of a single-path map. From the end of the path each vertex leads to its only parent,
until the start is met. A vertex without a parent means that the end is not reached; a second
parent, or a vertex that comes up again, means that the map is no tree.
-/

namespace SignalPaths

abbrev Path := List VertexId

namespace ParentMap

/-- Why a walk back stops before it is at the start. -/
inductive Setback where
  | unreached
  | faulty (vertex : VertexId) (fault : MapFault)
  deriving DecidableEq, Repr

/-- Walks back from `current`. The vertices passed so far follow it on the path, the latest first. -/
def retrace (m : ParentMap) (start current : VertexId) (passed : Path) : Except Setback Path :=
  if current = start then
    .ok (current :: passed)
  else
    match _ : m.parents current with
    | [] => .error .unreached
    | [parent] =>
      if _ : parent ∈ current :: passed then
        .error (.faulty parent .revisited)
      else
        retrace m start parent (current :: passed)
    | many => .error (.faulty current (.manyParents many.length))
termination_by m.unused (current :: passed)
decreasing_by
  exact unused_cons_lt (v := current) (by simp [*]) ‹_›

end ParentMap

namespace Graph

def notReached (g : Graph) (start stop : VertexId) : PathError :=
  .notReached (g.labelOf start) (g.labelOf stop)

/-- The path from `start` to `stop` that a single-path map holds. -/
def pathOf (g : Graph) (m : ParentMap) (start stop : VertexId) : Traced PathError Path := do
  (Traced.ofExcept (g.check start)).mapError .outOfRange
  (Traced.ofExcept (g.check stop)).mapError .outOfRange
  if m.mode ≠ .single then
    .fail (.unsupported .singlePathMapNeeded)
  else
    match m.retrace start stop [] with
    | .ok path => return path
    | .error .unreached => .fail (g.notReached start stop)
    | .error (.faulty vertex fault) =>
      .tell (.mapFault vertex fault)
      .fail (.inconsistent vertex fault)

end Graph

end SignalPaths
