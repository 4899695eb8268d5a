import SignalPaths.Path.Enumerate
import SignalPaths.Search.DepthFirst

/-!
Paths through waypoints: one path that visits them in order, put together from one path for each
pair of neighbours, or all paths between two points. Waypoints may be given by name. A name may
stand for several vertices; the role it plays on a path decides between them by kind, and the kinds
of a role are tried in order.
-/

namespace SignalPaths

inductive Role where
  | start | through | stop
  deriving DecidableEq, Repr

def Role.kinds : Role → List Kind
  | start => [.regSrc, .var, .wire, .port]
  | through => [.var, .wire, .port]
  | stop => [.regDst, .var, .wire, .port]

def Graph.resolve (g : Graph) (name : String) (role : Role) : Except PathError VertexId :=
  match role.kinds.findSome? (g.find? name) with
  | some id => .ok id
  | none => .error (.vertexNotFound name)

structure Waypoints where
  start : VertexId
  through : List VertexId := []
  stop : VertexId
  deriving DecidableEq, Repr

namespace Waypoints

def points (w : Waypoints) : List VertexId := w.start :: w.through ++ [w.stop]

def segments (w : Waypoints) : List (VertexId × VertexId) := w.points.zip w.points.tail

/-- Looks up the start, then the points to pass, then the end. -/
def resolve (g : Graph) (start : String) (through : List String) (stop : String) :
    Except PathError Waypoints := do
  let start ← g.resolve start .start
  let through ← through.mapM fun name => g.resolve name .through
  let stop ← g.resolve stop .stop
  return { start, through, stop }

end Waypoints

namespace Graph

/-- The error where there is no path. The ends take their labels by position, and an end that is
left without one is named by its number. -/
def noPath (g : Graph) (source target : VertexId) : PathError :=
  let labels := g.labels [source, target]
  .noPath (labels[0]?.getD source.repr) (labels[1]?.getD target.repr)

/-- A target that the search did not meet has no path to it. -/
def unreachedIsNoPath (g : Graph) (source target : VertexId) : PathError → PathError
  | .notReached _ _ => g.noPath source target
  | error => error

/-- The path of the single-path search from `source` to `target`. -/
def directPath (g : Graph) (source target : VertexId) : Traced PathError Path := do
  let map ← (g.searchForward source .single).mapError .outOfRange
  (g.pathOf map source target).mapError (g.unreachedIsNoPath source target)

/-- Joins a path to one that starts where it ends. -/
def joinPaths (path next : Path) : Path :=
  if path.isEmpty then next else path ++ next.drop 1

def anyPath (g : Graph) (w : Waypoints) : Traced PathError Path :=
  w.segments.foldlM
    (fun path (source, target) => return joinPaths path (← g.directPath source target)) []

def allPaths (g : Graph) (w : Waypoints) : Traced PathError (List Path) := do
  if w.through ≠ [] then
    .fail (.unsupported .throughPointsForAllPaths)
  else
    .tell .exponentialSearch
    let map ← (g.searchForward w.start .all).mapError .outOfRange
    let paths ← (g.pathsOf map w.start w.stop).mapError (g.unreachedIsNoPath w.start w.stop)
    if paths.isEmpty then
      .fail (g.noPath w.start w.stop)
    else
      return paths

end Graph

end SignalPaths
