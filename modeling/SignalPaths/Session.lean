import SignalPaths.Fan
import SignalPaths.Loader
import SignalPaths.Netlist.Names

/-!
Query sessions: a loaded graph, its configuration, and questions about it by name. A question with
two ends asks for paths between them, one with a single end for its fan-out or its fan-in.
-/

namespace SignalPaths

structure Query where
  start : Option String := none
  stop : Option String := none
  through : List String := []
  allPaths : Option Bool := none
  deriving DecidableEq, Repr

inductive Answer where
  | path (path : Path)
  | paths (paths : List Path)
  deriving DecidableEq, Repr

def Answer.toPaths : Answer → List Path
  | path p => [p]
  | paths ps => ps

structure Session where
  graph : Graph
  config : Config
  warnings : List RegisterWarning := []

namespace Session

/-- Loads a file as the configuration says. -/
def openFile (path : FilePath) (file : File) (config : Config) : Traced LoadError Session := do
  let loader ← .ofExcept (Loader.ofConfig config)
  let loaded ← loader.loadFile path file
  return { graph := loaded.graph, config, warnings := loaded.warnings }

def between (s : Session) (all : Bool) (start : String) (through : List String) (stop : String) :
    Traced PathError Answer := do
  let waypoints ← .ofExcept (Waypoints.resolve s.graph start through stop)
  if all then
    return .paths (← s.graph.allPaths waypoints)
  else
    return .path (← s.graph.anyPath waypoints)

def ask (s : Session) (q : Query) : Traced PathError Answer :=
  match q.start, q.stop with
  | some start, some stop =>
    s.between (q.allPaths.getD s.config.effectiveAllPaths) start q.through stop
  | start, stop =>
    if q.through ≠ [] then .fail (.unsupported .throughPointsWithoutEnds)
    else
      match start, stop with
      | some start, _ => do
        let root ← .ofExcept (s.graph.resolve start .start)
        return .paths (← s.graph.fanOut root)
      | none, some stop => do
        let root ← .ofExcept (s.graph.resolve stop .stop)
        return .paths (← s.graph.fanIn root)
      | none, none => .fail (.unsupported .noEnds)

def names (s : Session) (filter : NameFilter) : List String := s.graph.names filter

/-- The fan-out degrees that the configuration asks for. -/
def fanOutDegrees (s : Session) : List (VertexId × Nat) :=
  s.graph.fanOutDegreesAtLeast s.config.effectiveMinDegree

end Session

end SignalPaths
