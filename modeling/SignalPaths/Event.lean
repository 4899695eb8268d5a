import SignalPaths.Netlist.Register
import SignalPaths.Search.ParentMap

/-!
Events that an observer of the library is told of. An event is a cause; its level, message and
fields are worked out from it.
-/

namespace SignalPaths

inductive Level where
  | error | warn | info | debug | trace
  deriving DecidableEq, Repr

def Level.text : Level → String
  | error => "ERROR"
  | warn => "WARN"
  | info => "INFO"
  | debug => "DEBUG"
  | trace => "TRACE"

inductive Field where
  | number (n : Nat)
  | text (s : String)
  deriving DecidableEq, Repr

inductive Event where
  | readingFile (path : FilePath)
  | registerWarning (warning : RegisterWarning)
  | graphLoaded (vertices edges warnings : Nat)
  | searchComplete (root : VertexId) (mode : SearchMode) (entries backEdges : Nat)
  | cyclePruned (label : String) (vertex : VertexId)
  | pathsEnumerated (paths pruned : Nat)
  | mapFault (vertex : VertexId) (fault : MapFault)
  | exponentialSearch
  | fannedOut (root : VertexId) (paths : Nat)
  | fannedIn (root : VertexId) (paths : Nat)
  | userConfigIgnored (cause : ConfigError)
  | observerKept
  deriving DecidableEq, Repr

namespace Event

def level : Event → Level
  | readingFile _ => .debug
  | registerWarning _ => .warn
  | graphLoaded _ _ _ => .info
  | searchComplete _ _ _ _ => .debug
  | cyclePruned _ _ => .trace
  | pathsEnumerated _ _ => .debug
  | mapFault _ _ => .error
  | exponentialSearch => .warn
  | fannedOut _ _ => .debug
  | fannedIn _ _ => .debug
  | userConfigIgnored _ => .warn
  | observerKept => .debug

def message : Event → String
  | readingFile _ => "parsing input file"
  | registerWarning warning => warning.text
  | graphLoaded _ _ _ => "netlist graph loaded"
  | searchComplete _ _ _ _ => "depth-first search complete"
  | cyclePruned label _ => "pruned cycle through " ++ label
  | pathsEnumerated _ _ => "enumerated paths"
  | mapFault _ fault => fault.message
  | exponentialSearch =>
    "all-paths search is exponential in the number of paths; it may not finish on large graphs"
  | fannedOut _ _ => "fan-out"
  | fannedIn _ _ => "fan-in"
  | userConfigIgnored _ => "ignoring unreadable user config"
  | observerKept => "global subscriber already installed; keeping it"

def fields : Event → List (String × Field)
  | readingFile path => [("path", .text path.display)]
  | registerWarning warning => [("vertex", .number warning.vertex)]
  | graphLoaded vertices edges warnings =>
    [("vertex_count", .number vertices), ("edge_count", .number edges),
      ("warning_count", .number warnings)]
  | searchComplete root mode entries backEdges =>
    [("search_root", .number root), ("search_mode", .text mode.text),
      ("parent_entries", .number entries), ("back_edges", .number backEdges)]
  | cyclePruned _ vertex => [("vertex", .number vertex)]
  | pathsEnumerated paths pruned =>
    [("path_count", .number paths), ("pruned_cycles", .number pruned)]
  | mapFault vertex _ => [("vertex", .number vertex)]
  | exponentialSearch => []
  | fannedOut root paths => [("search_root", .number root), ("path_count", .number paths)]
  | fannedIn root paths => [("search_root", .number root), ("path_count", .number paths)]
  | userConfigIgnored cause => [("error", .text cause.message)]
  | observerKept =>
    [("error", .text "a global default trace dispatcher has already been set")]

end Event

/-- Installing the standard observer where there is one already: the first attempt says that the
present one is kept, later attempts do nothing. -/
def installObserver (attempted : Bool) : List Event :=
  if attempted then [] else [.observerKept]

end SignalPaths
