import SignalPaths.File
import SignalPaths.Netlist.Vertex

/-!
What can go wrong, by cause. Each family has one `message` that words it, and `Error` joins the
families under the code and the heading that a report starts with.
-/

namespace SignalPaths

/-- Causes of a syntax error in a graph text. -/
inductive SyntaxCause where
  | unexpectedCharacter (c : Char)
  | undirectedEdge
  | emptyInput
  | expectedIdentifier
  | expectedDigraph (found : String)
  | expectedOpeningBrace
  | unterminatedGraph
  | trailingContent
  | subgraph
  | unknownFormat (name : String)
  deriving DecidableEq, Repr

def SyntaxCause.message : SyntaxCause → String
  | unexpectedCharacter c => "unexpected character '" ++ c.toString ++ "'"
  | undirectedEdge => "undirected edge '--' in a netlist graph"
  | emptyInput => "empty input"
  | expectedIdentifier => "expected identifier"
  | expectedDigraph found => "expected 'digraph', found '" ++ found ++ "'"
  | expectedOpeningBrace => "expected '\x7b'"
  | unterminatedGraph => "unterminated graph, expected '\x7d'"
  | trailingContent => "trailing content after graph"
  | subgraph => "subgraphs are not supported"
  | unknownFormat name => "unknown graph format '" ++ name ++ "'"

structure SyntaxError where
  line : Nat
  cause : SyntaxCause
  deriving DecidableEq, Repr

/-- Errors of reading a graph file and of building a graph from it. -/
inductive LoadError where
  | unreadable (path : FilePath) (reason : ReadFailure)
  | invalid (error : SyntaxError)
  | unknownKind (value : String)
  | unknownDirection (value : String)
  | missingAttribute (vertex key : String)
  | invalidAttribute (vertex key value : String)
  | duplicateVertex (id : UInt64)
  | unknownVertex (vertex : String)
  | invalidJson
  deriving DecidableEq, Repr

/-- Stands for the part of a message that says where a JSON or TOML text went wrong. -/
def unspecifiedDetail : String := "<detail>"

def LoadError.message : LoadError → String
  | unreadable path reason => "Could not open " ++ path.display ++ ": " ++ reason.message
  | invalid error => "Syntax error at line " ++ error.line.repr ++ ": " ++ error.cause.message
  | unknownKind value => "Unexpected vertex type: " ++ value
  | unknownDirection value => "Unexpected vertex direction: " ++ value
  | missingAttribute vertex key =>
    "Vertex " ++ vertex ++ " is missing attribute '" ++ key ++ "'"
  | invalidAttribute vertex key value =>
    "Vertex " ++ vertex ++ " has invalid attribute " ++ key ++ "=" ++ value
  | duplicateVertex id => "Duplicate vertex id " ++ id.toNat.repr
  | unknownVertex vertex => "Edge refers to unknown vertex " ++ vertex
  | invalidJson => "Invalid JSON graph description: " ++ unspecifiedDetail

/-- A vertex id that the graph does not have. -/
structure RangeError where
  index : VertexId
  count : Nat
  deriving DecidableEq, Repr

def RangeError.message (error : RangeError) : String :=
  "Vertex id " ++ error.index.repr ++ " out of range (graph has " ++ error.count.repr ++
    " vertices)"

/-- Ways in which a parent map can fail to be a tree. -/
inductive MapFault where
  | manyParents (count : Nat)
  | revisited
  deriving DecidableEq, Repr

def MapFault.message : MapFault → String
  | manyParents count => count.repr ++ " parents recorded in single-path mode"
  | revisited => "vertex revisited while reconstructing a path"

/-- Questions that the path finder does not answer. -/
inductive Unsupported where
  | singlePathMapNeeded
  | throughPointsForAllPaths
  | throughPointsWithoutEnds
  | noEnds
  deriving DecidableEq, Repr

def Unsupported.message : Unsupported → String
  | singlePathMapNeeded => "path reconstruction needs a single-path parent map"
  | throughPointsForAllPaths => "through points not supported for all paths"
  | throughPointsWithoutEnds => "through points need both a start and an end point"
  | noEnds => "a query needs a start point, an end point, or both"

/-- Errors of the path finder. -/
inductive PathError where
  | vertexNotFound (name : String)
  | notReached (start stop : String)
  | noPath (source target : String)
  | unsupported (question : Unsupported)
  | inconsistent (vertex : VertexId) (fault : MapFault)
  | outOfRange (error : RangeError)
  deriving DecidableEq, Repr

def PathError.message : PathError → String
  | vertexNotFound name => "Could not find vertex " ++ name
  | notReached start stop => "No walk from " ++ start ++ " reaches " ++ stop
  | noPath source target => "No path from " ++ source ++ " to " ++ target
  | unsupported question => "Unsupported query: " ++ question.message
  | inconsistent vertex fault =>
    "Parent map consistency fault at vertex " ++ vertex.repr ++ ": " ++ fault.message
  | outOfRange error => error.message

/-- Errors of reading, checking and writing a configuration. -/
inductive ConfigError where
  | fileNotFound (path : String)
  | unparsable (path detail : String)
  | unknownFormat (format : String)
  | compoundTopPrefix
  | emptyMarker
  deriving DecidableEq, Repr

def ConfigError.message : ConfigError → String
  | fileNotFound path => "Config file not found: " ++ path
  | unparsable path detail => "Config parse error in " ++ path ++ ": " ++ detail
  | unknownFormat format =>
    "Config validation failed for load.format: must be one of [\"dot\", \"json\"], got '" ++
      format ++ "'"
  | compoundTopPrefix =>
    "Config validation failed for naming.top_prefix: must be a single hierarchy segment"
  | emptyMarker => "Invalid config value for naming.ignore_markers: markers must be non-empty"

/-- An error of any family. -/
inductive Error where
  | load (error : LoadError)
  | range (error : RangeError)
  | path (error : PathError)
  | config (error : ConfigError)
  deriving DecidableEq, Repr

namespace Error

def message : Error → String
  | load error => error.message
  | range error => error.message
  | path error => error.message
  | config error => error.message

def code : Error → String
  | load _ => "PARSE_ERROR"
  | range _ => "GRAPH_ERROR"
  | path (.vertexNotFound _) => "NOT_FOUND"
  | path (.notReached _ _) => "NOT_FOUND"
  | path (.noPath _ _) => "NO_PATH"
  | path (.unsupported _) => "UNSUPPORTED"
  | path (.inconsistent _ _) => "CONSISTENCY_FAULT"
  | path (.outOfRange _) => "GRAPH_ERROR"
  | config _ => "CONFIG_ERROR"

def heading : Error → String
  | load _ => "Parse error"
  | range _ => "Graph error"
  | path _ => "Path error"
  | config _ => "Configuration error"

/-- The line a report prints: code, heading, message. -/
def coded (error : Error) : String :=
  "[" ++ error.code ++ "] " ++ error.heading ++ ": " ++ error.message

end Error

/-- Two steps succeed where the first one does and then the second. -/
theorem except_bind_ok {ε α β : Type} {first : Except ε α} {next : α → Except ε β} {result : β}
    (ok : (first >>= next) = .ok result) :
    ∃ value, first = .ok value ∧ next value = .ok result := by
  cases first with
  | error e => cases ok
  | ok value => exact ⟨value, rfl, ok⟩

end SignalPaths
