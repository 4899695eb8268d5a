import Std.Data.TreeMap
import SignalPaths.Error

/-!
Netlist graphs. Vertices are numbered from zero in the order they are added, edges are kept in the
order they are added and never twice, and each vertex lists its neighbours with the newest edge
first. Names are looked up in an index; a name may be shared, and the empty name is never listed.
-/

namespace SignalPaths

structure Graph where
  vertices : Array Vertex := #[]
  edges : Array (VertexId × VertexId) := #[]
  outgoing : Array (List VertexId) := #[]
  incoming : Array (List VertexId) := #[]
  byName : Std.TreeMap String (Array VertexId) := ∅

namespace Graph

def empty : Graph := {}

def vertexCount (g : Graph) : Nat := g.vertices.size

def edgeCount (g : Graph) : Nat := g.edges.size

def vertexIds (g : Graph) : List VertexId := List.range g.vertexCount

/-- Adds a vertex under the next number, which is the vertex count so far. -/
def addVertex (g : Graph) (info : VertexInfo) : Graph :=
  let id := g.vertexCount
  { g with
    vertices := g.vertices.push { info with id }
    outgoing := g.outgoing.push []
    incoming := g.incoming.push []
    byName :=
      if info.name.isEmpty then g.byName
      else g.byName.alter info.name fun ids => some ((ids.getD #[]).push id) }

def check (g : Graph) (id : VertexId) : Except RangeError Unit :=
  if id < g.vertexCount then .ok () else .error ⟨id, g.vertexCount⟩

def vertex (g : Graph) (id : VertexId) : Except RangeError Vertex :=
  match g.vertices[id]? with
  | some v => .ok v
  | none => .error ⟨id, g.vertexCount⟩

/-- Asks something about a vertex, which has to be there. -/
def checked {α : Type} (g : Graph) (id : VertexId) (question : Graph → VertexId → α) :
    Except RangeError α := do
  g.check id
  return question g id

/-- Targets of the edges out of a vertex, newest edge first. -/
def successors (g : Graph) (id : VertexId) : List VertexId :=
  g.outgoing.getD id []

/-- Sources of the edges into a vertex, newest edge first. -/
def predecessors (g : Graph) (id : VertexId) : List VertexId :=
  g.incoming.getD id []

def outDegree (g : Graph) (id : VertexId) : Nat := (g.successors id).length

def inDegree (g : Graph) (id : VertexId) : Nat := (g.predecessors id).length

def hasEdge (g : Graph) (source target : VertexId) : Bool :=
  (g.successors source).contains target

/-- Appends an edge without looking whether it is there. -/
def appendEdge (g : Graph) (source target : VertexId) : Graph :=
  { g with
    edges := g.edges.push (source, target)
    outgoing := g.outgoing.modify source (target :: ·)
    incoming := g.incoming.modify target (source :: ·) }

/-- Adds an edge to the graph at hand, and says whether it is new. The graph is there after an error
as well. -/
def addEdge (source target : VertexId) : ExceptT RangeError (StateM Graph) Bool := do
  let g ← get
  g.check source
  g.check target
  if g.hasEdge source target then
    return false
  else
    modify (appendEdge · source target)
    return true

/-- The vertices of a name, in increasing order. -/
def named (g : Graph) (name : String) : List VertexId :=
  (g.byName.getD name #[]).toList

def kind? (g : Graph) (id : VertexId) : Option Kind :=
  g.vertices[id]?.map fun v => v.kind

/-- The first vertex of a name that has the given kind. -/
def find? (g : Graph) (name : String) (kind : Kind) : Option VertexId :=
  (g.named name).find? fun id => g.kind? id == some kind

/-- The label of a vertex, or its number where the graph has no such vertex. -/
def labelOf (g : Graph) (id : VertexId) : String :=
  match g.vertices[id]? with
  | some v => v.label
  | none => id.repr

/-- The labels along a path; numbers outside the graph are left out. -/
def labels (g : Graph) (path : List VertexId) : List String :=
  path.filterMap fun id => g.vertices[id]?.map Vertex.label

end Graph

end SignalPaths
