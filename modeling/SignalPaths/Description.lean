import SignalPaths.Netlist.Graph
import SignalPaths.Netlist.Names

/-!
Graph descriptions: what every graph file is read into. Vertices carry ids of the file's own
choosing and words for kind and direction. Building a graph numbers the vertices in order, checks
the words, and maps the ends of the edges; a graph can be described again with its own numbers.
-/

namespace SignalPaths

/-- Reads a word as the value that it spells. An unknown word is an error that carries it. -/
def readWord {α : Type} (values : List α) (text : α → String) (unknown : String → LoadError)
    (word : String) : Except LoadError α :=
  match spelled? values text word with
  | some value => .ok value
  | none => .error (unknown word)

def Kind.read : String → Except LoadError Kind := readWord Kind.all Kind.text .unknownKind

def Direction.read : String → Except LoadError Direction :=
  readWord Direction.all Direction.text .unknownDirection

section Words

variable {α : Type} {values : List α} {text : α → String} {value : α} {word : String}

theorem readWord_known (known : spelled? values text word = some value)
    (unknown : String → LoadError) : readWord values text unknown word = .ok value := by
  rw [readWord, known]

theorem readWord_unknown (unspelled : ∀ value, text value ≠ word) (unknown : String → LoadError) :
    readWord values text unknown word = .error (unknown word) := by
  have absent : spelled? values text word = none := by
    simpa [spelled?] using fun value _ => unspelled value
  rw [readWord, absent]

end Words

theorem Kind.read_text (kind : Kind) : Kind.read kind.text = .ok kind :=
  readWord_known (Kind.ofText?_text kind) .unknownKind

theorem Direction.read_text (direction : Direction) :
    Direction.read direction.text = .ok direction :=
  readWord_known (Direction.ofText?_text direction) .unknownDirection

structure VertexRecord where
  id : UInt64
  kind : String
  direction : Option String := none
  name : String := ""
  location : String := ""
  deriving DecidableEq, Repr

structure EdgeRecord where
  source : UInt64
  target : UInt64
  deriving DecidableEq, Repr

structure Description where
  vertices : List VertexRecord
  edges : List EdgeRecord := []
  deriving DecidableEq, Repr

namespace Description

/-- The vertex numbers of the ids met so far. -/
abbrev Numbering := Std.TreeMap UInt64 VertexId

def vertexInfo (naming : Convention) (record : VertexRecord) : Except LoadError VertexInfo := do
  let kind ← Kind.read record.kind
  let direction ←
    match record.direction with
    | some word => Direction.read word
    | none => pure .none
  return {
    kind, direction, name := record.name, location := record.location,
    isTop := naming.isTop record.name }

def addRecord (naming : Convention) (state : Graph × Numbering) (record : VertexRecord) :
    Except LoadError (Graph × Numbering) := do
  let (g, numbers) := state
  if numbers.contains record.id then
    throw (.duplicateVertex record.id)
  let info ← vertexInfo naming record
  return (g.addVertex info, numbers.insert record.id g.vertexCount)

def numberOf (numbers : Numbering) (id : UInt64) : Except LoadError VertexId :=
  match numbers[id]? with
  | some number => .ok number
  | none => .error (.unknownVertex id.toNat.repr)

def addEdgeRecord (numbers : Numbering) (g : Graph) (edge : EdgeRecord) :
    Except LoadError Graph := do
  let source ← numberOf numbers edge.source
  let target ← numberOf numbers edge.target
  match (Graph.addEdge source target).run.run g with
  | (.ok _, g) => return g
  | (.error error, _) => throw (.unknownVertex error.message)

def build (d : Description) (naming : Convention) : Except LoadError Graph := do
  let (g, numbers) ← d.vertices.foldlM (addRecord naming) (Graph.empty, ∅)
  d.edges.foldlM (addEdgeRecord numbers) g

def ofGraph (g : Graph) : Description where
  vertices := g.vertices.toList.map fun v => {
    id := UInt64.ofNat v.id, kind := v.kind.text, direction := some v.direction.text,
    name := v.name, location := v.location }
  edges := g.edges.toList.map fun (source, target) =>
    ⟨UInt64.ofNat source, UInt64.ofNat target⟩

end Description

end SignalPaths
