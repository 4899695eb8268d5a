import Std.Data.TreeMap
import SignalPaths.Description
import SignalPaths.Dot.Document

/-!
The nodes of a DOT document and what they describe. A node is met when a statement names it and
declared by a node statement; its attributes may be spread over several statements, and the last
assignment of an attribute counts. What is missing is only known at the end. Graphs are written as
DOT with one line for each vertex and all its attributes, then one line for each edge.
-/

namespace SignalPaths.Dot

/-- A node as met so far. The last assigned attribute comes first. -/
structure Node where
  attributes : List (String × String) := []
  declared : Bool := false
  deriving DecidableEq, Repr

def Node.attribute? (node : Node) (key : String) : Option String := node.attributes.lookup key

/-- A single change of what is kept of a document. -/
inductive Change where
  | meet (id : String)
  | declare (id : String) (attributes : List (String × String))
  | link (source target : String)
  deriving DecidableEq, Repr

/-- All nodes of a chain are met before the first of its edges is kept. -/
def Statement.changes : Statement → List Change
  | ignored => []
  | node id attributes => [.declare id attributes]
  | chain first second others =>
    (first :: second :: others).map .meet ++
      ((first :: second :: others).zip (second :: others)).map fun pair => .link pair.1 pair.2

/-- The nodes of a document in the order in which they are met, and its edges. -/
structure Nodes where
  order : Array String := #[]
  known : Std.TreeMap String Node := ∅
  edges : Array (String × String) := #[]

namespace Nodes

/-- Changes a node, which is met now if it was not before. -/
def update (nodes : Nodes) (id : String) (change : Node → Node) : Nodes :=
  { nodes with
    order := if nodes.known.contains id then nodes.order else nodes.order.push id
    known := nodes.known.alter id fun node => some (change (node.getD {})) }

def apply (nodes : Nodes) : Change → Nodes
  | .meet id => nodes.update id fun node => node
  | .declare id attributes =>
    nodes.update id fun node =>
      { attributes := attributes.reverse ++ node.attributes, declared := true }
  | .link source target => { nodes with edges := nodes.edges.push (source, target) }

def addStatement (nodes : Nodes) (statement : Statement) : Nodes :=
  statement.changes.foldl apply nodes

def ofStatements (statements : List Statement) : Nodes := statements.foldl addStatement {}

/-- The id of a node: its attribute of that name, or else the identifier itself. -/
def idOf (id : String) (node : Node) : Except LoadError UInt64 :=
  match node.attribute? "id" with
  | some value =>
    match Text.readUInt64 value with
    | some number => .ok number
    | none => .error (.invalidAttribute id "id" value)
  | none =>
    match Text.readUInt64 id with
    | some number => .ok number
    | none => .error (.missingAttribute id "id")

def recordOf (nodes : Nodes) (id : String) : Except LoadError VertexRecord := do
  let node := nodes.known.getD id {}
  if !node.declared then
    throw (.unknownVertex id)
  let number ← idOf id node
  match node.attribute? "type" with
  | none => throw (.missingAttribute id "type")
  | some kind =>
    return {
      id := number, kind, direction := node.attribute? "dir",
      name := (node.attribute? "name").getD "", location := (node.attribute? "loc").getD "" }

def numberOf (numbers : Std.TreeMap String UInt64) (id : String) : Except LoadError UInt64 :=
  match numbers[id]? with
  | some number => .ok number
  | none => .error (.unknownVertex id)

def describe (nodes : Nodes) : Except LoadError Description := do
  let ids := nodes.order.toList
  let vertices ← ids.mapM nodes.recordOf
  let numbers := Std.TreeMap.ofList (ids.zip (vertices.map VertexRecord.id))
  let edges ← nodes.edges.toList.mapM fun (source, target) =>
    return ⟨← numberOf numbers source, ← numberOf numbers target⟩
  return { vertices, edges }

end Nodes

/-- Reads a graph description from DOT. -/
def readDescription (text : String) : Except LoadError Description := do
  let tokens ← (tokens text).mapError .invalid
  if tokens.isEmpty then
    throw (.invalid ⟨1, .emptyInput⟩)
  let statements ← (statements tokens).mapError .invalid
  (Nodes.ofStatements statements).describe

def vertexLine (v : Vertex) : String :=
  "  " ++ v.id.repr ++ " [id=" ++ v.id.repr ++ ", type=" ++ v.kind.text ++ ", dir=" ++
    v.direction.text ++ ", name=" ++ quote v.name ++ ", loc=" ++ quote v.location ++ "];\n"

def edgeLine (edge : VertexId × VertexId) : String :=
  "  " ++ edge.1.repr ++ " -> " ++ edge.2.repr ++ ";\n"

def write (g : Graph) : String :=
  "digraph netlist \x7b\n" ++ String.join (g.vertices.toList.map vertexLine) ++
    String.join (g.edges.toList.map edgeLine) ++ "\x7d\n"

end SignalPaths.Dot
