import SignalPaths.Netlist.Graph

/-!
Structural check of registers: nothing drives the output side of a register but the register, and
its input side drives nothing. Warnings are advisory and come in the order of the vertices.
-/

namespace SignalPaths

inductive RegisterWarning where
  | sourceDriven (vertex : VertexId) (name : String) (inDegree : Nat)
  | destinationDrives (vertex : VertexId) (name : String) (outDegree : Nat)
  deriving DecidableEq, Repr

namespace RegisterWarning

def vertex : RegisterWarning → VertexId
  | sourceDriven vertex _ _ => vertex
  | destinationDrives vertex _ _ => vertex

def text : RegisterWarning → String
  | sourceDriven vertex name inDegree =>
    "source reg " ++ name ++ " (" ++ vertex.repr ++ ") has " ++ inDegree.repr ++ " in edges"
  | destinationDrives vertex name outDegree =>
    "destination reg " ++ name ++ " (" ++ vertex.repr ++ ") has " ++ outDegree.repr ++
      " out edges"

end RegisterWarning

namespace Graph

def registerWarning? (g : Graph) (v : Vertex) : Option RegisterWarning :=
  match v.kind with
  | .regSrc =>
    if 0 < g.inDegree v.id then some (.sourceDriven v.id v.name (g.inDegree v.id)) else none
  | .regDst =>
    if 0 < g.outDegree v.id then some (.destinationDrives v.id v.name (g.outDegree v.id)) else none
  | _ => none

def registerWarnings (g : Graph) : List RegisterWarning :=
  g.vertices.toList.filterMap g.registerWarning?

end Graph

end SignalPaths
