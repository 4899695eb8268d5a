/-!
Vertices of a netlist graph: what a netlist says of a vertex, its number, and the two questions
a path search asks of it, whether paths may start there and whether they may end there. Kinds of
vertices and directions of ports have one spelling each that graph files use.
-/

namespace SignalPaths

/-- The value that a word spells, out of a list of values. -/
def spelled? {α : Type} (values : List α) (text : α → String) (word : String) : Option α :=
  values.find? fun value => text value == word

inductive Kind where
  | regSrc | regDst | var | wire | port
  | logic | logicActive | logicAssignW | logicAssignPre | logicAssignPost | logicAlways
  deriving DecidableEq, Repr

namespace Kind

def all : List Kind :=
  [.regSrc, .regDst, .var, .wire, .port, .logic, .logicActive, .logicAssignW,
    .logicAssignPre, .logicAssignPost, .logicAlways]

def text : Kind → String
  | regSrc => "REG_SRC"
  | regDst => "REG_DST"
  | var => "VAR"
  | wire => "WIRE"
  | port => "PORT"
  | logic => "LOGIC"
  | logicActive => "LOGICACTIVE"
  | logicAssignW => "LOGICASSIGNW"
  | logicAssignPre => "LOGICASSIGNPRE"
  | logicAssignPost => "LOGICASSIGNPOST"
  | logicAlways => "LOGICALWAYS"

def ofText? : String → Option Kind := spelled? all text

/-- A piece of combinational logic, which carries no signal of its own. -/
def isLogic : Kind → Bool
  | logic | logicActive | logicAssignW | logicAssignPre | logicAssignPost | logicAlways => true
  | _ => false

def isRegister : Kind → Bool
  | regSrc | regDst => true
  | _ => false

theorem ofText?_text (kind : Kind) : ofText? kind.text = some kind := by
  cases kind <;> decide

end Kind

/-- The direction of a port; a vertex that is no port has direction `none`. -/
inductive Direction where
  | none | input | output | inOut
  deriving DecidableEq, Repr

namespace Direction

def all : List Direction := [.none, .input, .output, .inOut]

def text : Direction → String
  | none => "NONE"
  | input => "IN"
  | output => "OUT"
  | inOut => "INOUT"

def ofText? : String → Option Direction := spelled? all text

def isInput : Direction → Bool
  | input | inOut => true
  | _ => false

def isOutput : Direction → Bool
  | output | inOut => true
  | _ => false

theorem ofText?_text (direction : Direction) : ofText? direction.text = some direction := by
  cases direction <;> decide

end Direction

abbrev VertexId := Nat

structure VertexInfo where
  kind : Kind
  direction : Direction
  name : String
  location : String
  isTop : Bool
  deriving DecidableEq, Repr

structure Vertex extends VertexInfo where
  id : VertexId
  deriving DecidableEq, Repr

namespace Vertex

/-- The name of a vertex, or its kind where it has none. -/
def label (v : Vertex) : String :=
  if v.name.isEmpty then v.kind.text else v.name

def describe (v : Vertex) : String :=
  match v.direction with
  | .none => v.kind.text ++ " " ++ v.name
  | direction => v.kind.text ++ " " ++ direction.text ++ " " ++ v.name

/-- Signals enter the design at register outputs and at inputs of the top module. -/
def isStartPoint (v : Vertex) : Bool :=
  v.kind == .regSrc || (v.isTop && v.direction.isInput)

/-- Signals leave the design at register inputs and at outputs of the top module. -/
def isEndPoint (v : Vertex) : Bool :=
  v.kind == .regDst || (v.isTop && v.direction.isOutput)

end Vertex

end SignalPaths
