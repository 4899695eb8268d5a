import SignalPaths.Netlist.Graph

/-!
Names in a netlist. A naming convention says which of them belong to the top module, and which are
of the tool's own making. Any decision on names is a convention; the one at hand is for hierarchical
names, with dots between the segments. The names that can be searched for are those of registers,
ports and nets, each described by its kind, its direction and its name, sorted by code point and
listed once. Logic has no name.
-/

namespace SignalPaths

/-- What a naming convention decides of each name. -/
structure Convention where
  isTop : String → Bool
  canIgnore : String → Bool

/-- Hierarchical naming has a prefix for the top module and markers of names to ignore. -/
structure Naming where
  topPrefix : String
  ignoreMarkers : List String
  deriving DecidableEq, Repr

namespace Naming

def separator : Char := '.'

def segments (name : List Char) : List (List Char) := name.splitOn separator

def defaultTopPrefix : String := "TOP"

def defaultIgnoreMarkers : List String :=
  ["__Vdly", "__Vcell", "__Vconst", "__Vfunc", "__Vtable", "__Vtemp", "__Vxrand"]

def standard : Naming := ⟨defaultTopPrefix, defaultIgnoreMarkers⟩

/-- A name without the top prefix, if the prefix is its whole first segment and not the only one. -/
def stripTop (naming : Naming) (name : List Char) : List Char :=
  let head := naming.topPrefix.toList ++ [separator]
  if head.isPrefixOf name then name.drop head.length else name

/-- A top signal is one that is named by its module and itself alone. -/
def isTop (naming : Naming) (name : String) : Bool :=
  (segments (naming.stripTop name.toList)).length == 2

def occursIn (part : List Char) : List Char → Bool
  | [] => part.isEmpty
  | c :: rest => part.isPrefixOf (c :: rest) || occursIn part rest

def canIgnore (naming : Naming) (name : String) : Bool :=
  naming.ignoreMarkers.any fun marker => occursIn marker.toList name.toList

def convention (naming : Naming) : Convention := ⟨naming.isTop, naming.canIgnore⟩

instance : Coe Naming Convention := ⟨convention⟩

end Naming

def Convention.standard : Convention := Naming.standard

inductive NameFilter where
  | all | registers | ports | nets
  deriving DecidableEq, Repr

def NameFilter.accepts (filter : NameFilter) (v : Vertex) : Bool :=
  !v.kind.isLogic &&
    match filter with
    | all => true
    | registers => v.kind.isRegister
    | ports => v.kind == .port
    | nets => v.kind == .var || v.kind == .wire

/-- Keeps one of each run of equal neighbours. -/
def dropRepeats : List String → List String
  | [] => []
  | [name] => [name]
  | name :: next :: rest =>
    if name = next then dropRepeats (next :: rest) else name :: dropRepeats (next :: rest)

def Graph.names (g : Graph) (filter : NameFilter) : List String :=
  let described := (g.vertices.toList.filter filter.accepts).map Vertex.describe
  dropRepeats (described.mergeSort fun a b => decide (a ≤ b))

end SignalPaths
