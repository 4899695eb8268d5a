import SignalPaths.Netlist.Graph
import SignalPaths.Search.ParentMap
import SignalPaths.Traced

/-!
Depth-first search from a root, with an explicit stack so that long chains need no deep recursion.
Each frame of the stack holds a vertex and those of its neighbours that are still to be looked at.
An edge to a vertex that was found before is a back edge if that vertex is not finished, which
means that it is still on the stack. A netlist is searched from one of its vertices, along its edges
or against them.
-/

namespace SignalPaths

/-- A way to follow the edges of a graph. -/
structure View where
  vertexCount : Nat
  neighbours : VertexId → List VertexId

def Graph.forward (g : Graph) : View := ⟨g.vertexCount, g.successors⟩

def Graph.backward (g : Graph) : View := ⟨g.vertexCount, g.predecessors⟩

namespace DepthFirst

structure Frame where
  vertex : VertexId
  pending : List VertexId

structure State where
  discovered : Array Bool
  finished : Array Bool
  map : ParentMap
  backEdges : Nat

namespace State

/-- A number outside the graph counts as discovered, so that it is never entered. -/
def isDiscovered (s : State) (v : VertexId) : Bool := s.discovered.getD v true

def isFinished (s : State) (v : VertexId) : Bool := s.finished.getD v true

def undiscovered (s : State) : Nat := s.discovered.count false

def finish (s : State) (v : VertexId) : State :=
  { s with finished := s.finished.setIfInBounds v true }

/-- Enters `v` along the tree edge from `u`. -/
def enter (s : State) (u v : VertexId) : State :=
  { s with
    discovered := s.discovered.setIfInBounds v true
    map := s.map.record v u }

/-- Passes over an edge from `u` to the vertex `v`, which was discovered before. -/
def pass (s : State) (u v : VertexId) : State :=
  { s with
    backEdges := if s.isFinished v then s.backEdges else s.backEdges + 1
    map := if s.map.mode = .all then s.map.record v u else s.map }

theorem undiscovered_enter_lt {s : State} {u v : VertexId} (new : s.isDiscovered v = false) :
    (s.enter u v).undiscovered < s.undiscovered := by
  have inside : v < s.discovered.size := by
    refine Decidable.byContradiction fun outside => ?_
    simp [isDiscovered, Array.getD, outside] at new
  have unseen : s.discovered[v] = false := by
    simpa [isDiscovered, Array.getD, inside] using new
  have counted : 0 < s.discovered.count false :=
    Array.count_pos_iff.mpr (unseen ▸ Array.getElem_mem inside)
  have changed : (s.enter u v).undiscovered = s.discovered.count false - 1 := by
    simp only [undiscovered, enter, Array.setIfInBounds, inside, ↓reduceDIte, Array.count_set,
      unseen, beq_self_eq_true, if_true]
    rfl
  unfold undiscovered at changed ⊢
  omega

end State

/-- The steps the frames of a stack can take by themselves. -/
def work : List Frame → Nat
  | [] => 0
  | frame :: below => frame.pending.length + 1 + work below

def run (view : View) (s : State) : List Frame → State
  | [] => s
  | ⟨u, []⟩ :: below => run view (s.finish u) below
  | ⟨u, v :: pending⟩ :: below =>
    if _ : s.isDiscovered v = false then
      run view (s.enter u v) (⟨v, view.neighbours v⟩ :: ⟨u, pending⟩ :: below)
    else
      run view (s.pass u v) (⟨u, pending⟩ :: below)
termination_by stack => (s.undiscovered, work stack)
decreasing_by
  · exact Prod.Lex.right _ (by simp [work])
  · exact Prod.Lex.left _ _ (State.undiscovered_enter_lt ‹_›)
  · exact Prod.Lex.right _ (by simp [work])

def start (view : View) (root : VertexId) (mode : SearchMode) : State where
  discovered := (Array.replicate view.vertexCount false).setIfInBounds root true
  finished := Array.replicate view.vertexCount false
  map := { mode, root }
  backEdges := 0

end DepthFirst

/-- The outcome of a search. -/
structure Found where
  map : ParentMap
  backEdges : Nat

def depthFirst (view : View) (root : VertexId) (mode : SearchMode) : Found :=
  let last := DepthFirst.run view (DepthFirst.start view root mode)
    [⟨root, view.neighbours root⟩]
  ⟨last.map, last.backEdges⟩

namespace Graph

def searchIn (g : Graph) (view : View) (root : VertexId) (mode : SearchMode) :
    Traced RangeError ParentMap := do
  .ofExcept (g.check root)
  let found := depthFirst view root mode
  .tell (.searchComplete root mode found.map.size found.backEdges)
  return found.map

def searchForward (g : Graph) (root : VertexId) (mode : SearchMode) :
    Traced RangeError ParentMap :=
  g.searchIn g.forward root mode

def searchBackward (g : Graph) (root : VertexId) (mode : SearchMode) :
    Traced RangeError ParentMap :=
  g.searchIn g.backward root mode

end Graph

end SignalPaths
