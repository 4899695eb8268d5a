import SignalPaths.Proofs.Netlist.Parts
import SignalPaths.Search.DepthFirst

/-!
Netlists with their edges turned round. A history in which each edge is turned round leads to the
transposed netlist, whose two adjacency arrays have changed places. So a search against the edges
takes the steps of a search along the edges of the transposed netlist, and ends as that one does.
-/

namespace SignalPaths

def Operation.transpose : Operation → Operation
  | .vertex info => .vertex info
  | .edge source target => .edge target source

namespace Graph

variable {g h : Graph}

def transpose (g : Graph) : Graph :=
  { g with
    edges := g.edges.map Prod.swap
    outgoing := g.incoming
    incoming := g.outgoing }

theorem transpose_empty : empty.transpose = empty := by
  simp only [transpose, empty, List.map_toArray, List.map_nil]

theorem transpose_addVertex (g : Graph) (info : VertexInfo) :
    (g.addVertex info).transpose = g.transpose.addVertex info := rfl

theorem transpose_appendEdge (g : Graph) (source target : VertexId) :
    (g.appendEdge source target).transpose = g.transpose.appendEdge target source := by
  simp only [transpose, appendEdge, Array.map_push, Prod.swap_prod_mk]

theorem toList_edges_transpose (g : Graph) :
    g.transpose.edges.toList = g.edges.toList.map Prod.swap := by
  rw [transpose, Array.toList_map]

theorem mem_edges_transpose {u v : VertexId} :
    (u, v) ∈ g.transpose.edges.toList ↔ (v, u) ∈ g.edges.toList := by
  rw [toList_edges_transpose]
  simp

theorem Coherent.transpose (coherent : g.Coherent) : g.transpose.Coherent where
  outgoing := by
    rw [toList_edges_transpose]
    exact coherent.incoming
  incoming := by
    rw [toList_edges_transpose, List.map_map, Prod.swap_swap_eq, List.map_id]
    exact coherent.outgoing
  distinct := by
    rw [toList_edges_transpose]
    exact coherent.distinct.map Prod.swap_injective
  inside edge member := (coherent.inside edge.swap (mem_edges_transpose.mp member)).symm

/-- To turn an operation round is to turn the graph round. An edge is new on one side exactly if it
is new on the other. -/
theorem Coherent.transpose_perform (coherent : g.Coherent) (operation : Operation) :
    (g.perform operation).transpose = g.transpose.perform operation.transpose := by
  cases operation with
  | vertex info => exact transpose_addVertex g info
  | edge source target =>
    have same : (source < g.vertexCount ∧ target < g.vertexCount ∧
          g.edges.toList.contains (source, target) = false) ↔
        target < g.transpose.vertexCount ∧ source < g.transpose.vertexCount ∧
          g.transpose.edges.toList.contains (target, source) = false := by
      simp only [← Bool.not_eq_true, List.contains_iff_mem, mem_edges_transpose]
      exact and_left_comm
    rw [Operation.transpose, coherent.perform_edge, coherent.transpose.perform_edge]
    by_cases new : source < g.vertexCount ∧ target < g.vertexCount ∧
        g.edges.toList.contains (source, target) = false
    · rw [if_pos new, if_pos (same.mp new), transpose_appendEdge]
    · rw [if_neg new, if_neg (mt same.mpr new)]

theorem Coherent.transpose_performAll (coherent : g.Coherent) (operations : List Operation) :
    (g.performAll operations).transpose =
      g.transpose.performAll (operations.map Operation.transpose) := by
  induction operations generalizing g with
  | nil => rfl
  | cons operation rest ih =>
    have step := coherent.transpose_perform operation
    have later := ih (coherent.perform operation)
    rw [step] at later
    exact later

theorem transpose_history (operations : List Operation) :
    (empty.performAll operations).transpose =
      empty.performAll (operations.map Operation.transpose) := by
  rw [Coherent.empty.transpose_performAll, transpose_empty]

theorem IsNetlist.transpose (netlist : g.IsNetlist) : g.transpose.IsNetlist := by
  obtain ⟨operations, rfl⟩ := netlist
  exact ⟨operations.map Operation.transpose, (transpose_history operations).symm⟩

/-- However a netlist came about, its vertices and edges tell whether it is the transposed one. -/
theorem IsNetlist.eq_transpose (netlist : g.IsNetlist) (other : h.IsNetlist)
    (vertices : h.vertices = g.vertices) (edges : h.edges.toList = g.edges.toList.map Prod.swap) :
    h = g.transpose := by
  have turned : h.edges = g.transpose.edges := by
    rw [← Array.toList_inj, edges, toList_edges_transpose]
  have kept : h.vertices = g.transpose.vertices := vertices
  rw [other.eq_ofParts, netlist.transpose.eq_ofParts, turned, kept]

theorem searchBackward_transpose (g : Graph) (root : VertexId) (mode : SearchMode) :
    g.searchBackward root mode = g.transpose.searchForward root mode := rfl

/-- A search against the edges of a netlist is a search along those of the netlist with the same
vertices and each edge turned round: the two fail alike, or end with one and the same map, and tell
of the same events. The history with its edges turned round leads to such a netlist. -/
theorem searchBackward_eq_transposed (operations : List Operation) :
    let g := empty.performAll operations
    let turned := empty.performAll (operations.map Operation.transpose)
    turned.vertices = g.vertices ∧ turned.edges.toList = g.edges.toList.map Prod.swap ∧
    ∀ h : Graph, h.IsNetlist → h.vertices = g.vertices →
      h.edges.toList = g.edges.toList.map Prod.swap →
      ∀ root mode, g.searchBackward root mode = h.searchForward root mode := by
  intro g turned
  have transposed : turned = g.transpose := (transpose_history operations).symm
  refine ⟨by rw [transposed]; rfl, by rw [transposed, toList_edges_transpose], ?_⟩
  intro h other vertices edges root mode
  have netlist : g.IsNetlist := ⟨operations, rfl⟩
  rw [netlist.eq_transpose other vertices edges, searchBackward_transpose]

/-- Two wires, of which the first drives itself and both drive each other. The last edge is given
again, and another one before its target is there. -/
def knot : List Operation :=
  [.vertex ⟨.wire, .none, "a", "", false⟩, .edge 0 0, .edge 0 1,
    .vertex ⟨.wire, .none, "b", "", false⟩, .edge 1 0, .edge 0 1, .edge 0 1]

/-- The same knot the other way round, put together in another way. -/
def turnedKnot : Graph :=
  empty.performAll [.vertex ⟨.wire, .none, "a", "", false⟩, .vertex ⟨.wire, .none, "b", "", false⟩,
    .edge 0 0, .edge 0 1, .edge 1 0]

theorem searchBackward_eq_transposed_knot :
    turnedKnot.IsNetlist ∧ turnedKnot.vertices = (empty.performAll knot).vertices ∧
      turnedKnot.edges.toList = (empty.performAll knot).edges.toList.map Prod.swap ∧
      (empty.performAll knot).searchBackward 1 .all = turnedKnot.searchForward 1 .all ∧
      (empty.performAll knot).searchBackward 2 .single = turnedKnot.searchForward 2 .single := by
  have netlist : turnedKnot.IsNetlist := ⟨_, rfl⟩
  have vertices : turnedKnot.vertices = (empty.performAll knot).vertices := by decide
  have edges : turnedKnot.edges.toList = (empty.performAll knot).edges.toList.map Prod.swap := by
    decide
  have searches := (searchBackward_eq_transposed knot).2.2 turnedKnot netlist vertices edges
  exact ⟨netlist, vertices, edges, searches 1 .all, searches 2 .single⟩

end Graph

end SignalPaths
