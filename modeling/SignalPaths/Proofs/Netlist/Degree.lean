import SignalPaths.Proofs.Netlist.History

/-!
Degrees and edges. The out-degree of a vertex of a netlist is the number of vertices it has an edge
to, its in-degree the number of vertices that have an edge to it, and the degrees of some vertices
add up to the number of edges at them.
-/

namespace SignalPaths.Graph

variable {g : Graph} {id : VertexId}

def targets (g : Graph) (u : VertexId) : Finset VertexId :=
  (Finset.range g.vertexCount).filter fun v => g.Edge u v

def sources (g : Graph) (v : VertexId) : Finset VertexId :=
  (Finset.range g.vertexCount).filter fun u => g.Edge u v

def edgeSet (g : Graph) : Finset (VertexId × VertexId) := g.edges.toList.toFinset

theorem mem_vertices_of_ok {v : Vertex} (known : g.vertex id = .ok v) : v ∈ g.vertices.toList :=
  Array.mem_toList_iff.mpr (Array.mem_of_getElem? (vertex_ok_iff.mp known))

theorem kind?_eq_some_iff {kind : Kind} :
    g.kind? id = some kind ↔ ∃ v, g.vertex id = .ok v ∧ v.kind = kind := by
  simp only [kind?, Option.map_eq_some_iff, vertex_ok_iff]

theorem Lists.sum_length_where {adjacency : Array (List VertexId)} {count : Nat}
    {edges : List (VertexId × VertexId)} (lists : Lists adjacency count edges)
    (inside : ∀ edge ∈ edges, edge.1 < count) (property : VertexId → Bool) :
    ∑ u ∈ Finset.range count, (if property u then (adjacency.getD u []).length else 0) =
      edges.countP fun edge => property edge.1 := by
  rw [← lists.sum_countP inside fun u _ => property u]
  apply Finset.sum_congr rfl
  intro u _
  cases property u with
  | true => simp
  | false => simp

namespace Coherent

theorem mem_predecessors (coherent : g.Coherent) {u v : VertexId} :
    u ∈ g.predecessors v ↔ g.Edge u v := by
  rw [coherent.predecessors_eq, Edge, ← Array.mem_toList_iff]
  simp

theorem inside_of_edge (coherent : g.Coherent) {u v : VertexId} (edge : g.Edge u v) :
    u < g.vertexCount ∧ v < g.vertexCount :=
  coherent.inside (u, v) (Array.mem_toList_iff.mpr edge)

theorem outDegree_eq_card (coherent : g.Coherent) (u : VertexId) :
    g.outDegree u = (g.targets u).card := by
  have same : (g.successors u).toFinset = g.targets u := by
    ext v
    rw [List.mem_toFinset, coherent.mem_successors, targets, Finset.mem_filter, Finset.mem_range]
    exact ⟨fun edge => ⟨(coherent.inside_of_edge edge).2, edge⟩, And.right⟩
  rw [← same, List.toFinset_card_of_nodup (coherent.nodup_successors u), outDegree]

theorem inDegree_eq_card (coherent : g.Coherent) (v : VertexId) :
    g.inDegree v = (g.sources v).card := by
  have same : (g.predecessors v).toFinset = g.sources v := by
    ext u
    rw [List.mem_toFinset, coherent.mem_predecessors, sources, Finset.mem_filter, Finset.mem_range]
    exact ⟨fun edge => ⟨(coherent.inside_of_edge edge).1, edge⟩, And.right⟩
  rw [← same, List.toFinset_card_of_nodup (coherent.nodup_predecessors v), inDegree]

theorem countP_edges (coherent : g.Coherent) (property : VertexId × VertexId → Bool) :
    g.edges.toList.countP property = (g.edgeSet.filter fun edge => property edge).card := by
  rw [List.countP_eq_length_filter, edgeSet, ← List.toFinset_filter,
    List.toFinset_card_of_nodup (coherent.distinct.filter property)]

/-- The out-degrees of some vertices count the edges that leave them. -/
theorem sum_outDegree_where (coherent : g.Coherent) (property : VertexId → Bool) :
    (g.vertexIds.map fun u => if property u then g.outDegree u else 0).sum =
      (g.edgeSet.filter fun edge => property edge.1).card := by
  rw [← coherent.countP_edges fun edge => property edge.1]
  exact coherent.outgoing.sum_length_where (fun edge member => (coherent.inside edge member).1)
    property

/-- The in-degrees of some vertices count the edges that lead to them. -/
theorem sum_inDegree_where (coherent : g.Coherent) (property : VertexId → Bool) :
    (g.vertexIds.map fun v => if property v then g.inDegree v else 0).sum =
      (g.edgeSet.filter fun edge => property edge.2).card := by
  have total := coherent.incoming.sum_length_where (fun edge member => by
    obtain ⟨original, inside, rfl⟩ := List.mem_map.mp member
    exact (coherent.inside original inside).2) property
  rw [List.countP_map] at total
  rw [← coherent.countP_edges fun edge => property edge.2]
  exact total

end Coherent

end SignalPaths.Graph
