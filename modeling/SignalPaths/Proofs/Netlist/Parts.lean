import SignalPaths.Proofs.FirstOccurrence
import SignalPaths.Proofs.Netlist.History

/-!
A netlist is determined by its vertices and its edges: the adjacency lists and the index of names
can be computed from them. So it does not matter how vertices and edges took turns, and every
netlist can be put together from all its vertices and then all its edges.
-/

namespace SignalPaths.Graph

variable {g : Graph} {infos : List VertexInfo} {links : List (VertexId × VertexId)}

def enterName (index : Std.TreeMap String (Array VertexId)) (v : Vertex) :
    Std.TreeMap String (Array VertexId) :=
  if v.name.isEmpty then index
  else index.alter v.name fun ids => some ((ids.getD #[]).push v.id)

def adjacency (count : Nat) (edges : List (VertexId × VertexId)) : Array (List VertexId) :=
  (Array.range count).map fun u =>
    ((edges.filter fun edge => edge.1 == u).map Prod.snd).reverse

def ofParts (vertices : Array Vertex) (edges : Array (VertexId × VertexId)) : Graph where
  vertices := vertices
  edges := edges
  outgoing := adjacency vertices.size edges.toList
  incoming := adjacency vertices.size (edges.toList.map Prod.swap)
  byName := vertices.toList.foldl enterName ∅

theorem Lists.eq_adjacency {lists : Array (List VertexId)} {count : Nat}
    {edges : List (VertexId × VertexId)} (listed : Lists lists count edges) :
    lists = adjacency count edges := by
  apply Array.ext
  · rw [listed.size, adjacency, Array.size_map, Array.size_range]
  · intro u left right
    have ends := listed.ends u
    rw [Array.getD_eq_getD_getElem?, Array.getElem?_eq_getElem left, Option.getD_some] at ends
    simp [adjacency, ends]

theorem byName_perform (known : g.byName = g.vertices.toList.foldl enterName ∅)
    (operation : Operation) :
    (g.perform operation).byName = (g.perform operation).vertices.toList.foldl enterName ∅ := by
  cases operation with
  | vertex info =>
    simp only [perform, addVertex, Array.toList_push, List.foldl_append, ← known]
    rfl
  | edge source target =>
    rcases g.perform_edge_cases source target with same | ⟨_, _, _, added⟩
    · rw [same]
      exact known
    · rw [added]
      exact known

theorem IsNetlist.byName_eq (netlist : g.IsNetlist) :
    g.byName = g.vertices.toList.foldl enterName ∅ := by
  obtain ⟨operations, rfl⟩ := netlist
  induction operations using List.reverseRecOn with
  | nil => rfl
  | append_singleton operations operation ih =>
    rw [performAll, List.foldl_append]
    exact byName_perform ih operation

theorem IsNetlist.eq_ofParts (netlist : g.IsNetlist) : g = ofParts g.vertices g.edges := by
  have coherent := netlist.coherent
  rw [ofParts, ← netlist.byName_eq]
  change g = ⟨g.vertices, g.edges, adjacency g.vertexCount g.edges.toList,
    adjacency g.vertexCount (g.edges.toList.map Prod.swap), g.byName⟩
  rw [← coherent.outgoing.eq_adjacency, ← coherent.incoming.eq_adjacency]

/-- Numbers follow from the order of the vertices. -/
theorem vertices_eq_of_infos {vertices others : Array Vertex}
    (numbered : ∀ (i : Nat) (v : Vertex), vertices[i]? = some v → v.id = i)
    (also : ∀ (i : Nat) (v : Vertex), others[i]? = some v → v.id = i)
    (same : vertices.toList.map Vertex.toVertexInfo = others.toList.map Vertex.toVertexInfo) :
    vertices = others := by
  have sizes : vertices.size = others.size := by simpa using congrArg List.length same
  apply Array.ext sizes
  intro i left right
  have infos : vertices[i].toVertexInfo = others[i].toVertexInfo := by
    simpa [left, right] using congrArg (fun infos => infos[i]?) same
  have ids : vertices[i].id = others[i].id := by
    rw [numbered i _ (Array.getElem?_eq_getElem left), also i _ (Array.getElem?_eq_getElem right)]
  exact Vertex.mk.injEq .. ▸ ⟨infos, ids⟩

/-- All vertices first, all edges then. -/
def assemble (infos : List VertexInfo) (links : List (VertexId × VertexId)) : Graph :=
  empty.performAll (infos.map .vertex ++ links.map fun link => .edge link.1 link.2)

theorem isNetlist_assemble (infos : List VertexInfo) (links : List (VertexId × VertexId)) :
    (assemble infos links).IsNetlist := ⟨_, rfl⟩

theorem assemble_concat_vertex (infos : List VertexInfo) (info : VertexInfo) :
    assemble (infos ++ [info]) [] = (assemble infos []).addVertex info := by
  simp [assemble, performAll, perform]

theorem foldl_enter_vertices (infos : List VertexInfo) (ledger : Ledger) :
    (infos.map Operation.vertex).foldl Ledger.enter ledger =
      { ledger with vertices := ledger.vertices ++ infos } := by
  induction infos generalizing ledger with
  | nil => simp
  | cons info infos ih => simp [ih, Ledger.enter]

theorem foldl_enter_edges (infos : List VertexInfo) (links : List (VertexId × VertexId))
    (inside : ∀ link ∈ links, link.1 < infos.length ∧ link.2 < infos.length) :
    (links.map fun link => Operation.edge link.1 link.2).foldl Ledger.enter ⟨infos, []⟩ =
      ⟨infos, links.eraseDups⟩ := by
  induction links using List.reverseRecOn with
  | nil => rfl
  | append_singleton links link ih =>
    have before := ih fun other member => inside other (List.mem_append_left _ member)
    have ends := inside link (List.mem_append_right _ (List.mem_singleton_self link))
    rw [List.map_append, List.foldl_append, before, eraseDups_append_singleton]
    by_cases known : link ∈ links
    · simp [Ledger.enter, known]
    · simp [Ledger.enter, known, ends]

theorem records_assemble
    (inside : ∀ link ∈ links, link.1 < infos.length ∧ link.2 < infos.length) :
    (assemble infos links).Records ⟨infos, links.eraseDups⟩ := by
  have records : (assemble infos links).Records _ := records_ofHistory _
  rw [Ledger.ofHistory, List.foldl_append, foldl_enter_vertices] at records
  exact foldl_enter_edges infos links inside ▸ records

end SignalPaths.Graph
