import Mathlib.Data.List.Nodup
import Mathlib.Logic.Relation
import SignalPaths.Netlist.Graph
import SignalPaths.Proofs.Computation

/-!
Netlists as they come about, by one operation after another on the empty graph. The adjacency lists
of a netlist hold its edges and nothing else: each once, newest first, between vertices it has.
-/

namespace SignalPaths

inductive Operation where
  | vertex (info : VertexInfo)
  | edge (source target : VertexId)
  deriving DecidableEq, Repr

namespace Graph

/-- The graph after an operation, whatever the answer to it is. -/
def perform (g : Graph) : Operation → Graph
  | .vertex info => g.addVertex info
  | .edge source target => ((addEdge source target).run.run g).2

def performAll (g : Graph) (operations : List Operation) : Graph :=
  operations.foldl perform g

/-- A netlist is a graph to which some operations lead from the empty one. -/
def IsNetlist (g : Graph) : Prop := ∃ operations, empty.performAll operations = g

def Edge (g : Graph) (source target : VertexId) : Prop := (source, target) ∈ g.edges

instance (g : Graph) : DecidableRel g.Edge :=
  fun source target => decidable_of_iff ((source, target) ∈ g.edges.toList) Array.mem_toList_iff

def Reaches (g : Graph) : VertexId → VertexId → Prop := Relation.ReflTransGen g.Edge

theorem check_of_lt {g : Graph} {id : VertexId} (inside : id < g.vertexCount) :
    g.check id = .ok () := if_pos inside

theorem check_of_not_lt {g : Graph} {id : VertexId} (outside : ¬ id < g.vertexCount) :
    g.check id = .error ⟨id, g.vertexCount⟩ := if_neg outside

theorem vertex_ok_iff {g : Graph} {id : VertexId} {v : Vertex} :
    g.vertex id = .ok v ↔ g.vertices[id]? = some v := by
  rw [vertex]
  cases g.vertices[id]? with
  | none => simp
  | some w => simp

theorem lt_of_vertex_ok {g : Graph} {id : VertexId} {v : Vertex} (known : g.vertex id = .ok v) :
    id < g.vertexCount :=
  (Array.getElem?_eq_some_iff.mp (vertex_ok_iff.mp known)).1

theorem exists_vertex {g : Graph} {id : VertexId} (inside : id < g.vertexCount) :
    ∃ v, g.vertex id = .ok v :=
  ⟨g.vertices[id], vertex_ok_iff.mpr (Array.getElem?_eq_getElem inside)⟩

/-- The checks look at the graph and leave it as it is. -/
theorem run_check {g : Graph} {id : VertexId} {result : Except RangeError Unit}
    (known : g.check id = result) :
    (liftM (g.check id) : ExceptT RangeError (StateM Graph) Unit).run.run g = (result, g) := by
  rw [known]
  rfl

theorem addEdge_inside {g : Graph} {source target : VertexId} (left : source < g.vertexCount)
    (right : target < g.vertexCount) :
    (addEdge source target).run.run g =
      if g.hasEdge source target then (.ok false, g)
      else (.ok true, g.appendEdge source target) := by
  rw [addEdge, run_bind_ok (run_get g), run_bind_ok (run_check (check_of_lt left)),
    run_bind_ok (run_check (check_of_lt right))]
  split <;> rfl

theorem addEdge_outside {g : Graph} {source target : VertexId}
    (outside : ¬ (source < g.vertexCount ∧ target < g.vertexCount)) :
    ∃ error, (addEdge source target).run.run g = (.error error, g) := by
  by_cases left : source < g.vertexCount
  · have right : ¬ target < g.vertexCount := fun right => outside ⟨left, right⟩
    refine ⟨⟨target, g.vertexCount⟩, ?_⟩
    rw [addEdge, run_bind_ok (run_get g), run_bind_ok (run_check (check_of_lt left)),
      run_bind_error (run_check (check_of_not_lt right))]
  · refine ⟨⟨source, g.vertexCount⟩, ?_⟩
    rw [addEdge, run_bind_ok (run_get g), run_bind_error (run_check (check_of_not_lt left))]

theorem perform_edge_cases (g : Graph) (source target : VertexId) :
    g.perform (.edge source target) = g ∨
      source < g.vertexCount ∧ target < g.vertexCount ∧ target ∉ g.successors source ∧
        g.perform (.edge source target) = g.appendEdge source target := by
  by_cases inside : source < g.vertexCount ∧ target < g.vertexCount
  · have answer := addEdge_inside inside.1 inside.2
    by_cases known : target ∈ g.successors source
    · left
      simp [perform, answer, hasEdge, known]
    · right
      refine ⟨inside.1, inside.2, known, ?_⟩
      simp [perform, answer, hasEdge, known]
  · obtain ⟨error, answer⟩ := addEdge_outside inside
    left
    rw [perform, answer]

/-- An adjacency array lists, for each vertex, the other ends of the edges at it, newest first. -/
structure Lists (adjacency : Array (List VertexId)) (count : Nat)
    (edges : List (VertexId × VertexId)) : Prop where
  size : adjacency.size = count
  ends : ∀ u, adjacency.getD u [] =
    ((edges.filter fun edge => edge.1 == u).map Prod.snd).reverse

namespace Lists

variable {adjacency : Array (List VertexId)} {count : Nat} {edges : List (VertexId × VertexId)}

theorem push (lists : Lists adjacency count edges) :
    Lists (adjacency.push []) (count + 1) edges where
  size := by simp [lists.size]
  ends u := by
    rw [← lists.ends u]
    by_cases new : u = adjacency.size
    · simp [new]
    · simp [Array.getElem?_push, new]

theorem modify (lists : Lists adjacency count edges) {source : VertexId} (target : VertexId)
    (inside : source < count) :
    Lists (adjacency.modify source (target :: ·)) count (edges ++ [(source, target)]) where
  size := by simp [lists.size]
  ends u := by
    have known := lists.ends u
    by_cases same : source = u
    · subst same
      have bound : source < adjacency.size := by rw [lists.size]; exact inside
      simp only [Array.getD_eq_getD_getElem?, Array.getElem?_eq_getElem bound,
        Option.getD_some] at known
      simp [Array.getElem?_modify, Array.getElem?_eq_getElem bound, known]
    · simpa [Array.getElem?_modify, same] using known

theorem mem_iff (lists : Lists adjacency count edges) {u v : VertexId} :
    v ∈ adjacency.getD u [] ↔ (u, v) ∈ edges := by
  rw [lists.ends u]
  simp

theorem nodup (lists : Lists adjacency count edges) (distinct : edges.Nodup) (u : VertexId) :
    (adjacency.getD u []).Nodup := by
  rw [lists.ends u, List.nodup_reverse]
  apply List.Nodup.map_on _ (distinct.filter _)
  intro a first b second same
  have left : a.1 = u := by simpa using (List.mem_filter.mp first).2
  have right : b.1 = u := by simpa using (List.mem_filter.mp second).2
  exact Prod.ext (left.trans right.symm) same

end Lists

/-- What the parts of a graph have to do with each other. -/
structure Coherent (g : Graph) : Prop where
  outgoing : Lists g.outgoing g.vertexCount g.edges.toList
  incoming : Lists g.incoming g.vertexCount (g.edges.toList.map Prod.swap)
  distinct : g.edges.toList.Nodup
  inside : ∀ edge ∈ g.edges.toList, edge.1 < g.vertexCount ∧ edge.2 < g.vertexCount

namespace Coherent

variable {g : Graph}

theorem mem_successors (coherent : g.Coherent) {u v : VertexId} :
    v ∈ g.successors u ↔ g.Edge u v := by
  rw [Edge, ← Array.mem_toList_iff]
  exact coherent.outgoing.mem_iff

theorem successors_eq (coherent : g.Coherent) (u : VertexId) :
    g.successors u = ((g.edges.toList.filter fun edge => edge.1 == u).map Prod.snd).reverse :=
  coherent.outgoing.ends u

theorem nodup_successors (coherent : g.Coherent) (u : VertexId) : (g.successors u).Nodup :=
  coherent.outgoing.nodup coherent.distinct u

theorem empty : Graph.empty.Coherent where
  outgoing := ⟨rfl, fun u => by simp [Graph.empty]⟩
  incoming := ⟨rfl, fun u => by simp [Graph.empty]⟩
  distinct := List.nodup_nil
  inside := by simp [Graph.empty]

theorem addVertex (coherent : g.Coherent) (info : VertexInfo) : (g.addVertex info).Coherent where
  outgoing := by simpa [Graph.addVertex, vertexCount] using coherent.outgoing.push
  incoming := by simpa [Graph.addVertex, vertexCount] using coherent.incoming.push
  distinct := coherent.distinct
  inside edge member := by
    obtain ⟨left, right⟩ := coherent.inside edge member
    simp only [Graph.addVertex, vertexCount, Array.size_push]
    exact ⟨Nat.lt_succ_of_lt left, Nat.lt_succ_of_lt right⟩

theorem appendEdge (coherent : g.Coherent) {source target : VertexId}
    (left : source < g.vertexCount) (right : target < g.vertexCount)
    (new : target ∉ g.successors source) : (g.appendEdge source target).Coherent where
  outgoing := by
    have lists := coherent.outgoing.modify target left
    simpa [Graph.appendEdge, vertexCount] using lists
  incoming := by
    have lists := coherent.incoming.modify source right
    simpa [Graph.appendEdge, vertexCount] using lists
  distinct := by
    have absent : (source, target) ∉ g.edges.toList := by
      intro member
      exact new (coherent.outgoing.mem_iff.mpr member)
    simp only [Graph.appendEdge, Array.toList_push]
    rw [List.nodup_append]
    refine ⟨coherent.distinct, by simp, ?_⟩
    rintro edge member other last rfl
    exact absent (List.mem_singleton.mp last ▸ member)
  inside edge member := by
    simp only [Graph.appendEdge, Array.toList_push, List.mem_append, List.mem_singleton] at member
    rcases member with old | rfl
    · exact coherent.inside edge old
    · exact ⟨left, right⟩

theorem perform (coherent : g.Coherent) (operation : Operation) :
    (g.perform operation).Coherent := by
  cases operation with
  | vertex info => exact coherent.addVertex info
  | edge source target =>
    rcases g.perform_edge_cases source target with same | ⟨left, right, new, added⟩
    · rw [same]
      exact coherent
    · rw [added]
      exact coherent.appendEdge left right new

theorem performAll (coherent : g.Coherent) (operations : List Operation) :
    (g.performAll operations).Coherent := by
  induction operations generalizing g with
  | nil => exact coherent
  | cons operation rest ih => exact ih (coherent.perform operation)

end Coherent

theorem IsNetlist.coherent {g : Graph} (netlist : g.IsNetlist) : g.Coherent := by
  obtain ⟨operations, rfl⟩ := netlist
  exact Coherent.empty.performAll operations

/-- Five wires: a loop of the first three with a chord, a way out of it to the fourth, and the fifth
apart. The second one also drives itself. -/
def loopNetlist : Graph :=
  let wire (name : String) : Operation :=
    .vertex { kind := .wire, direction := .none, name, location := "", isTop := false }
  empty.performAll ([wire "a", wire "b", wire "c", wire "d", wire "e"] ++
    [.edge 0 1, .edge 1 1, .edge 1 2, .edge 2 0, .edge 0 2, .edge 2 3])

namespace loopNetlist

theorem isNetlist : loopNetlist.IsNetlist := ⟨_, rfl⟩

theorem edges_eq : loopNetlist.edges = #[(0, 1), (1, 1), (1, 2), (2, 0), (0, 2), (2, 3)] := by
  decide

theorem reaches_out : loopNetlist.Reaches 0 3 := by
  have chord : loopNetlist.Edge 0 2 := by decide
  have out : loopNetlist.Edge 2 3 := by decide
  exact .tail (.single chord) out

theorem not_reaches_apart : ¬ loopNetlist.Reaches 0 4 := by
  intro reaches
  rcases reaches.cases_tail with same | ⟨u, _, edge⟩
  · exact absurd same (by decide)
  · simp [Edge, edges_eq] at edge

end loopNetlist

end Graph

end SignalPaths
