import Mathlib.Algebra.BigOperators.Ring.Finset
import SignalPaths.Proofs.Fan

/-!
The two ways to search a netlist, along its edges and against them. A search of either heading
follows the edges of the netlist, turned round where it goes against them, and its adjacency lists
hold each of these edges once. Sums over the lists count edges.
-/

namespace SignalPaths

inductive Heading where
  | along | against
  deriving DecidableEq, Repr

namespace Graph

variable {g : Graph} {heading : Heading} {root u v : VertexId}

def view (g : Graph) : Heading → View
  | .along => g.forward
  | .against => g.backward

def search (g : Graph) : Heading → VertexId → SearchMode → Traced RangeError ParentMap
  | .along => g.searchForward
  | .against => g.searchBackward

/-- The edges as a search meets them, each from its source to its target. -/
def directed (g : Graph) : Heading → List (VertexId × VertexId)
  | .along => g.edges.toList
  | .against => g.edges.toList.map Prod.swap

def Leads (g : Graph) (heading : Heading) (u v : VertexId) : Prop := (u, v) ∈ g.directed heading

def LeadsOn (g : Graph) (heading : Heading) : VertexId → VertexId → Prop :=
  Relation.ReflTransGen (g.Leads heading)

/-- The number of edges with a property of their source and their target. -/
noncomputable def countEdges (g : Graph) (heading : Heading)
    (property : VertexId → VertexId → Prop) : Nat := by
  classical
  exact (g.directed heading).countP fun edge => property edge.1 edge.2

noncomputable def countVertices (g : Graph) (property : VertexId → Prop) : Nat := by
  classical
  exact g.vertexIds.countP fun v => property v

theorem countEdges_eq_zero_iff {property : VertexId → VertexId → Prop} :
    g.countEdges heading property = 0 ↔ ∀ u v, g.Leads heading u v → ¬ property u v := by
  rw [countEdges, List.countP_eq_zero]
  constructor
  · intro none u v edge holds
    exact none (u, v) edge (by simpa using holds)
  · intro none edge member holds
    exact none edge.1 edge.2 member (by simpa using holds)

theorem vertexCount_view (g : Graph) (heading : Heading) :
    (g.view heading).vertexCount = g.vertexCount := by
  cases heading <;> rfl

/-- A search gives its map, and tells how many vertices have a parent and how many edges lead back. -/
theorem search_eq (inside : root < g.vertexCount) (heading : Heading) (mode : SearchMode) :
    g.search heading root mode = ⟨.ok (depthFirst (g.view heading) root mode).map,
      [.searchComplete root mode (depthFirst (g.view heading) root mode).map.size
        (depthFirst (g.view heading) root mode).backEdges]⟩ := by
  cases heading with
  | along =>
    rw [search, searchForward, searchIn, check_of_lt inside]
    rfl
  | against =>
    rw [search, searchBackward, searchIn, check_of_lt inside]
    rfl

namespace Coherent

theorem view_lists (coherent : g.Coherent) (heading : Heading) :
    ∃ adjacency, Lists adjacency g.vertexCount (g.directed heading) ∧
      ∀ u, (g.view heading).neighbours u = adjacency.getD u [] := by
  cases heading with
  | along => exact ⟨g.outgoing, coherent.outgoing, fun _ => rfl⟩
  | against => exact ⟨g.incoming, coherent.incoming, fun _ => rfl⟩

theorem view_edge (coherent : g.Coherent) (heading : Heading) :
    (g.view heading).Edge = g.Leads heading := by
  obtain ⟨adjacency, lists, neighbours⟩ := coherent.view_lists heading
  funext u v
  rw [View.Edge, neighbours, lists.mem_iff, Leads]

theorem directed_inside (coherent : g.Coherent) (heading : Heading) :
    ∀ edge ∈ g.directed heading, edge.1 < g.vertexCount ∧ edge.2 < g.vertexCount := by
  cases heading with
  | along => exact coherent.inside
  | against =>
    intro edge member
    obtain ⟨original, held, rfl⟩ := List.mem_map.mp member
    exact (coherent.inside original held).symm

theorem view_closed (coherent : g.Coherent) (heading : Heading) : (g.view heading).Closed := by
  intro u v edge
  rw [coherent.view_edge] at edge
  rw [vertexCount_view]
  exact (coherent.directed_inside heading (u, v) edge).2

theorem nodup_neighbours (coherent : g.Coherent) (heading : Heading) (u : VertexId) :
    ((g.view heading).neighbours u).Nodup := by
  obtain ⟨adjacency, lists, neighbours⟩ := coherent.view_lists heading
  rw [neighbours]
  apply lists.nodup
  cases heading with
  | along => exact coherent.distinct
  | against => exact coherent.distinct.map Prod.swap_injective

end Coherent

theorem Coherent.countEdges_eq_sum (coherent : g.Coherent) (heading : Heading)
    (property : VertexId → VertexId → Prop) [∀ u v, Decidable (property u v)] :
    g.countEdges heading property = ∑ u ∈ Finset.range g.vertexCount,
      ((g.view heading).neighbours u).countP fun v => property u v := by
  obtain ⟨adjacency, lists, neighbours⟩ := coherent.view_lists heading
  have total := lists.sum_countP (fun edge member => (coherent.directed_inside heading edge member).1)
    fun u v => decide (property u v)
  simp only [neighbours, total, countEdges]
  apply List.countP_congr
  simp

theorem countVertices_eq_sum (g : Graph) (property : VertexId → Prop) [DecidablePred property] :
    g.countVertices property =
      ∑ v ∈ Finset.range g.vertexCount, if property v then 1 else 0 := by
  rw [countVertices, vertexIds]
  induction g.vertexCount with
  | zero => rfl
  | succ n ih =>
    rw [List.range_succ, List.countP_append, ih, Finset.sum_range_succ, List.countP_singleton]
    simp

namespace loopNetlist

theorem leads_iff : loopNetlist.Leads .along u v ↔
    (u, v) ∈ [(0, 1), (1, 1), (1, 2), (2, 0), (0, 2), (2, 3)] := by
  rw [Leads, directed, edges_eq]

theorem leadsOn_iff : loopNetlist.LeadsOn .along 0 v ↔ v < 4 := by
  constructor
  · intro reaches
    rcases reaches.cases_tail with rfl | ⟨u, _, last⟩
    · decide
    · have targets : ∀ edge ∈ loopNetlist.edges.toList, edge.2 < 4 := by
        rw [edges_eq]
        decide
      exact targets (u, v) last
  · intro bound
    have second : loopNetlist.LeadsOn .along 0 1 := .single (leads_iff.mpr (by decide))
    have third : loopNetlist.LeadsOn .along 0 2 := .single (leads_iff.mpr (by decide))
    have fourth : loopNetlist.LeadsOn .along 0 3 := .tail third (leads_iff.mpr (by decide))
    match v with
    | 0 => exact .refl
    | 1 => exact second
    | 2 => exact third
    | 3 => exact fourth

end loopNetlist

end Graph

end SignalPaths
