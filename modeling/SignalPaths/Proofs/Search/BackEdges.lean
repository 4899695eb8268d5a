import SignalPaths.Proofs.Search.Census
import SignalPaths.Proofs.Search.Finishing

/-!
How many back edges a search counts. Both modes count the edges that lead from a vertex to itself
or to one of its ancestors in the tree, which are on the stack when the edge is looked at. There
are none just if the search meets no cycle.
-/

namespace SignalPaths

namespace DepthFirst

variable {view : View} {root u v : VertexId} {s : State} {pending : List VertexId}
  {stack below : List Frame}

/-- The number of edges from a vertex to itself or to an ancestor. -/
noncomputable def returns (view : View) (m : ParentMap) (u : VertexId) : Nat := by
  classical
  exact (view.neighbours u).countP fun v => m.Ancestor v u

theorem returns_eq {m : ParentMap} {holds : VertexId → Bool}
    (agree : ∀ v, m.Ancestor v u ↔ holds v = true) :
    returns view m u = (view.neighbours u).countP holds := by
  classical
  rw [returns]
  apply List.countP_congr
  intro v _
  rw [decide_eq_true_iff, agree]

/-- The edges to lower vertices of the stack that are still to be looked at. -/
def due : List Frame → Nat
  | [] => 0
  | frame :: below => frame.pending.countP (vertices (frame :: below)).contains + due below

theorem due_next (u v : VertexId) (pending : List VertexId) (below : List Frame) :
    due (⟨u, v :: pending⟩ :: below) = due (⟨u, pending⟩ :: below) +
      if v ∈ vertices (⟨u, pending⟩ :: below) then 1 else 0 := by
  rw [due, due, List.countP_cons, Nat.add_right_comm]
  simp [vertices]

namespace Tree

theorem due_top (tree : Tree view root s (⟨v, view.neighbours v⟩ :: below)) :
    due (⟨v, view.neighbours v⟩ :: below) = returns view s.map v + due below := by
  rw [due, returns_eq]
  intro w
  rw [List.contains_iff_mem]
  exact tree.ancestor_top_iff

theorem returns_enter (tree : Tree view root s (⟨u, v :: pending⟩ :: below))
    (new : s.isDiscovered v = false) {a : VertexId} (found : s.Discovered a) :
    returns view (s.enter u v).map a = returns view s.map a := by
  classical
  apply returns_eq
  intro w
  rw [decide_eq_true_iff, tree.ancestor_enter new found]

/-- The edges of the vertex that is entered come in addition. -/
theorem sum_returns_enter (tree : Tree view root s (⟨u, v :: pending⟩ :: below))
    (new : s.isDiscovered v = false) (inside : v < view.vertexCount) :
    (∑ a ∈ Finset.range view.vertexCount,
      if (s.enter u v).Discovered a then returns view (s.enter u v).map a else 0) =
    (∑ a ∈ Finset.range view.vertexCount, if s.Discovered a then returns view s.map a else 0) +
      returns view (s.enter u v).map v := by
  have entered : returns view (s.enter u v).map v = ∑ a ∈ Finset.range view.vertexCount,
      if a = v then returns view (s.enter u v).map a else 0 := by
    rw [Finset.sum_ite_eq', if_pos (Finset.mem_range.mpr inside)]
  rw [entered, ← Finset.sum_add_distrib]
  apply Finset.sum_congr rfl
  intro a _
  simp only [State.discovered_enter new]
  by_cases same : a = v
  · simp [same, State.not_discovered new]
  · by_cases found : s.Discovered a
    · simp [same, found, tree.returns_enter new found]
    · simp [same, found]

end Tree

/-- Each edge to an ancestor of its source is counted or due. -/
structure Returning (view : View) (root : VertexId) (s : State) (stack : List Frame) : Prop where
  tree : Tree view root s stack
  unfinished : ∀ v, s.Discovered v → (s.isFinished v = false ↔ v ∈ vertices stack)
  new : ∀ v, ¬ s.Discovered v → v < view.vertexCount → s.isFinished v = false
  counted : s.backEdges + due stack = ∑ u ∈ Finset.range view.vertexCount,
    if s.Discovered u then returns view s.map u else 0

namespace Returning

theorem start (inside : root < view.vertexCount) :
    Returning view root (start view root .single) [⟨root, view.neighbours root⟩] where
  tree := Tree.start inside
  unfinished v found := by
    rw [State.discovered_start inside] at found
    simp [found, vertices, State.isFinished, DepthFirst.start, inside]
  new v _ bound := by simp [State.isFinished, DepthFirst.start, bound]
  counted := by
    rw [(Tree.start inside).due_top]
    simp only [State.discovered_start inside]
    rw [Finset.sum_ite_eq', if_pos (Finset.mem_range.mpr inside)]
    simp [due, DepthFirst.start]

theorem finish (returning : Returning view root s (⟨u, []⟩ :: below)) :
    Returning view root (s.finish u) below where
  tree := returning.tree.finish
  unfinished v found := by
    have off := returning.tree.top_notMem
    rw [State.isFinished_finish]
    by_cases same : v = u
    · simp [same, off]
    · rw [if_neg same, returning.unfinished v found, vertices_cons, List.mem_cons,
        or_iff_right same]
  new v absent bound := by
    have found : s.Discovered u := returning.tree.explored.stacked u List.mem_cons_self
    have other : v ≠ u := by
      rintro rfl
      exact absent found
    rw [State.isFinished_finish, if_neg other]
    exact returning.new v absent bound
  counted := by
    have counted := returning.counted
    rw [due, List.countP_nil, Nat.zero_add] at counted
    exact counted

theorem enter (returning : Returning view root s (⟨u, v :: pending⟩ :: below)) (closed : view.Closed)
    (new : s.isDiscovered v = false) :
    Returning view root (s.enter u v) (⟨v, view.neighbours v⟩ :: ⟨u, pending⟩ :: below) := by
  have tree := returning.tree
  have inside : v < view.vertexCount := closed u v tree.explored.top_edge
  have absent := State.not_discovered new
  refine ⟨tree.enter new, ?_, ?_, ?_⟩
  · intro w found
    by_cases same : w = v
    · subst same
      exact iff_of_true (returning.new w absent inside) List.mem_cons_self
    · have old := ((State.discovered_enter new).mp found).resolve_left same
      rw [vertices_cons, List.mem_cons, or_iff_right same]
      exact returning.unfinished w old
  · intro w unseen bound
    exact returning.new w (fun seen => unseen (seen.enter new)) bound
  · have off : v ∉ vertices (⟨u, pending⟩ :: below) := fun member =>
      absent (tree.explored.stacked v member)
    have counted := returning.counted
    rw [due_next, if_neg off, Nat.add_zero] at counted
    rw [(tree.enter new).due_top, tree.sum_returns_enter new inside, ← counted]
    change s.backEdges + _ = _
    omega

theorem pass (returning : Returning view root s (⟨u, v :: pending⟩ :: below))
    (closed : view.Closed) (known : s.isDiscovered v = true) :
    Returning view root (s.pass u v) (⟨u, pending⟩ :: below) where
  tree := returning.tree.pass closed known
  unfinished := returning.unfinished
  new := returning.new
  counted := by
    have seen := returning.tree.explored.top_discovered closed known
    have stacked := returning.unfinished v seen
    have counted := returning.counted
    rw [due_next] at counted
    rw [State.map_pass_single returning.tree.single]
    simp only [State.discovered_pass]
    rw [← counted, State.pass]
    by_cases member : v ∈ vertices (⟨u, pending⟩ :: below)
    · have waits : s.isFinished v = false := stacked.mpr member
      simp only [waits, member, if_true, Bool.false_eq_true, if_false]
      omega
    · have done : s.isFinished v = true := by
        rw [← Bool.not_eq_false]
        exact fun waits => member (stacked.mp waits)
      simp only [done, member, if_true, if_false]
      omega

theorem run (closed : view.Closed) (returning : Returning view root s stack) :
    Returning view root (run view s stack) [] :=
  run_induction (fun _ _ _ returning => returning.finish)
    (fun _ _ _ _ _ new returning => returning.enter closed new)
    (fun _ _ _ _ _ known returning => returning.pass closed known) s stack returning

end Returning

theorem backEdges_final (closed : view.Closed) (inside : root < view.vertexCount) :
    (final view root .single).backEdges = ∑ u ∈ Finset.range view.vertexCount,
      if (final view root .single).Discovered u then
        returns view (final view root .single).map u else 0 :=
  ((Returning.start inside).run closed).counted

end DepthFirst

namespace Graph

open DepthFirst

variable {g : Graph} {root : VertexId}

/-- The edges that close a cycle of a search are those that lead back to an ancestor. -/
theorem search_backEdges (netlist : g.IsNetlist) (heading : Heading)
    (inside : root < g.vertexCount) :
    ∃ s a count,
      g.search heading root .single = ⟨.ok s, [.searchComplete root .single s.size count]⟩ ∧
      g.search heading root .all = ⟨.ok a, [.searchComplete root .all a.size count]⟩ ∧
      count = g.countEdges heading (fun u v => g.LeadsOn heading root u ∧ s.Ancestor v u) ∧
      (count = 0 ↔
        ¬ ∃ v, g.LeadsOn heading root v ∧ Relation.TransGen (g.Leads heading) v v) := by
  classical
  have coherent := netlist.coherent
  have closed := coherent.view_closed heading
  have bound : root < (g.view heading).vertexCount := by rwa [vertexCount_view]
  have both := (alike_final closed bound).backEdges
  have cycles := exists_cycle_iff closed bound
  simp only [coherent.discovered_iff_leadsOn heading inside, coherent.view_edge] at cycles
  have total : (final (g.view heading) root .single).backEdges = g.countEdges heading
      fun u v => g.LeadsOn heading root u ∧
        (final (g.view heading) root .single).map.Ancestor v u := by
    rw [backEdges_final closed bound, coherent.countEdges_eq_sum, vertexCount_view]
    apply Finset.sum_congr rfl
    intro u _
    simp only [coherent.discovered_iff_leadsOn heading inside]
    split
    · rename_i found
      simp only [found, true_and]
      exact returns_eq fun v => decide_eq_true_iff.symm
    · rename_i apart
      simp [apart]
  refine ⟨(final (g.view heading) root .single).map, (final (g.view heading) root .all).map,
    (final (g.view heading) root .single).backEdges, search_eq inside heading .single, ?_, total, ?_⟩
  · rw [search_eq inside, both]
    rfl
  · rw [cycles, total, countEdges_eq_zero_iff]
    constructor
    · rintro none ⟨u, v, found, edge, ancestor⟩
      exact none u v edge ⟨found, ancestor⟩
    · rintro none u v edge ⟨found, ancestor⟩
      exact none ⟨u, v, found, edge, ancestor⟩

/-- The second wire drives itself, which is a cycle. -/
theorem search_backEdges_loop :
    loopNetlist.IsNetlist ∧ 0 < loopNetlist.vertexCount ∧
      ∃ s a count, loopNetlist.search .along 0 .single =
          ⟨.ok s, [.searchComplete 0 .single s.size count]⟩ ∧
        loopNetlist.search .along 0 .all = ⟨.ok a, [.searchComplete 0 .all a.size count]⟩ ∧
        count ≠ 0 := by
  have inside : 0 < loopNetlist.vertexCount := by decide
  obtain ⟨s, a, count, single, all, _, cycles⟩ :=
    search_backEdges loopNetlist.isNetlist .along inside
  refine ⟨loopNetlist.isNetlist, inside, s, a, count, single, all, ?_⟩
  intro none
  have loop : loopNetlist.Leads .along 1 1 := loopNetlist.leads_iff.mpr (by decide)
  exact cycles.mp none ⟨1, loopNetlist.leadsOn_iff.mpr (by decide), .single loop⟩

end Graph

end SignalPaths
