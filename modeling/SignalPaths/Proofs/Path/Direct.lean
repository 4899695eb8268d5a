import SignalPaths.Path.Waypoints
import SignalPaths.Proofs.Netlist
import SignalPaths.Proofs.Search.Tree

/-!
The path that a single-path search of a netlist gives. It is there exactly if the target can be
reached, and among the simple paths to the target it is the first in the order of the successors.
-/

namespace SignalPaths.Graph

open DepthFirst

variable {g : Graph} {root start stop source target : VertexId} {m : ParentMap} {path : Path}

theorem Coherent.forward_edge (coherent : g.Coherent) : g.forward.Edge = g.Edge := by
  funext u v
  exact propext coherent.mem_successors

theorem Coherent.forward_closed (coherent : g.Coherent) : g.forward.Closed := by
  intro u v edge
  have edge : g.Edge u v := coherent.mem_successors.mp edge
  exact (coherent.inside (u, v) (Array.mem_toList_iff.mpr edge)).2

theorem Coherent.reaches_inside (coherent : g.Coherent) (inside : source < g.vertexCount)
    (reaches : g.Reaches source target) : target < g.vertexCount := by
  induction reaches with
  | refl => exact inside
  | tail _ edge _ => exact (coherent.inside _ (Array.mem_toList_iff.mpr edge)).2

def forwardMap (g : Graph) (root : VertexId) (mode : SearchMode) : ParentMap :=
  (final g.forward root mode).map

theorem searchForward_result (inside : root < g.vertexCount) (mode : SearchMode) :
    (g.searchForward root mode).result = .ok (g.forwardMap root mode) := by
  simp [searchForward, searchIn, check_of_lt inside, depthFirst_map, forwardMap]

theorem searchForward_outside (outside : ¬ root < g.vertexCount) (mode : SearchMode) :
    (g.searchForward root mode).result = .error ⟨root, g.vertexCount⟩ := by
  simp [searchForward, searchIn, check_of_not_lt outside]

theorem pathOf_of_retrace (single : m.mode = .single) (left : start < g.vertexCount)
    (right : stop < g.vertexCount) (retraced : m.retrace start stop [] = .ok path) :
    (g.pathOf m start stop).result = .ok path := by
  simp [pathOf, check_of_lt left, check_of_lt right, single, retraced]

theorem pathOf_of_unreached (single : m.mode = .single) (left : start < g.vertexCount)
    (right : stop < g.vertexCount) (retraced : m.retrace start stop [] = .error .unreached) :
    (g.pathOf m start stop).result = .error (g.notReached start stop) := by
  simp [pathOf, check_of_lt left, check_of_lt right, single, retraced]

theorem pathOf_outside_start (outside : ¬ start < g.vertexCount) :
    (g.pathOf m start stop).result = .error (.outOfRange ⟨start, g.vertexCount⟩) := by
  simp [pathOf, check_of_not_lt outside]

theorem pathOf_outside_stop (left : start < g.vertexCount) (outside : ¬ stop < g.vertexCount) :
    (g.pathOf m start stop).result = .error (.outOfRange ⟨stop, g.vertexCount⟩) := by
  simp [pathOf, check_of_lt left, check_of_not_lt outside]

namespace Coherent

theorem tree (coherent : g.Coherent) (inside : root < g.vertexCount) :
    Tree g.forward root (final g.forward root .single) [] :=
  tree_final coherent.forward_closed inside

theorem ancestor_root_iff (coherent : g.Coherent) (inside : root < g.vertexCount) :
    (g.forwardMap root .single).Ancestor root stop ↔ g.Reaches root stop := by
  rw [Reaches, ← coherent.forward_edge]
  exact (coherent.tree inside).ancestor_root_iff.trans
    (discovered_iff_reaches coherent.forward_closed inside .single)

theorem simplePath_of_onlyParent (coherent : g.Coherent) (inside : root < g.vertexCount)
    (simple : IsSimplePath (g.forwardMap root .single).OnlyParent start stop path) :
    IsSimplePath g.Edge start stop path := by
  rw [← coherent.forward_edge]
  exact simple.imp_of_mem fun u _ v _ only => (coherent.tree inside).edges u v only

theorem pathOf_ancestor (coherent : g.Coherent) (inside : root < g.vertexCount)
    (left : start < g.vertexCount) (right : stop < g.vertexCount)
    (ancestor : (g.forwardMap root .single).Ancestor start stop) :
    ∃ path, (g.pathOf (g.forwardMap root .single) start stop).result = .ok path ∧
      IsSimplePath g.Edge start stop path := by
  have tree := coherent.tree inside
  obtain ⟨path, retraced, simple⟩ := tree.isForest.retrace_ancestor ancestor
  exact ⟨path, pathOf_of_retrace tree.single left right retraced,
    coherent.simplePath_of_onlyParent inside simple⟩

theorem pathOf_stranger (coherent : g.Coherent) (inside : root < g.vertexCount)
    (left : start < g.vertexCount) (right : stop < g.vertexCount)
    (stranger : ¬ (g.forwardMap root .single).Ancestor start stop) :
    (g.pathOf (g.forwardMap root .single) start stop).result = .error (g.notReached start stop) := by
  have tree := coherent.tree inside
  exact pathOf_of_unreached tree.single left right (tree.isForest.retrace_stranger stranger)

theorem pathOf_consistent (coherent : g.Coherent) (inside : root < g.vertexCount)
    (start stop vertex : VertexId) (fault : MapFault) :
    (g.pathOf (g.forwardMap root .single) start stop).result ≠ .error (.inconsistent vertex fault) := by
  by_cases left : start < g.vertexCount
  · by_cases right : stop < g.vertexCount
    · by_cases ancestor : (g.forwardMap root .single).Ancestor start stop
      · obtain ⟨path, answer, _⟩ := coherent.pathOf_ancestor inside left right ancestor
        simp [answer]
      · simp [coherent.pathOf_stranger inside left right ancestor, notReached]
    · simp [pathOf_outside_stop left right]
  · simp [pathOf_outside_start left]

end Coherent

/-- A single-path search never leaves a faulty map. From its root, the map gives a path to what can
be reached; from another vertex, to the descendants of that one. -/
theorem pathOf_searchForward (netlist : g.IsNetlist) (inside : root < g.vertexCount) :
    ∃ m, (g.searchForward root .single).result = .ok m ∧
      (∀ stop, stop < g.vertexCount →
        (g.Reaches root stop → ∃ path, (g.pathOf m root stop).result = .ok path ∧
          IsSimplePath g.Edge root stop path) ∧
        (¬ g.Reaches root stop →
          (g.pathOf m root stop).result = .error (g.notReached root stop))) ∧
      (∀ start stop, start < g.vertexCount → stop < g.vertexCount →
        (m.Ancestor start stop → ∃ path, (g.pathOf m start stop).result = .ok path ∧
          IsSimplePath g.Edge start stop path) ∧
        (¬ m.Ancestor start stop →
          (g.pathOf m start stop).result = .error (g.notReached start stop))) ∧
      ∀ start stop vertex fault,
        (g.pathOf m start stop).result ≠ .error (.inconsistent vertex fault) := by
  have coherent := netlist.coherent
  refine ⟨_, searchForward_result inside .single, ?_, ?_, coherent.pathOf_consistent inside⟩
  · intro stop right
    rw [← coherent.ancestor_root_iff inside]
    exact ⟨coherent.pathOf_ancestor inside inside right,
      coherent.pathOf_stranger inside inside right⟩
  · intro start stop left right
    exact ⟨coherent.pathOf_ancestor inside left right, coherent.pathOf_stranger inside left right⟩

theorem pathOf_searchForward_loop :
    loopNetlist.IsNetlist ∧ 0 < loopNetlist.vertexCount ∧
      ∃ m, (loopNetlist.searchForward 0 .single).result = .ok m ∧
        (∃ path, (loopNetlist.pathOf m 0 3).result = .ok path ∧
          IsSimplePath loopNetlist.Edge 0 3 path) ∧
        (loopNetlist.pathOf m 0 4).result = .error (loopNetlist.notReached 0 4) ∧
        ¬ m.Ancestor 4 3 ∧
        (loopNetlist.pathOf m 4 3).result = .error (loopNetlist.notReached 4 3) := by
  have inside : 0 < loopNetlist.vertexCount := by decide
  have third : 3 < loopNetlist.vertexCount := by decide
  have apart : 4 < loopNetlist.vertexCount := by decide
  obtain ⟨m, answer, root, others, _⟩ := pathOf_searchForward loopNetlist.isNetlist inside
  have stranger : ¬ m.Ancestor 4 3 := by
    intro ancestor
    obtain ⟨path, _, simple⟩ := (others 4 3 apart third).1 ancestor
    rcases simple.reaches.cases_head with same | ⟨u, edge, _⟩
    · exact absurd same (by decide)
    · simp [Edge, loopNetlist.edges_eq] at edge
  exact ⟨loopNetlist.isNetlist, inside, m, answer, (root 3 third).1 loopNetlist.reaches_out,
    (root 4 apart).2 loopNetlist.not_reaches_apart, stranger, (others 4 3 apart third).2 stranger⟩

theorem anyPath_direct (g : Graph) (source target : VertexId) :
    (g.anyPath ⟨source, [], target⟩).result = (g.directPath source target).result := by
  simp only [anyPath, Waypoints.segments, Waypoints.points, List.nil_append, List.cons_append,
    List.tail_cons, List.zip_cons_cons, List.zip_nil_right, List.foldlM_cons, List.foldlM_nil,
    Traced.result_bind]
  cases (g.directPath source target).result <;> rfl

theorem directPath_result (inside : source < g.vertexCount) :
    (g.directPath source target).result =
      (g.pathOf (g.forwardMap source .single) source target).result.mapError
        (g.unreachedIsNoPath source target) := by
  simp [directPath, searchForward_result inside]

theorem Coherent.anyPath_of_reaches (coherent : g.Coherent) (inside : source < g.vertexCount)
    (reaches : g.Reaches source target) :
    ∃ path, (g.anyPath ⟨source, [], target⟩).result = .ok path ∧
      TreePath g.forward source (final g.forward source .single) target path := by
  have tree := coherent.tree inside
  have found : (final g.forward source .single).Discovered target := by
    rw [discovered_iff_reaches coherent.forward_closed inside, coherent.forward_edge]
    exact reaches
  obtain ⟨path, treePath⟩ := tree.paths target found
  have answer := pathOf_of_retrace tree.single inside (coherent.reaches_inside inside reaches)
    (ParentMap.retrace_of_simplePath treePath.simple)
  refine ⟨path, ?_, treePath⟩
  rw [anyPath_direct, directPath_result inside, forwardMap, answer]
  rfl

theorem Coherent.anyPath_of_not_reaches (coherent : g.Coherent) (left : source < g.vertexCount)
    (right : target < g.vertexCount) (apart : ¬ g.Reaches source target) :
    (g.anyPath ⟨source, [], target⟩).result = .error (g.noPath source target) := by
  rw [← coherent.ancestor_root_iff left] at apart
  rw [anyPath_direct, directPath_result left, coherent.pathOf_stranger left left right apart]
  rfl

/-- Both ends of a pair are vertices where the error of the pair is asked for, so that no label is
left out and each end gets its own. -/
theorem noPath_labels {v w : Vertex} (first : g.vertex source = .ok v)
    (last : g.vertex target = .ok w) : g.noPath source target = .noPath v.label w.label := by
  rw [vertex_ok_iff] at first last
  simp [noPath, labels, first, last]

/-- A source outside of the graph has no label, and the label of the target takes its place. -/
example : (empty.addVertex ⟨.wire, .none, "a", "", false⟩).noPath 5 0 = .noPath "a" "0" := by
  decide

theorem loopNetlist.chord : IsSimplePath loopNetlist.Edge 0 3 [0, 2, 3] :=
  ⟨rfl, rfl, by decide, by decide⟩

theorem loopNetlist.around : IsSimplePath loopNetlist.Edge 0 3 [0, 1, 2, 3] :=
  ⟨rfl, rfl, by decide, by decide⟩

/-- Of all simple paths to a vertex, the search finds the first in the order of the successors,
where the newest edge comes first. -/
theorem anyPath_precedes (netlist : g.IsNetlist) (inside : source < g.vertexCount)
    (reaches : g.Reaches source target) :
    (∃ path, (g.anyPath ⟨source, [], target⟩).result = .ok path ∧
      IsSimplePath g.Edge source target path ∧
      ∀ other, IsSimplePath g.Edge source target other → path ≠ other →
        Precedes g.successors path other) ∧
    ∀ u, g.successors u =
      ((g.edges.toList.filter fun edge => edge.1 == u).map Prod.snd).reverse := by
  have coherent := netlist.coherent
  obtain ⟨path, answer, treePath⟩ := coherent.anyPath_of_reaches inside reaches
  refine ⟨⟨path, answer, coherent.simplePath_of_onlyParent inside treePath.simple, ?_⟩,
    coherent.successors_eq⟩
  intro other simple differ
  rw [← coherent.forward_edge] at simple
  exact treePath.first other simple differ

/-- There are two ways to the fourth wire, so the order says something about one of them. -/
theorem anyPath_precedes_loop :
    loopNetlist.IsNetlist ∧ 0 < loopNetlist.vertexCount ∧ loopNetlist.Reaches 0 3 ∧
      ∃ path, (loopNetlist.anyPath ⟨0, [], 3⟩).result = .ok path ∧
        (path ≠ [0, 2, 3] → Precedes loopNetlist.successors path [0, 2, 3]) ∧
        (path ≠ [0, 1, 2, 3] → Precedes loopNetlist.successors path [0, 1, 2, 3]) := by
  have inside : 0 < loopNetlist.vertexCount := by decide
  obtain ⟨⟨path, answer, _, first⟩, _⟩ :=
    anyPath_precedes loopNetlist.isNetlist inside loopNetlist.reaches_out
  exact ⟨loopNetlist.isNetlist, inside, loopNetlist.reaches_out, path, answer,
    first _ loopNetlist.chord, first _ loopNetlist.around⟩

end SignalPaths.Graph
