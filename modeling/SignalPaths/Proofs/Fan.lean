import SignalPaths.Fan
import SignalPaths.Proofs.Computation
import SignalPaths.Proofs.Netlist.History
import SignalPaths.Proofs.Path.Direct

/-!
Fan-out and fan-in of a vertex. A search along the edges, or against them, reaches what it should,
and the map it leaves has a simple path from its root to each vertex that it reaches.
-/

namespace SignalPaths

namespace ParentMap

variable {m : ParentMap}

/-- No vertex is kept without a parent. -/
def Filled (m : ParentMap) : Prop := ∀ v, m.byChild.contains v = true → m.parents v ≠ []

theorem Filled.record (filled : m.Filled) (child parent : VertexId) :
    (m.record child parent).Filled := by
  intro v held
  rw [parents_record]
  by_cases same : v = child
  · simp [same]
  · rw [if_neg same]
    apply filled v
    simpa [ParentMap.record, Std.TreeMap.contains_alter, Ne.symm same] using held

theorem contains_of_mem_parents {parent v : VertexId} (recorded : parent ∈ m.parents v) :
    m.byChild.contains v = true := by
  by_contra absent
  rw [Bool.not_eq_true] at absent
  rw [parents, Std.TreeMap.getD_eq_fallback_of_contains_eq_false absent] at recorded
  cases recorded

end ParentMap

namespace DepthFirst

variable {view : View} {root v : VertexId} {s : State}

/-- The map of a search keeps its root, and no vertex without a parent. -/
theorem map_final (view : View) (root : VertexId) (mode : SearchMode) :
    (final view root mode).map.root = root ∧ (final view root mode).map.Filled := by
  refine run_induction (motive := fun s _ => s.map.root = root ∧ s.map.Filled)
    (fun _ _ _ holds => holds) ?_ ?_ _ _ ⟨rfl, ?_⟩
  · intro s u v pending below _ holds
    exact ⟨holds.1, holds.2.record v u⟩
  · intro s u v pending below _ holds
    rw [State.pass]
    split
    · exact ⟨holds.1, holds.2.record v u⟩
    · exact holds
  · intro v held
    simp [start] at held

theorem Tree.reached_iff (tree : Tree view root s []) (rooted : s.map.root = root)
    (filled : s.map.Filled) : s.map.reached v = true ↔ s.Discovered v := by
  rw [ParentMap.reached, rooted, Bool.or_eq_true, beq_iff_eq]
  constructor
  · intro reached
    rcases reached with rfl | held
    · exact tree.explored.rooted
    · by_contra absent
      exact filled v held (tree.fresh v absent)
  · intro found
    obtain ⟨path, treePath⟩ := tree.paths v found
    rcases treePath.simple.eq_singleton_or_concat with ⟨same, _⟩ | ⟨u, _, _, _, only⟩
    · exact .inl same
    · rw [ParentMap.OnlyParent] at only
      exact .inr (ParentMap.contains_of_mem_parents (by rw [only]; exact List.mem_cons_self))

theorem reached_final (closed : view.Closed) (inside : root < view.vertexCount) :
    (final view root .single).map.reached v = true ↔ Relation.ReflTransGen view.Edge root v := by
  obtain ⟨rooted, filled⟩ := map_final view root .single
  rw [(tree_final closed inside).reached_iff rooted filled]
  exact discovered_iff_reaches closed inside .single

end DepthFirst

namespace Graph

open DepthFirst

variable {g : Graph} {view : View} {root : VertexId} {accepts : Vertex → Bool}
  {selected : List Vertex}

/-- The vertices that the test accepts and that can be reached, in order of their numbers. -/
def IsSelection (g : Graph) (view : View) (root : VertexId) (accepts : Vertex → Bool)
    (selected : List Vertex) : Prop :=
  selected.Sublist g.vertices.toList ∧
    ∀ v ∈ g.vertices.toList, v ∈ selected ↔
      Relation.ReflTransGen view.Edge root v.id ∧ accepts v = true

theorem pathOf_final {stop : VertexId} (closed : view.Closed)
    (same : view.vertexCount = g.vertexCount) (left : root < g.vertexCount)
    (right : stop < g.vertexCount) (reaches : Relation.ReflTransGen view.Edge root stop) :
    ∃ path, (g.pathOf (final view root .single).map root stop).result = .ok path ∧
      IsSimplePath view.Edge root stop path := by
  have bound : root < view.vertexCount := by rw [same]; exact left
  have tree := tree_final closed bound
  have found := (discovered_iff_reaches closed bound .single).mpr reaches
  obtain ⟨path, treePath⟩ := tree.paths stop found
  refine ⟨path, ?_, treePath.simple.imp_of_mem fun u _ v _ only => tree.edges u v only⟩
  exact pathOf_of_retrace tree.single left right (ParentMap.retrace_of_simplePath treePath.simple)

theorem reachedPaths_final (indexed : g.Indexed) (closed : view.Closed)
    (same : view.vertexCount = g.vertexCount) (inside : root < g.vertexCount)
    (accepts : Vertex → Bool) :
    ∃ selected paths, g.IsSelection view root accepts selected ∧
      (g.reachedPaths (final view root .single).map accepts).result = .ok paths ∧
      List.Forall₂ (fun v path =>
        (g.pathOf (final view root .single).map root v.id).result = .ok path ∧
          IsSimplePath view.Edge root v.id path) selected paths := by
  have bound : root < view.vertexCount := by rw [same]; exact inside
  have chosen : ∀ v, v ∈ (g.vertices.toList.filter fun v =>
      (final view root .single).map.reached v.id && accepts v) ↔
      v ∈ g.vertices.toList ∧ Relation.ReflTransGen view.Edge root v.id ∧ accepts v = true := by
    intro v
    rw [List.mem_filter, Bool.and_eq_true, reached_final closed bound]
  have each : ∀ v ∈ (g.vertices.toList.filter fun v =>
      (final view root .single).map.reached v.id && accepts v), ∃ path,
      (g.pathOf (final view root .single).map root v.id).result = .ok path ∧
        IsSimplePath view.Edge root v.id path := by
    intro v member
    obtain ⟨held, reaches, _⟩ := (chosen v).mp member
    exact pathOf_final closed same inside (indexed.id_lt held) reaches
  obtain ⟨paths, found⟩ := exists_forall₂ each
  refine ⟨_, paths, ⟨List.filter_sublist, ?_⟩, ?_, found⟩
  · intro v held
    rw [chosen]
    exact and_iff_right held
  · rw [reachedPaths, Traced.result_mapM, (map_final view root .single).1]
    exact mapM_ok_iff.mpr (found.imp fun _ _ both => both.1)

theorem Coherent.backward_edge (coherent : g.Coherent) {u v : VertexId} :
    g.backward.Edge u v ↔ g.Edge v u := by
  rw [Edge, ← Array.mem_toList_iff]
  refine (coherent.incoming.mem_iff (u := u) (v := v)).trans ?_
  simp

theorem Coherent.backward_closed (coherent : g.Coherent) : g.backward.Closed := by
  intro u v edge
  have edge : g.Edge v u := coherent.backward_edge.mp edge
  exact (coherent.inside (v, u) (Array.mem_toList_iff.mpr edge)).1

theorem searchBackward_result (inside : root < g.vertexCount) (mode : SearchMode) :
    (g.searchBackward root mode).result = .ok (final g.backward root mode).map := by
  simp [searchBackward, searchIn, check_of_lt inside, depthFirst_map]

theorem searchBackward_outside (outside : ¬ root < g.vertexCount) (mode : SearchMode) :
    (g.searchBackward root mode).result = .error ⟨root, g.vertexCount⟩ := by
  simp [searchBackward, searchIn, check_of_not_lt outside]

theorem fanOut_outside (outside : ¬ root < g.vertexCount) :
    (g.fanOut root).result = .error (.outOfRange ⟨root, g.vertexCount⟩) := by
  simp [fanOut, searchForward_outside outside]

theorem fanIn_outside (outside : ¬ root < g.vertexCount) :
    (g.fanIn root).result = .error (.outOfRange ⟨root, g.vertexCount⟩) := by
  simp [fanIn, searchBackward_outside outside]

/-- One path from the root to each end point that it reaches, as the search between the two finds
it. -/
theorem Coherent.fanOut_direct (coherent : g.Coherent) (indexed : g.Indexed)
    (inside : root < g.vertexCount) :
    ∃ selected paths, g.IsSelection g.forward root Vertex.isEndPoint selected ∧
      (g.fanOut root).result = .ok paths ∧
      List.Forall₂ (fun v path => (g.directPath root v.id).result = .ok path ∧
        IsSimplePath g.Edge root v.id path) selected paths := by
  obtain ⟨selected, paths, selection, answer, found⟩ :=
    reachedPaths_final indexed coherent.forward_closed rfl inside Vertex.isEndPoint
  refine ⟨selected, paths, selection, ?_, ?_⟩
  · simp [fanOut, searchForward_result inside, forwardMap, answer]
  · rw [coherent.forward_edge] at found
    apply found.imp
    intro v path both
    refine ⟨?_, both.2⟩
    rw [directPath_result inside, forwardMap, both.1]
    rfl

theorem Coherent.fanOut_result (coherent : g.Coherent) (indexed : g.Indexed)
    (inside : root < g.vertexCount) :
    ∃ selected paths, g.IsSelection g.forward root Vertex.isEndPoint selected ∧
      (g.fanOut root).result = .ok paths ∧
      List.Forall₂ (fun v path => IsSimplePath g.Edge root v.id path) selected paths := by
  obtain ⟨selected, paths, selection, answer, found⟩ := coherent.fanOut_direct indexed inside
  exact ⟨selected, paths, selection, answer, found.imp fun _ _ both => both.2⟩

/-- One path to the root from each start point that it can be reached from. -/
theorem Coherent.fanIn_result (coherent : g.Coherent) (indexed : g.Indexed)
    (inside : root < g.vertexCount) :
    ∃ selected paths, g.IsSelection g.backward root Vertex.isStartPoint selected ∧
      (g.fanIn root).result = .ok paths ∧
      List.Forall₂ (fun v path => IsSimplePath g.Edge v.id root path) selected paths := by
  obtain ⟨selected, paths, selection, answer, found⟩ :=
    reachedPaths_final indexed coherent.backward_closed rfl inside Vertex.isStartPoint
  refine ⟨selected, paths.map List.reverse, selection, ?_, ?_⟩
  · simp [fanIn, searchBackward_result inside, answer]
  · rw [List.forall₂_map_right_iff]
    apply found.imp
    intro v path both
    exact both.2.reverse.imp_of_mem fun a _ b _ edge => coherent.backward_edge.mp edge

/-- A path from the root to an end point. -/
def IsFanOutPath (g : Graph) (root : VertexId) (path : Path) : Prop :=
  ∃ stop v, g.vertex stop = .ok v ∧ v.isEndPoint = true ∧ IsSimplePath g.Edge root stop path

/-- A path to the root from a start point. -/
def IsFanInPath (g : Graph) (root : VertexId) (path : Path) : Prop :=
  ∃ start v, g.vertex start = .ok v ∧ v.isStartPoint = true ∧ IsSimplePath g.Edge start root path

theorem IsSelection.paths_related (selection : g.IsSelection view root accepts selected)
    (indexed : g.Indexed) {related : VertexId → Path → Prop} {paths : List Path}
    (each : List.Forall₂ (fun v path => related v.id path) selected paths) :
    ∀ path ∈ paths, ∃ id v, g.vertex id = .ok v ∧ accepts v = true ∧ related id path := by
  intro path member
  obtain ⟨v, chosen, along⟩ := forall₂_mem_right each member
  have held := selection.1.mem chosen
  have known : g.vertex v.id = .ok v := vertex_ok_iff.mpr (indexed.getElem?_id held)
  exact ⟨v.id, v, known, ((selection.2 v held).mp chosen).2, along⟩

theorem Coherent.fanOut_paths (coherent : g.Coherent) (indexed : g.Indexed)
    (inside : root < g.vertexCount) :
    ∃ paths, (g.fanOut root).result = .ok paths ∧ ∀ path ∈ paths, g.IsFanOutPath root path := by
  obtain ⟨selected, paths, selection, answer, simple⟩ := coherent.fanOut_result indexed inside
  exact ⟨paths, answer, selection.paths_related indexed simple⟩

theorem Coherent.fanIn_paths (coherent : g.Coherent) (indexed : g.Indexed)
    (inside : root < g.vertexCount) :
    ∃ paths, (g.fanIn root).result = .ok paths ∧ ∀ path ∈ paths, g.IsFanInPath root path := by
  obtain ⟨selected, paths, selection, answer, simple⟩ := coherent.fanIn_result indexed inside
  exact ⟨paths, answer, selection.paths_related indexed simple⟩

end Graph

end SignalPaths
