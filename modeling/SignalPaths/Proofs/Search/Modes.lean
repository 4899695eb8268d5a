import SignalPaths.Proofs.Search.Explored

/-!
The two modes of a search side by side. They take the same steps and find the same vertices; the
single-path map keeps of the all-paths map the first parent of each vertex, and none for the root.
-/

namespace SignalPaths.DepthFirst

variable {view : View} {root u v : VertexId} {s t : State} {pending : List VertexId}
  {stack below : List Frame}

theorem run_nil (view : View) (s : State) : run view s [] = s := by
  rw [run]

theorem run_finish (view : View) (s : State) (u : VertexId) (below : List Frame) :
    run view s (⟨u, []⟩ :: below) = run view (s.finish u) below := by
  rw [run]

theorem run_enter (new : s.isDiscovered v = false) :
    run view s (⟨u, v :: pending⟩ :: below) =
      run view (s.enter u v) (⟨v, view.neighbours v⟩ :: ⟨u, pending⟩ :: below) := by
  rw [run, dif_pos new]

theorem run_pass (known : s.isDiscovered v = true) :
    run view s (⟨u, v :: pending⟩ :: below) = run view (s.pass u v) (⟨u, pending⟩ :: below) := by
  rw [run, dif_neg (by simp [known])]

/-- The state `s` of a single-path search and the state `t` of an all-paths search that has come as
far. -/
structure Alike (view : View) (root : VertexId) (stack : List Frame) (s t : State) : Prop where
  explored : Explored view root s stack
  discovered : s.discovered = t.discovered
  finished : s.finished = t.finished
  backEdges : s.backEdges = t.backEdges
  single : s.map.mode = .single
  all : t.map.mode = .all
  rootless : s.map.parents root = []
  parents : ∀ v, v ≠ root → s.map.parents v = (t.map.parents v).take 1
  fresh : ∀ v, ¬ s.Discovered v → t.map.parents v = []
  found : ∀ v, s.Discovered v → v ≠ root → t.map.parents v ≠ []

namespace Alike

theorem isDiscovered (alike : Alike view root stack s t) (v : VertexId) :
    t.isDiscovered v = s.isDiscovered v := by
  rw [State.isDiscovered, State.isDiscovered, alike.discovered]

theorem start (inside : root < view.vertexCount) :
    Alike view root [⟨root, view.neighbours root⟩] (start view root .single)
      (start view root .all) where
  explored := Explored.start inside .single
  discovered := rfl
  finished := rfl
  backEdges := rfl
  single := rfl
  all := rfl
  rootless := State.parents_start view root .single root
  parents v _ := by rw [State.parents_start, State.parents_start, List.take_nil]
  fresh v _ := State.parents_start view root .all v
  found v found other := absurd ((State.discovered_start inside .single).mp found) other

theorem finish (alike : Alike view root (⟨u, []⟩ :: below) s t) :
    Alike view root below (s.finish u) (t.finish u) where
  explored := alike.explored.finish
  discovered := alike.discovered
  finished := congrArg (·.setIfInBounds u true) alike.finished
  backEdges := alike.backEdges
  single := alike.single
  all := alike.all
  rootless := alike.rootless
  parents := alike.parents
  fresh := alike.fresh
  found := alike.found

theorem enter (alike : Alike view root (⟨u, v :: pending⟩ :: below) s t)
    (new : s.isDiscovered v = false) :
    Alike view root (⟨v, view.neighbours v⟩ :: ⟨u, pending⟩ :: below) (s.enter u v)
      (t.enter u v) := by
  have absent := State.not_discovered new
  exact {
    explored := alike.explored.enter new
    discovered := congrArg (·.setIfInBounds v true) alike.discovered
    finished := alike.finished
    backEdges := alike.backEdges
    single := alike.single
    all := alike.all
    rootless := by
      rw [State.parents_enter, if_neg (alike.explored.root_ne new)]
      exact alike.rootless
    parents := by
      intro w aside
      rw [State.parents_enter, State.parents_enter]
      split
      · rename_i same
        subst same
        rw [alike.parents w aside, alike.fresh w absent]
        rfl
      · exact alike.parents w aside
    fresh := by
      intro w unseen
      rw [State.discovered_enter new, not_or] at unseen
      rw [State.parents_enter, if_neg unseen.1]
      exact alike.fresh w unseen.2
    found := by
      intro w seen aside
      rw [State.parents_enter]
      split
      · simp
      · rename_i differ
        exact alike.found w (((State.discovered_enter new).mp seen).resolve_left differ) aside }

theorem pass (alike : Alike view root (⟨u, v :: pending⟩ :: below) s t) (closed : view.Closed)
    (known : s.isDiscovered v = true) :
    Alike view root (⟨u, pending⟩ :: below) (s.pass u v) (t.pass u v) := by
  have kept := State.map_pass_single alike.single u v
  have noted := State.map_pass_all alike.all u v
  have seen := alike.explored.top_discovered closed known
  exact {
    explored := alike.explored.pass closed known
    discovered := alike.discovered
    finished := alike.finished
    backEdges := by
      have same : s.isFinished v = t.isFinished v := congrArg (·.getD v true) alike.finished
      simp [State.pass, same, alike.backEdges]
    single := by rw [kept]; exact alike.single
    all := by rw [noted]; exact alike.all
    rootless := by rw [kept]; exact alike.rootless
    parents := by
      intro w aside
      rw [kept, noted, ParentMap.parents_record, alike.parents w aside]
      split
      · rename_i same
        subst same
        -- The first parent of a vertex is there before any edge to it is passed over.
        have some := alike.found w seen aside
        rw [List.take_append_of_le_length (List.length_pos_iff.mpr some)]
      · rfl
    fresh := by
      intro w unseen
      have differ : w ≠ v := by
        rintro rfl
        exact unseen seen
      rw [noted, ParentMap.parents_record, if_neg differ]
      exact alike.fresh w unseen
    found := by
      intro w found aside
      rw [noted, ParentMap.parents_record]
      split
      · simp
      · exact alike.found w found aside }

theorem run (closed : view.Closed) (alike : Alike view root stack s t) :
    Alike view root [] (run view s stack) (run view t stack) := by
  fun_induction DepthFirst.run view s stack generalizing t with
  | case1 s =>
    rw [run_nil]
    exact alike
  | case2 s u below ih =>
    rw [run_finish]
    exact ih alike.finish
  | case3 s u v pending below new ih =>
    rw [run_enter (by rw [alike.isDiscovered]; exact new)]
    exact ih (alike.enter new)
  | case4 s u v pending below known ih =>
    have known : s.isDiscovered v = true := by simpa using known
    rw [run_pass (by rw [alike.isDiscovered]; exact known)]
    exact ih (alike.pass closed known)

end Alike

theorem alike_final (closed : view.Closed) (inside : root < view.vertexCount) :
    Alike view root [] (final view root .single) (final view root .all) :=
  (Alike.start inside).run closed

end SignalPaths.DepthFirst
