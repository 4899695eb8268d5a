import SignalPaths.Proofs.Path.Direct
import SignalPaths.Proofs.Path.Enumerate
import SignalPaths.Proofs.Search.Recorded

/-!
All paths between two vertices of a netlist: exactly the simple ones, each once. Where there is one
path there is one in this list, so that the list is never empty.
-/

namespace SignalPaths.Graph

open DepthFirst

variable {g : Graph} {start stop source target u v : VertexId} {m : ParentMap} {path : Path}

theorem allPaths_through {w : Waypoints} (through : w.through ≠ []) :
    (g.allPaths w).result = .error (.unsupported .throughPointsForAllPaths) := by
  simp [allPaths, through]

theorem pathsOf_of_reached (left : start < g.vertexCount) (right : stop < g.vertexCount)
    (reached : ¬ (stop ≠ start ∧ m.parents stop = [])) :
    (g.pathsOf m start stop).result = .ok (Walk.completions m start ⟨stop, []⟩) := by
  simp [pathsOf, check_of_lt left, check_of_lt right, if_neg reached, ParentMap.enumerate_paths]

theorem pathsOf_of_unreached (left : start < g.vertexCount) (right : stop < g.vertexCount)
    (unreached : stop ≠ start ∧ m.parents stop = []) :
    (g.pathsOf m start stop).result = .error (g.notReached start stop) := by
  simp [pathsOf, check_of_lt left, check_of_lt right, if_pos unreached]

theorem pathsOf_outside_stop (left : start < g.vertexCount) (outside : ¬ stop < g.vertexCount) :
    (g.pathsOf m start stop).result = .error (.outOfRange ⟨stop, g.vertexCount⟩) := by
  simp [pathsOf, check_of_lt left, check_of_not_lt outside]

namespace Coherent

theorem mem_parents (coherent : g.Coherent) (inside : source < g.vertexCount) :
    u ∈ (g.forwardMap source .all).parents v ↔ g.Reaches source u ∧ g.Edge u v := by
  rw [Reaches, ← coherent.forward_edge]
  exact mem_parents_final coherent.forward_closed inside

theorem simplePath_parent_iff (coherent : g.Coherent) (inside : source < g.vertexCount) :
    IsSimplePath (g.forwardMap source .all).Parent source target path ↔
      IsSimplePath g.Edge source target path := by
  constructor
  · intro simple
    exact simple.imp_of_mem fun u _ v _ recorded => ((coherent.mem_parents inside).mp recorded).2
  · intro simple
    exact simple.imp_of_mem fun u member v _ edge =>
      (coherent.mem_parents inside).mpr ⟨simple.reaches_of_mem member, edge⟩

theorem nodup_parents (coherent : g.Coherent) (inside : source < g.vertexCount) (v : VertexId) :
    ((g.forwardMap source .all).parents v).Nodup :=
  nodup_parents_final inside coherent.nodup_successors v

theorem exists_simplePath (coherent : g.Coherent) (inside : source < g.vertexCount)
    (reaches : g.Reaches source target) : ∃ path, IsSimplePath g.Edge source target path := by
  obtain ⟨path, _, treePath⟩ := coherent.anyPath_of_reaches inside reaches
  exact ⟨path, coherent.simplePath_of_onlyParent inside treePath.simple⟩

/-- A vertex other than the root has a recorded parent if and only if it can be reached. -/
theorem parents_eq_nil_iff (coherent : g.Coherent) (inside : source < g.vertexCount) :
    target ≠ source ∧ (g.forwardMap source .all).parents target = [] ↔ ¬ g.Reaches source target := by
  constructor
  · rintro ⟨other, orphan⟩ reaches
    rcases reaches.cases_tail with same | ⟨u, before, edge⟩
    · exact other same
    · have recorded := (coherent.mem_parents inside).mpr ⟨before, edge⟩
      rw [orphan] at recorded
      exact List.not_mem_nil recorded
  · intro apart
    refine ⟨?_, List.eq_nil_iff_forall_not_mem.mpr ?_⟩
    · rintro rfl
      exact apart .refl
    · intro u recorded
      obtain ⟨before, edge⟩ := (coherent.mem_parents inside).mp recorded
      exact apart (before.tail edge)

theorem completions_ne_nil (coherent : g.Coherent) (inside : source < g.vertexCount)
    (reaches : g.Reaches source target) :
    Walk.completions (g.forwardMap source .all) source ⟨target, []⟩ ≠ [] := by
  obtain ⟨path, simple⟩ := coherent.exists_simplePath inside reaches
  rw [← coherent.simplePath_parent_iff inside] at simple
  exact List.ne_nil_of_mem (Walk.mem_completions_singleton.mpr simple)

theorem allPaths_of_reaches (coherent : g.Coherent) (inside : source < g.vertexCount)
    (reaches : g.Reaches source target) :
    (g.allPaths ⟨source, [], target⟩).result =
      .ok (Walk.completions (g.forwardMap source .all) source ⟨target, []⟩) := by
  have reached := mt (coherent.parents_eq_nil_iff inside).mp (not_not_intro reaches)
  have listed := pathsOf_of_reached inside (coherent.reaches_inside inside reaches) reached
  simp [allPaths, searchForward_result inside, listed, coherent.completions_ne_nil inside reaches]

theorem allPaths_of_not_reaches (coherent : g.Coherent) (left : source < g.vertexCount)
    (right : target < g.vertexCount) (apart : ¬ g.Reaches source target) :
    (g.allPaths ⟨source, [], target⟩).result = .error (g.noPath source target) := by
  have unreached := pathsOf_of_unreached left right ((coherent.parents_eq_nil_iff left).mpr apart)
  simp [allPaths, searchForward_result left, unreached, notReached, unreachedIsNoPath]

end Coherent

/-- All paths between two vertices are the simple ones, each of them once. -/
theorem allPaths_simplePaths (netlist : g.IsNetlist) (left : source < g.vertexCount)
    (right : target < g.vertexCount) :
    (g.Reaches source target →
      ∃ paths, (g.allPaths ⟨source, [], target⟩).result = .ok paths ∧ paths.Nodup ∧
        (∀ path, path ∈ paths ↔ IsSimplePath g.Edge source target path) ∧
        (source = target → paths = [[source]])) ∧
    (¬ g.Reaches source target →
      ∃ v w, g.vertex source = .ok v ∧ g.vertex target = .ok w ∧
        (g.allPaths ⟨source, [], target⟩).result = .error (.noPath v.label w.label)) ∧
    (g.allPaths ⟨source, [], target⟩).result ≠ .ok [] ∧
    ∀ vertex fault,
      (g.allPaths ⟨source, [], target⟩).result ≠ .error (.inconsistent vertex fault) := by
  have coherent := netlist.coherent
  have apart := coherent.allPaths_of_not_reaches left right
  refine ⟨?_, ?_, ?_⟩
  · intro reaches
    refine ⟨_, coherent.allPaths_of_reaches left reaches,
      Walk.nodup_completions (coherent.nodup_parents left) _, ?_, ?_⟩
    · intro path
      exact Walk.mem_completions_singleton.trans (coherent.simplePath_parent_iff left)
    · rintro rfl
      exact Walk.completions_of_start rfl
  · intro missed
    obtain ⟨v, first⟩ := exists_vertex left
    obtain ⟨w, last⟩ := exists_vertex right
    refine ⟨v, w, first, last, ?_⟩
    rw [apart missed, noPath_labels first last]
  · by_cases reaches : g.Reaches source target
    · rw [coherent.allPaths_of_reaches left reaches]
      simp [coherent.completions_ne_nil left reaches]
    · rw [apart reaches]
      simp [noPath]

theorem allPaths_simplePaths_loop :
    loopNetlist.IsNetlist ∧ 0 < loopNetlist.vertexCount ∧ 3 < loopNetlist.vertexCount ∧
      4 < loopNetlist.vertexCount ∧
      (∃ paths, (loopNetlist.allPaths ⟨0, [], 3⟩).result = .ok paths ∧ paths.Nodup ∧
        [0, 2, 3] ∈ paths ∧ [0, 1, 2, 3] ∈ paths) ∧
      (loopNetlist.allPaths ⟨0, [], 4⟩).result = .error (.noPath "a" "e") := by
  have netlist := loopNetlist.isNetlist
  have source : 0 < loopNetlist.vertexCount := by decide
  have out : 3 < loopNetlist.vertexCount := by decide
  have apart : 4 < loopNetlist.vertexCount := by decide
  obtain ⟨paths, answer, distinct, members, _⟩ :=
    (allPaths_simplePaths netlist source out).1 loopNetlist.reaches_out
  obtain ⟨v, w, first, last, failed⟩ :=
    (allPaths_simplePaths netlist source apart).2.1 loopNetlist.not_reaches_apart
  have labels : v.label = "a" ∧ w.label = "e" := by
    have known : loopNetlist.labels [0, 4] = ["a", "e"] := by decide
    simpa [Graph.labels, vertex_ok_iff.mp first, vertex_ok_iff.mp last] using known
  rw [labels.1, labels.2] at failed
  exact ⟨netlist, source, out, apart,
    ⟨paths, answer, distinct, (members _).mpr loopNetlist.chord,
      (members _).mpr loopNetlist.around⟩, failed⟩

end SignalPaths.Graph
