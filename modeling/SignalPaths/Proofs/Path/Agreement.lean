import SignalPaths.Proofs.Path.All
import SignalPaths.Proofs.Search.Modes

/-!
One path and all paths agree: the one path is the first of all, and the two fail alike.
-/

namespace SignalPaths.Graph

open DepthFirst

variable {g : Graph} {source target : VertexId} {path : Path}

/-- The path in the tree goes along the first parents of the all-paths map. -/
theorem Coherent.firstParent_of_onlyParent (coherent : g.Coherent) (inside : source < g.vertexCount)
    (simple : IsSimplePath (g.forwardMap source .single).OnlyParent source target path) :
    IsSimplePath (g.forwardMap source .all).FirstParent source target path := by
  have alike := alike_final coherent.forward_closed inside
  refine simple.imp_of_mem fun u _ v _ only => ?_
  rw [ParentMap.OnlyParent] at only
  have other : v ≠ source := by
    rintro rfl
    rw [forwardMap, alike.rootless] at only
    simp at only
  have kept : ((g.forwardMap source .all).parents v).take 1 = [u] :=
    (alike.parents v other).symm.trans only
  simpa [ParentMap.FirstParent, List.head?_take] using congrArg List.head? kept

theorem anyPath_outside_source (outside : ¬ source < g.vertexCount) :
    (g.anyPath ⟨source, [], target⟩).result = .error (.outOfRange ⟨source, g.vertexCount⟩) := by
  simp [anyPath_direct, directPath, searchForward_outside outside]

theorem anyPath_outside_target (inside : source < g.vertexCount)
    (outside : ¬ target < g.vertexCount) :
    (g.anyPath ⟨source, [], target⟩).result = .error (.outOfRange ⟨target, g.vertexCount⟩) := by
  simp [anyPath_direct, directPath_result inside, pathOf_outside_stop inside outside,
    unreachedIsNoPath]

theorem allPaths_outside_source (outside : ¬ source < g.vertexCount) :
    (g.allPaths ⟨source, [], target⟩).result = .error (.outOfRange ⟨source, g.vertexCount⟩) := by
  simp [allPaths, searchForward_outside outside]

theorem allPaths_outside_target (inside : source < g.vertexCount)
    (outside : ¬ target < g.vertexCount) :
    (g.allPaths ⟨source, [], target⟩).result = .error (.outOfRange ⟨target, g.vertexCount⟩) := by
  simp [allPaths, searchForward_result inside, pathsOf_outside_stop inside outside,
    unreachedIsNoPath]

theorem Coherent.head_of_reaches (coherent : g.Coherent) (inside : source < g.vertexCount)
    (reaches : g.Reaches source target) :
    ∃ path paths, (g.anyPath ⟨source, [], target⟩).result = .ok path ∧
      (g.allPaths ⟨source, [], target⟩).result = .ok paths ∧ paths.head? = some path := by
  obtain ⟨path, answer, treePath⟩ := coherent.anyPath_of_reaches inside reaches
  refine ⟨path, _, answer, coherent.allPaths_of_reaches inside reaches, ?_⟩
  have along := coherent.firstParent_of_onlyParent inside treePath.simple
  have distinct : (path ++ []).Nodup := by simpa using along.distinct
  rw [Walk.head_completions along distinct, List.append_nil]

/-- Why there is no path: a number outside of the graph, the source first, or no way from the one
vertex to the other, each of which is named by its own label. -/
def pathFailure (g : Graph) (source target : VertexId) : PathError :=
  match g.vertices[source]?, g.vertices[target]? with
  | none, _ => .outOfRange ⟨source, g.vertexCount⟩
  | some _, none => .outOfRange ⟨target, g.vertexCount⟩
  | some v, some w => .noPath v.label w.label

theorem pathFailure_outside_source (outside : ¬ source < g.vertexCount) :
    g.pathFailure source target = .outOfRange ⟨source, g.vertexCount⟩ := by
  rw [pathFailure, Array.getElem?_eq_none (Nat.le_of_not_lt outside)]

theorem pathFailure_outside_target (inside : source < g.vertexCount)
    (outside : ¬ target < g.vertexCount) :
    g.pathFailure source target = .outOfRange ⟨target, g.vertexCount⟩ := by
  rw [pathFailure, Array.getElem?_eq_getElem inside,
    Array.getElem?_eq_none (Nat.le_of_not_lt outside)]

/-- Inside of the graph, the labels that the error takes by position are those of its ends. -/
theorem noPath_eq_pathFailure (left : source < g.vertexCount) (right : target < g.vertexCount) :
    g.noPath source target = g.pathFailure source target := by
  obtain ⟨v, first⟩ := exists_vertex left
  obtain ⟨w, last⟩ := exists_vertex right
  rw [noPath_labels first last, pathFailure, vertex_ok_iff.mp first, vertex_ok_iff.mp last]

theorem Coherent.fail_alike (coherent : g.Coherent)
    (apart : ¬ (source < g.vertexCount ∧ g.Reaches source target)) :
    (g.anyPath ⟨source, [], target⟩).result = .error (g.pathFailure source target) ∧
      (g.allPaths ⟨source, [], target⟩).result = .error (g.pathFailure source target) := by
  by_cases left : source < g.vertexCount
  · by_cases right : target < g.vertexCount
    · have apart : ¬ g.Reaches source target := fun reaches => apart ⟨left, reaches⟩
      rw [← noPath_eq_pathFailure left right]
      exact ⟨coherent.anyPath_of_not_reaches left right apart,
        coherent.allPaths_of_not_reaches left right apart⟩
    · rw [pathFailure_outside_target left right]
      exact ⟨anyPath_outside_target left right, allPaths_outside_target left right⟩
  · rw [pathFailure_outside_source left]
    exact ⟨anyPath_outside_source left, allPaths_outside_source left⟩

/-- The search for one path gives the first of all paths, or the error that the search for all
paths gives. -/
theorem anyPath_agrees_allPaths (netlist : g.IsNetlist) (source target : VertexId) :
    (∀ path, (g.anyPath ⟨source, [], target⟩).result = .ok path ↔
      ∃ paths, (g.allPaths ⟨source, [], target⟩).result = .ok paths ∧ paths.head? = some path) ∧
    (∀ error, (g.anyPath ⟨source, [], target⟩).result = .error error ↔
      (g.allPaths ⟨source, [], target⟩).result = .error error) ∧
    ∀ error, (g.anyPath ⟨source, [], target⟩).result = .error error →
      error = g.pathFailure source target := by
  have coherent := netlist.coherent
  by_cases known : source < g.vertexCount ∧ g.Reaches source target
  · obtain ⟨path, paths, one, all, first⟩ := coherent.head_of_reaches known.1 known.2
    rw [one, all]
    simp [first]
  · obtain ⟨one, all⟩ := coherent.fail_alike known
    rw [one, all]
    simp [eq_comm]

theorem anyPath_agrees_allPaths_loop :
    loopNetlist.IsNetlist ∧
      (∀ path, (loopNetlist.anyPath ⟨0, [], 3⟩).result = .ok path ↔
        ∃ paths, (loopNetlist.allPaths ⟨0, [], 3⟩).result = .ok paths ∧
          paths.head? = some path) ∧
      ∀ error, (loopNetlist.anyPath ⟨0, [], 7⟩).result = .error error ↔
        (loopNetlist.allPaths ⟨0, [], 7⟩).result = .error error :=
  ⟨loopNetlist.isNetlist, (anyPath_agrees_allPaths loopNetlist.isNetlist 0 3).1,
    (anyPath_agrees_allPaths loopNetlist.isNetlist 0 7).2.1⟩

end SignalPaths.Graph
