import Mathlib.Logic.Function.Iterate
import SignalPaths.Proofs.Path.All

/-!
Backtracking in a parent map of any kind. A walk back from the end is a list that grows at its end,
and its last vertex says which paths it leads to: the walk itself, turned round, if that vertex is
the start, and else the paths of the walks that are longer by one parent. The loop with a stack of
walks empties its stack whatever was recorded, and by then it has found these paths in this order.
-/

namespace SignalPaths

namespace ParentMap

theorem unused_concat (m : ParentMap) (walk : Path) (parent : VertexId) :
    m.unused (walk ++ [parent]) = m.unused (parent :: walk) := by
  unfold unused
  congr 1
  funext v
  simp [Bool.and_comm]

/-- The paths from `start` to which a walk back leads. The walk begins with its end. -/
def backWalks (m : ParentMap) (start : VertexId) (walk : Path) : List Path :=
  match _ : walk.getLast? with
  | none => []
  | some current =>
    if current = start then [walk.reverse]
    else
      ((m.parents current).filter fun parent => !walk.contains parent).attach.flatMap
        fun parent => backWalks m start (walk ++ [parent.1])
termination_by m.unused walk
decreasing_by
  -- A longer walk leaves fewer of the recorded parents unused, also on a cycle.
  obtain ⟨known, fresh⟩ := List.mem_filter.mp parent.2
  rw [unused_concat]
  exact unused_cons_lt known (by simpa using fresh)

theorem backWalks_concat (m : ParentMap) (start : VertexId) (walk : Path) (current : VertexId) :
    m.backWalks start (walk ++ [current]) =
      if current = start then [(walk ++ [current]).reverse]
      else
        ((m.parents current).filter fun parent => !(walk ++ [current]).contains parent).flatMap
          fun parent => m.backWalks start (walk ++ [current] ++ [parent]) := by
  rw [backWalks]
  split
  · rename_i known
    simp at known
  · rename_i last known
    obtain rfl : current = last := by simpa using known
    rw [List.flatMap_def, List.flatMap_def,
      List.attach_map_val (f := fun parent => m.backWalks start (walk ++ [current] ++ [parent]))]

theorem completions_eq_backWalks (m : ParentMap) (start : VertexId) (w : Walk) :
    w.completions m start = m.backWalks start w.path.reverse := by
  induction w using Walk.extension_induction m with
  | step w ih =>
    have turned : w.path.reverse = w.passed.reverse ++ [w.current] := by simp [Walk.path]
    rw [turned, backWalks_concat, ← turned]
    by_cases done : w.current = start
    · rw [if_pos done, Walk.completions_of_start done, List.reverse_reverse]
    · rw [if_neg done, Walk.completions_of_ne done, List.flatMap_congr ih, Walk.extensions,
        List.flatMap_map]
      simp only [Walk.extend, List.contains_reverse]
      simp [Walk.path]

/-- One turn of the loop takes the walk on top off the stack. If that walk is at the start it is a
path, and else the walks that lead further back are put in its place. -/
def turn (m : ParentMap) (start : VertexId) :
    List Walk × Enumeration → List Walk × Enumeration
  | ([], found) => ([], found)
  | (w :: below, found) =>
    if w.current = start then
      (below, { found with paths := found.paths.push w.path })
    else
      (w.extensions m ++ below, { found with pruned := found.pruned ++ w.pruned m })

theorem iterate_turn (m : ParentMap) (start : VertexId) (stack : List Walk) (found : Enumeration) :
    ∃ turns, (m.turn start)^[turns] (stack, found) = ([], m.enumerate start stack found) := by
  fun_induction enumerate m start stack found with
  | case1 found => exact ⟨0, rfl⟩
  | case2 found w below done ih =>
    obtain ⟨turns, ended⟩ := ih
    refine ⟨turns + 1, ?_⟩
    rw [Function.iterate_succ_apply, turn, if_pos done, ended]
  | case3 found w below other ih =>
    obtain ⟨turns, ended⟩ := ih
    refine ⟨turns + 1, ?_⟩
    rw [Function.iterate_succ_apply, turn, if_neg other, ended]

end ParentMap

namespace Graph

variable {start stop : VertexId}

/-- Whatever a map holds, the stack of walks is emptied, and the paths are those of the walk that
consists of the end alone. The end counts as not reached if it is not the start and has no
parent. -/
theorem pathsOf_backWalks (g : Graph) (m : ParentMap) (left : start < g.vertexCount)
    (right : stop < g.vertexCount) :
    (∃ turns, (m.turn start)^[turns] ([⟨stop, []⟩], {}) =
      ([], m.enumerate start [⟨stop, []⟩] {})) ∧
    ((∃ source target, (g.pathsOf m start stop).result = .error (.notReached source target)) ↔
      stop ≠ start ∧ m.parents stop = []) ∧
    (¬ (stop ≠ start ∧ m.parents stop = []) →
      (g.pathsOf m start stop).result = .ok (m.backWalks start [stop])) := by
  have answer (reached : ¬ (stop ≠ start ∧ m.parents stop = [])) :
      (g.pathsOf m start stop).result = .ok (m.backWalks start [stop]) := by
    rw [pathsOf_of_reached left right reached, m.completions_eq_backWalks]
    rfl
  refine ⟨m.iterate_turn start [⟨stop, []⟩] {}, ?_, answer⟩
  constructor
  · rintro ⟨source, target, failed⟩
    by_contra reached
    rw [answer reached] at failed
    cases failed
  · intro unreached
    exact ⟨_, _, pathsOf_of_unreached left right unreached⟩

/-- The third wire has the second one as a parent twice, the two are parents of each other, and one
parent is no vertex of the netlist. -/
def tangledMap : ParentMap :=
  .ofPairs .all 4 [(2, 1), (2, 0), (2, 1), (1, 2), (1, 0), (1, 9), (9, 0)]

theorem tangledMap.parents_eq :
    tangledMap.parents 1 = [2, 0, 9] ∧ tangledMap.parents 2 = [1, 0, 1] ∧
      tangledMap.parents 3 = [] ∧ tangledMap.parents 9 = [0] := by
  simp [tangledMap, ParentMap.parents_ofPairs]

theorem tangledMap.backWalks_eq :
    tangledMap.backWalks 0 [2] =
      [[0, 1, 2], [0, 9, 1, 2], [0, 2], [0, 1, 2], [0, 9, 1, 2]] := by
  obtain ⟨parents₁, parents₂, _, parents₉⟩ := parents_eq
  have back := tangledMap.backWalks_concat 0
  have direct : tangledMap.backWalks 0 [2, 0] = [[0, 2]] := back [2] 0
  have near : tangledMap.backWalks 0 [2, 1, 0] = [[0, 1, 2]] := back [2, 1] 0
  have far : tangledMap.backWalks 0 [2, 1, 9, 0] = [[0, 9, 1, 2]] := back [2, 1, 9] 0
  have outside : tangledMap.backWalks 0 [2, 1, 9] = [[0, 9, 1, 2]] := by
    simpa [parents₉, far] using back [2, 1] 9
  have second : tangledMap.backWalks 0 [2, 1] = [[0, 1, 2], [0, 9, 1, 2]] := by
    simpa [parents₁, near, outside] using back [2] 1
  simpa [parents₂, second, direct] using back [] 2

theorem pathsOf_backWalks_tangled :
    0 < loopNetlist.vertexCount ∧ 2 < loopNetlist.vertexCount ∧ 3 < loopNetlist.vertexCount ∧
      (loopNetlist.pathsOf tangledMap 0 2).result =
        .ok [[0, 1, 2], [0, 9, 1, 2], [0, 2], [0, 1, 2], [0, 9, 1, 2]] ∧
      ∃ source target,
        (loopNetlist.pathsOf tangledMap 0 3).result = .error (.notReached source target) := by
  have first : 0 < loopNetlist.vertexCount := by decide
  have third : 2 < loopNetlist.vertexCount := by decide
  have fourth : 3 < loopNetlist.vertexCount := by decide
  obtain ⟨_, parents₂, parents₃, _⟩ := tangledMap.parents_eq
  refine ⟨first, third, fourth, ?_, ?_⟩
  · have reached : ¬ ((2 : VertexId) ≠ 0 ∧ tangledMap.parents 2 = []) := by simp [parents₂]
    rw [(pathsOf_backWalks loopNetlist tangledMap first third).2.2 reached,
      tangledMap.backWalks_eq]
  · have unreached : (3 : VertexId) ≠ 0 ∧ tangledMap.parents 3 = [] := ⟨by decide, parents₃⟩
    exact (pathsOf_backWalks loopNetlist tangledMap first fourth).2.1.mpr unreached

end Graph

end SignalPaths
