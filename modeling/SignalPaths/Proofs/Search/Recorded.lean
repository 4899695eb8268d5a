import Mathlib.Data.List.Nodup
import SignalPaths.Proofs.Search.Explored

/-!
The edges that an all-paths search records: every edge out of every vertex that it finds, as often
as the vertex lists it. Each edge of a found vertex is either recorded or still waits in a frame.
-/

namespace SignalPaths.DepthFirst

variable {view : View} {root u v a b : VertexId} {s : State} {pending : List VertexId}
  {stack below : List Frame}

instance (s : State) (v : VertexId) : Decidable (s.Discovered v) :=
  inferInstanceAs (Decidable (_ ∧ _))

/-- How often the edge from `u` to `v` is still to be looked at. -/
def waiting (u v : VertexId) : List Frame → Nat
  | [] => 0
  | frame :: below => (if frame.vertex = u then frame.pending.count v else 0) + waiting u v below

theorem waiting_next (a b u v : VertexId) (pending : List VertexId) (below : List Frame) :
    waiting a b (⟨u, v :: pending⟩ :: below) =
      waiting a b (⟨u, pending⟩ :: below) + if b = v ∧ a = u then 1 else 0 := by
  by_cases left : u = a
  · by_cases right : v = b
    · subst left right
      simp [waiting]
      omega
    · simp [waiting, left, right, Ne.symm right]
  · simp [waiting, left, Ne.symm left]

theorem count_parents_record (m : ParentMap) (u v a b : VertexId) :
    ((m.record v u).parents b).count a =
      (m.parents b).count a + if b = v ∧ a = u then 1 else 0 := by
  rw [ParentMap.parents_record]
  by_cases left : b = v
  · by_cases right : a = u
    · simp [left, right]
    · simp [left, right, Ne.symm right]
  · simp [left]

/-- Every edge of a found vertex is recorded or waits, and no other edge is. -/
structure Recorded (view : View) (s : State) (stack : List Frame) : Prop where
  all : s.map.mode = .all
  counted : ∀ u v, (s.map.parents v).count u + waiting u v stack =
    if s.Discovered u then (view.neighbours u).count v else 0

namespace Recorded

theorem start (inside : root < view.vertexCount) :
    Recorded view (start view root .all) [⟨root, view.neighbours root⟩] where
  all := rfl
  counted u v := by
    rw [State.parents_start, List.count_nil, Nat.zero_add, waiting, waiting, Nat.add_zero]
    simp only [State.discovered_start inside, eq_comm (a := u)]
    split
    · rename_i same
      rw [same]
    · rfl

theorem finish (recorded : Recorded view s (⟨u, []⟩ :: below)) :
    Recorded view (s.finish u) below where
  all := recorded.all
  counted a b := by
    have counted := recorded.counted a b
    rw [waiting, List.count_nil, ite_self, Nat.zero_add] at counted
    exact counted

theorem pass (recorded : Recorded view s (⟨u, v :: pending⟩ :: below)) :
    Recorded view (s.pass u v) (⟨u, pending⟩ :: below) := by
  have noted := State.map_pass_all recorded.all u v
  refine ⟨by rw [noted]; exact recorded.all, ?_⟩
  intro a b
  have counted := recorded.counted a b
  rw [waiting_next] at counted
  rw [noted, count_parents_record]
  simp only [State.discovered_pass]
  omega

theorem enter (recorded : Recorded view s (⟨u, v :: pending⟩ :: below))
    (new : s.isDiscovered v = false) :
    Recorded view (s.enter u v) (⟨v, view.neighbours v⟩ :: ⟨u, pending⟩ :: below) where
  all := recorded.all
  counted a b := by
    have counted := recorded.counted a b
    rw [waiting_next] at counted
    rw [State.map_enter, count_parents_record, waiting]
    simp only [State.discovered_enter new]
    by_cases same : v = a
    · subst same
      rw [if_neg (State.not_discovered new)] at counted
      simp only [if_true, true_or]
      omega
    · simp only [same, Ne.symm same, if_false, false_or]
      omega

theorem run (recorded : Recorded view s stack) : Recorded view (run view s stack) [] :=
  run_induction (fun _ _ _ recorded => recorded.finish)
    (fun _ _ _ _ _ new recorded => recorded.enter new)
    (fun _ _ _ _ _ _ recorded => recorded.pass) s stack recorded

end Recorded

/-- An all-paths search records an edge as often as its source lists it, if it finds the source. -/
theorem count_parents_final (inside : root < view.vertexCount) (u v : VertexId) :
    ((final view root .all).map.parents v).count u =
      if (final view root .all).Discovered u then (view.neighbours u).count v else 0 :=
  ((Recorded.start inside).run).counted u v

theorem mem_parents_final (closed : view.Closed) (inside : root < view.vertexCount) :
    u ∈ (final view root .all).map.parents v ↔
      Relation.ReflTransGen view.Edge root u ∧ view.Edge u v := by
  rw [← List.count_pos_iff, count_parents_final inside, ← discovered_iff_reaches closed inside .all]
  split
  · rename_i found
    rw [List.count_pos_iff]
    exact ⟨fun edge => ⟨found, edge⟩, fun both => both.2⟩
  · rename_i absent
    simp [absent]

theorem nodup_parents_final (inside : root < view.vertexCount)
    (distinct : ∀ u, (view.neighbours u).Nodup) (v : VertexId) :
    ((final view root .all).map.parents v).Nodup := by
  rw [List.nodup_iff_count_le_one]
  intro u
  rw [count_parents_final inside]
  split
  · exact List.nodup_iff_count_le_one.mp (distinct u) v
  · exact Nat.zero_le 1

end SignalPaths.DepthFirst
