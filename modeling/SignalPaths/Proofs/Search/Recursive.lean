import Mathlib.Data.Finset.Card
import Mathlib.Data.Finset.Range
import SignalPaths.Proofs.Path.Direct
import SignalPaths.Proofs.Search.Modes

/-!
Depth-first search as a recursion: the neighbours of a vertex are taken in the order in which they
are listed, each one that is not discovered is searched before the next, and a vertex is finished
after its last neighbour. The search with a stack of frames comes to the same map and the same
number of back edges.
-/

namespace SignalPaths

namespace Recursive

/-- What a recursive search knows, with the latest vertices first. -/
structure Progress where
  discovered : List VertexId
  finished : List VertexId
  map : ParentMap
  backEdges : Nat

namespace Progress

def start (root : VertexId) (mode : SearchMode) : Progress where
  discovered := [root]
  finished := []
  map := { mode, root }
  backEdges := 0

/-- Discovers `v` along the tree edge from `u`. -/
def discover (p : Progress) (u v : VertexId) : Progress :=
  { p with discovered := v :: p.discovered, map := p.map.record v u }

/-- Takes note of an edge that is not in the tree. It leads back if its target is not finished. -/
def note (p : Progress) (u v : VertexId) : Progress :=
  { p with
    backEdges := p.backEdges + if v ∈ p.finished then 0 else 1
    map := if p.map.mode = .all then p.map.record v u else p.map }

def finish (p : Progress) (v : VertexId) : Progress := { p with finished := v :: p.finished }

/-- The number of vertices that are still to be discovered. -/
def remaining (view : View) (p : Progress) : Nat :=
  (Finset.range view.vertexCount \ p.discovered.toFinset).card

theorem remaining_le {view : View} {p q : Progress} (more : p.discovered ⊆ q.discovered) :
    q.remaining view ≤ p.remaining view := by
  apply Finset.card_le_card
  apply Finset.sdiff_subset_sdiff (Finset.Subset.refl _)
  intro v known
  exact List.mem_toFinset.mpr (more (List.mem_toFinset.mp known))

theorem remaining_discover_lt {view : View} {p : Progress} {u v : VertexId}
    (new : v < view.vertexCount ∧ v ∉ p.discovered) :
    (p.discover u v).remaining view < p.remaining view := by
  have fewer : Finset.range view.vertexCount \ (p.discover u v).discovered.toFinset ⊆
      Finset.range view.vertexCount \ p.discovered.toFinset := by
    apply Finset.sdiff_subset_sdiff (Finset.Subset.refl _)
    intro w known
    simp [discover, List.mem_toFinset.mp known]
  apply Finset.card_lt_card
  rw [Finset.ssubset_iff_of_subset fewer]
  exact ⟨v, by simp [new], by simp [discover]⟩

end Progress

/-- Searches from the neighbours of `u` that are left. -/
def follow (view : View) (u : VertexId) :
    (pending : List VertexId) → (p : Progress) → { q : Progress // p.discovered ⊆ q.discovered }
  | [], p => ⟨p, List.Subset.refl _⟩
  | v :: pending, p =>
    if _ : v < view.vertexCount ∧ v ∉ p.discovered then
      let inner := follow view v (view.neighbours v) (p.discover u v)
      let rest := follow view u pending (inner.1.finish v)
      ⟨rest.1, fun _ known => rest.2 (inner.2 (List.mem_cons_of_mem v known))⟩
    else
      let rest := follow view u pending (p.note u v)
      ⟨rest.1, rest.2⟩
termination_by pending p => (p.remaining view, pending.length)
decreasing_by
  · exact Prod.Lex.left _ _ (Progress.remaining_discover_lt ‹_›)
  · refine Prod.Lex.left _ _ (Nat.lt_of_le_of_lt ?_ (Progress.remaining_discover_lt (u := u) ‹_›))
    exact Progress.remaining_le inner.2
  · exact Prod.Lex.right _ (by simp)

def search (view : View) (root : VertexId) (mode : SearchMode) : Found :=
  let last := (follow view root (view.neighbours root) (Progress.start root mode)).1
  ⟨last.map, last.backEdges⟩

variable {view : View} {root u v : VertexId} {pending : List VertexId} {p : Progress}

theorem follow_nil (view : View) (u : VertexId) (p : Progress) : (follow view u [] p).1 = p := by
  rw [follow]

theorem follow_new (new : v < view.vertexCount ∧ v ∉ p.discovered) :
    (follow view u (v :: pending) p).1 =
      (follow view u pending
        ((follow view v (view.neighbours v) (p.discover u v)).1.finish v)).1 := by
  rw [follow, dif_pos new]

theorem follow_known (known : ¬ (v < view.vertexCount ∧ v ∉ p.discovered)) :
    (follow view u (v :: pending) p).1 = (follow view u pending (p.note u v)).1 := by
  rw [follow, dif_neg known]

end Recursive

namespace DepthFirst

open Recursive

variable {view : View} {root u v : VertexId} {s : State} {p : Progress} {pending : List VertexId}

/-- A state of the search with a stack and the progress of the recursive search at the same point. -/
structure Matches (view : View) (s : State) (p : Progress) : Prop where
  size : s.discovered.size = view.vertexCount
  discovered : ∀ v < view.vertexCount, s.isDiscovered v = true ↔ v ∈ p.discovered
  finished : ∀ v < view.vertexCount, s.isFinished v = true ↔ v ∈ p.finished
  map : s.map = p.map
  backEdges : s.backEdges = p.backEdges

namespace Matches

theorem start (inside : root < view.vertexCount) (mode : SearchMode) :
    Matches view (start view root mode) (Progress.start root mode) where
  size := by simp [DepthFirst.start]
  discovered v bound := by
    have size : v < (DepthFirst.start view root mode).discovered.size := by
      simpa [DepthFirst.start] using bound
    have found := State.discovered_start (v := v) inside mode
    rw [State.Discovered, and_iff_right size] at found
    rw [found]
    exact List.mem_singleton.symm
  finished v bound := by simp [DepthFirst.start, State.isFinished, Progress.start, bound]
  map := rfl
  backEdges := rfl

theorem new_iff (alike : Matches view s p) (bound : v < view.vertexCount) :
    s.isDiscovered v = false ↔ v < view.vertexCount ∧ v ∉ p.discovered := by
  rw [← alike.discovered v bound, Bool.not_eq_true]
  exact (and_iff_right bound).symm

theorem enter (alike : Matches view s p) (u : VertexId) (bound : v < view.vertexCount) :
    Matches view (s.enter u v) (p.discover u v) where
  size := by simp [State.enter, alike.size]
  discovered w inside := by
    have before := alike.discovered w inside
    by_cases same : v = w
    · subst same
      simp [State.enter, State.isDiscovered, Progress.discover, alike.size, bound]
    · simpa [State.enter, State.isDiscovered, Progress.discover, same, Ne.symm same] using before
  finished := alike.finished
  map := by rw [State.map_enter, alike.map]; rfl
  backEdges := alike.backEdges

theorem pass (alike : Matches view s p) (u : VertexId) (bound : v < view.vertexCount) :
    Matches view (s.pass u v) (p.note u v) where
  size := alike.size
  discovered := alike.discovered
  finished := alike.finished
  map := by simp only [State.pass, Progress.note, alike.map]
  backEdges := by
    simp only [State.pass, Progress.note, alike.backEdges, alike.finished v bound]
    split <;> rfl

theorem finish (alike : Matches view s p) (u : VertexId) :
    Matches view (s.finish u) (p.finish u) where
  size := alike.size
  discovered := alike.discovered
  finished w inside := by
    rw [State.isFinished_finish, Progress.finish, List.mem_cons]
    by_cases same : w = u
    · simp [same]
    · rw [if_neg same, alike.finished w inside, or_iff_right same]
  map := alike.map
  backEdges := alike.backEdges

/-- What the top frame does until it is taken off the stack is what the recursion does. -/
theorem run_follow (closed : view.Closed) (alike : Matches view s p)
    (inside : ∀ v ∈ pending, v < view.vertexCount) :
    ∃ t, Matches view t (follow view u pending p).1 ∧
      ∀ below, run view s (⟨u, pending⟩ :: below) = run view (t.finish u) below := by
  fun_induction follow view u pending p generalizing s with
  | case1 u p =>
    exact ⟨s, alike, fun below => run_finish view s u below⟩
  | case2 u v pending p new inner rest first next =>
    have bound := inside v List.mem_cons_self
    have fresh := (alike.new_iff bound).mpr new
    obtain ⟨t, below, steps⟩ := first (alike.enter u bound) fun w member => closed v w member
    obtain ⟨t', done, further⟩ := next (below.finish v) fun w member =>
      inside w (List.mem_cons_of_mem _ member)
    refine ⟨t', done, ?_⟩
    intro others
    rw [run_enter fresh, steps, further]
  | case3 u v pending p known =>
    rename_i next
    have bound := inside v List.mem_cons_self
    have found : s.isDiscovered v = true := by
      rw [← alike.new_iff bound, Bool.not_eq_false] at known
      exact known
    obtain ⟨t, done, steps⟩ := next (alike.pass u bound) fun w member =>
      inside w (List.mem_cons_of_mem _ member)
    refine ⟨t, done, ?_⟩
    intro others
    rw [run_pass found, steps]

end Matches

end DepthFirst

/-- The search with a stack gives the same map and the same number of back edges as the recursion,
in both modes. -/
theorem depthFirst_eq_recursive {view : View} {root : VertexId} (closed : view.Closed)
    (inside : root < view.vertexCount) (mode : SearchMode) :
    depthFirst view root mode = Recursive.search view root mode := by
  obtain ⟨last, done, steps⟩ :=
    (DepthFirst.Matches.start inside mode).run_follow (u := root) closed (closed root)
  have ended : DepthFirst.run view (DepthFirst.start view root mode) [⟨root, view.neighbours root⟩] =
      last.finish root := by
    rw [steps, DepthFirst.run_nil]
  rw [depthFirst, ended, Recursive.search, ← done.map, ← done.backEdges]
  rfl

theorem Graph.loopNetlist.forward_lists :
    loopNetlist.forward.vertexCount = 5 ∧ loopNetlist.forward.neighbours 0 = [2, 1] ∧
      loopNetlist.forward.neighbours 1 = [2, 1] ∧ loopNetlist.forward.neighbours 2 = [3, 0] ∧
      loopNetlist.forward.neighbours 3 = [] := by
  decide

/-- The second wire drives itself, and the third one leads back to the first. -/
theorem depthFirst_eq_recursive_loop :
    Graph.loopNetlist.forward.Closed ∧ 0 < Graph.loopNetlist.forward.vertexCount ∧
      (depthFirst Graph.loopNetlist.forward 0 .all).backEdges = 2 ∧
      (depthFirst Graph.loopNetlist.forward 0 .all).map.parents 2 = [0, 1] := by
  have closed := Graph.loopNetlist.isNetlist.coherent.forward_closed
  have inside : 0 < Graph.loopNetlist.forward.vertexCount := by decide
  have bare : ({ mode := .all, root := 0 } : ParentMap).parents 2 = [] :=
    DepthFirst.State.parents_start Graph.loopNetlist.forward 0 .all 2
  rw [depthFirst_eq_recursive closed inside .all]
  refine ⟨closed, inside, ?_⟩
  simp [Recursive.search, Graph.loopNetlist.forward_lists, Recursive.follow_nil,
    Recursive.follow_new, Recursive.follow_known, Recursive.Progress.start,
    Recursive.Progress.discover, Recursive.Progress.note, Recursive.Progress.finish,
    ParentMap.parents_record, bare]

end SignalPaths
