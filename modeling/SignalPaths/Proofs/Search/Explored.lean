import Mathlib.Logic.Relation
import Mathlib.Tactic.ByContra
import SignalPaths.Search.DepthFirst

/-!
What a depth-first search has found out, whichever edges it records. Vertices that it has found are
reachable from the root, and what is left to look at is on the stack, so that in the end it has
found every reachable vertex.
-/

namespace SignalPaths

def View.Edge (view : View) (u v : VertexId) : Prop := v ∈ view.neighbours u

def View.Closed (view : View) : Prop := ∀ u v, view.Edge u v → v < view.vertexCount

namespace DepthFirst

variable {view : View} {root u v w : VertexId} {s : State} {pending : List VertexId}
  {stack below : List Frame}

/-- What holds at first and is kept by each of the three steps holds when the stack is empty. -/
theorem run_induction {motive : State → List Frame → Prop}
    (finish : ∀ s u below, motive s (⟨u, []⟩ :: below) → motive (s.finish u) below)
    (enter : ∀ s u v pending below, s.isDiscovered v = false →
      motive s (⟨u, v :: pending⟩ :: below) →
        motive (s.enter u v) (⟨v, view.neighbours v⟩ :: ⟨u, pending⟩ :: below))
    (pass : ∀ s u v pending below, s.isDiscovered v = true →
      motive s (⟨u, v :: pending⟩ :: below) → motive (s.pass u v) (⟨u, pending⟩ :: below))
    (s : State) (stack : List Frame) (holds : motive s stack) : motive (run view s stack) [] := by
  fun_induction run view s stack with
  | case1 s => exact holds
  | case2 s u below ih => exact ih (finish s u below holds)
  | case3 s u v pending below new ih => exact ih (enter s u v pending below new holds)
  | case4 s u v pending below known ih =>
    exact ih (pass s u v pending below (by simpa using known) holds)

def final (view : View) (root : VertexId) (mode : SearchMode) : State :=
  run view (start view root mode) [⟨root, view.neighbours root⟩]

theorem depthFirst_map (view : View) (root : VertexId) (mode : SearchMode) :
    (depthFirst view root mode).map = (final view root mode).map := rfl

namespace State

def Discovered (s : State) (v : VertexId) : Prop :=
  v < s.discovered.size ∧ s.isDiscovered v = true

theorem discovered_start (inside : root < view.vertexCount) (mode : SearchMode) :
    (start view root mode).Discovered v ↔ v = root := by
  constructor
  · rintro ⟨bound, found⟩
    by_contra other
    have bound : v < view.vertexCount := by simpa [start] using bound
    simp [start, isDiscovered, Ne.symm other, bound] at found
  · rintro rfl
    refine ⟨by simpa [start] using inside, ?_⟩
    simp [start, isDiscovered, inside]

theorem not_discovered (new : s.isDiscovered v = false) : ¬ s.Discovered v := by
  rintro ⟨_, found⟩
  simp [new] at found

theorem discovered_enter (new : s.isDiscovered v = false) :
    (s.enter u v).Discovered w ↔ w = v ∨ s.Discovered w := by
  have inside : v < s.discovered.size := by
    by_contra outside
    simp [isDiscovered, outside] at new
  by_cases same : v = w
  · subst same
    simp [Discovered, enter, isDiscovered, inside]
  · simp [Discovered, enter, isDiscovered, same, Ne.symm same]

theorem Discovered.enter (found : s.Discovered w) (new : s.isDiscovered v = false) :
    (s.enter u v).Discovered w :=
  (discovered_enter new).mpr (.inr found)

theorem isFinished_finish (s : State) (u v : VertexId) :
    (s.finish u).isFinished v = if v = u then true else s.isFinished v := by
  rw [isFinished, State.finish, Array.getD_eq_getD_getElem?, Array.getElem?_setIfInBounds]
  by_cases same : v = u
  · subst same
    by_cases inside : v < s.finished.size <;> simp [inside]
  · rw [if_neg (Ne.symm same), if_neg same, isFinished, Array.getD_eq_getD_getElem?]

@[simp] theorem discovered_pass : (s.pass u v).Discovered w ↔ s.Discovered w := Iff.rfl

theorem parents_start (view : View) (root : VertexId) (mode : SearchMode) (v : VertexId) :
    (start view root mode).map.parents v = [] := by
  simp [start, ParentMap.parents]

theorem map_enter (s : State) (u v : VertexId) : (s.enter u v).map = s.map.record v u := rfl

theorem parents_enter (s : State) (u v w : VertexId) :
    (s.enter u v).map.parents w =
      if w = v then s.map.parents w ++ [u] else s.map.parents w :=
  s.map.parents_record v u w

theorem map_pass_single (single : s.map.mode = .single) (u v : VertexId) :
    (s.pass u v).map = s.map := if_neg (by simp [single])

theorem map_pass_all (all : s.map.mode = .all) (u v : VertexId) :
    (s.pass u v).map = s.map.record v u := if_pos all

end State

def vertices (stack : List Frame) : List VertexId := stack.map Frame.vertex

@[simp] theorem vertices_cons (frame : Frame) (below : List Frame) :
    vertices (frame :: below) = frame.vertex :: vertices below := rfl

/-- The edges that do not lead to a blocked vertex. -/
def Around (edge : VertexId → VertexId → Prop) (blocked : List VertexId) (u v : VertexId) : Prop :=
  edge u v ∧ v ∉ blocked

/-- The neighbours that a frame has looked at are found. -/
def Frame.Examined (view : View) (s : State) (frame : Frame) : Prop :=
  ∃ examined, view.neighbours frame.vertex = examined ++ frame.pending ∧
    ∀ w ∈ examined, s.Discovered w

namespace Frame.Examined

variable {s' : State}

theorem mono {frame : Frame} (examined : frame.Examined view s)
    (more : ∀ w, s.Discovered w → s'.Discovered w) : frame.Examined view s' := by
  obtain ⟨before, all, known⟩ := examined
  exact ⟨before, all, fun w member => more w (known w member)⟩

theorem next (examined : Frame.Examined view s ⟨u, v :: pending⟩) (found : s.Discovered v) :
    Frame.Examined view s ⟨u, pending⟩ := by
  obtain ⟨before, all, known⟩ := examined
  refine ⟨before ++ [v], by simpa using all, ?_⟩
  intro w member
  rcases List.mem_append.mp member with old | last
  · exact known w old
  · rw [List.mem_singleton.mp last]
    exact found

end Frame.Examined

/-- How far a search has come. A vertex that is found and has left the stack has no neighbour that
is not found. -/
structure Explored (view : View) (root : VertexId) (s : State) (stack : List Frame) : Prop where
  size : s.discovered.size = view.vertexCount
  rooted : s.Discovered root
  reachable : ∀ v, s.Discovered v → Relation.ReflTransGen view.Edge root v
  stacked : ∀ v ∈ vertices stack, s.Discovered v
  frames : ∀ frame ∈ stack, frame.Examined view s
  finished : ∀ u, s.Discovered u → u ∉ vertices stack → ∀ v, view.Edge u v → s.Discovered v

namespace Explored

theorem start (inside : root < view.vertexCount) (mode : SearchMode) :
    Explored view root (start view root mode) [⟨root, view.neighbours root⟩] where
  size := by simp [DepthFirst.start]
  rooted := (State.discovered_start inside mode).mpr rfl
  reachable v found := by
    rw [(State.discovered_start inside mode).mp found]
  stacked v member := by
    rw [State.discovered_start inside mode]
    simpa [vertices] using member
  frames frame member := by
    rw [List.mem_singleton.mp member]
    exact ⟨[], rfl, by simp⟩
  finished u found off := by
    rw [(State.discovered_start inside mode).mp found] at off
    simp at off

theorem finish (explored : Explored view root s (⟨u, []⟩ :: below)) :
    Explored view root (s.finish u) below where
  size := explored.size
  rooted := explored.rooted
  reachable := explored.reachable
  stacked v member := explored.stacked v (List.mem_cons_of_mem _ member)
  frames frame member := explored.frames frame (List.mem_cons_of_mem _ member)
  finished w found off v edge := by
    by_cases same : w = u
    · subst same
      obtain ⟨examined, all, known⟩ := explored.frames ⟨w, []⟩ List.mem_cons_self
      rw [List.append_nil] at all
      exact known v (all ▸ edge)
    · exact explored.finished w found (by simp [same, off]) v edge

theorem top_edge (explored : Explored view root s (⟨u, v :: pending⟩ :: below)) :
    view.Edge u v := by
  obtain ⟨examined, all, _⟩ := explored.frames ⟨u, v :: pending⟩ List.mem_cons_self
  rw [View.Edge, all]
  simp

theorem top_reaches (explored : Explored view root s (⟨u, v :: pending⟩ :: below)) :
    Relation.ReflTransGen view.Edge root v :=
  (explored.reachable u (explored.stacked u (by simp))).tail explored.top_edge

theorem top_discovered (explored : Explored view root s (⟨u, v :: pending⟩ :: below))
    (closed : view.Closed) (known : s.isDiscovered v = true) : s.Discovered v := by
  refine ⟨?_, known⟩
  rw [explored.size]
  exact closed u v explored.top_edge

theorem root_ne (explored : Explored view root s stack) (new : s.isDiscovered v = false) :
    root ≠ v := by
  rintro rfl
  exact State.not_discovered new explored.rooted

theorem enter (explored : Explored view root s (⟨u, v :: pending⟩ :: below))
    (new : s.isDiscovered v = false) :
    Explored view root (s.enter u v) (⟨v, view.neighbours v⟩ :: ⟨u, pending⟩ :: below) where
  size := by simpa [State.enter] using explored.size
  rooted := explored.rooted.enter new
  reachable w found := by
    rcases (State.discovered_enter new).mp found with rfl | old
    · exact explored.top_reaches
    · exact explored.reachable w old
  stacked w member := by
    rw [State.discovered_enter new]
    rcases List.mem_cons.mp member with rfl | old
    · exact .inl rfl
    · exact .inr (explored.stacked w old)
  frames frame member := by
    -- Only the frame of `u` has moved on, over the vertex that is found now.
    have more : ∀ w, s.Discovered w → (s.enter u v).Discovered w := fun w found => found.enter new
    rcases List.mem_cons.mp member with rfl | member
    · exact ⟨[], rfl, by simp⟩
    · rcases List.mem_cons.mp member with rfl | member
      · have examined := explored.frames ⟨u, v :: pending⟩ List.mem_cons_self
        have found : (s.enter u v).Discovered v := (State.discovered_enter new).mpr (.inl rfl)
        exact (examined.mono more).next found
      · exact (explored.frames frame (List.mem_cons_of_mem _ member)).mono more
  finished w found off x edge := by
    rcases (State.discovered_enter new).mp found with rfl | old
    · simp at off
    · have off : w ∉ vertices (⟨u, v :: pending⟩ :: below) := by
        intro member
        exact off (List.mem_cons_of_mem _ member)
      exact (explored.finished w old off x edge).enter new

theorem pass (explored : Explored view root s (⟨u, v :: pending⟩ :: below)) (closed : view.Closed)
    (known : s.isDiscovered v = true) :
    Explored view root (s.pass u v) (⟨u, pending⟩ :: below) where
  size := explored.size
  rooted := explored.rooted
  reachable := explored.reachable
  stacked := explored.stacked
  frames frame member := by
    rcases List.mem_cons.mp member with rfl | member
    · have examined := explored.frames ⟨u, v :: pending⟩ List.mem_cons_self
      exact examined.next (explored.top_discovered closed known)
    · exact explored.frames frame (List.mem_cons_of_mem _ member)
  finished := explored.finished

theorem run (closed : view.Closed) (explored : Explored view root s stack) :
    Explored view root (run view s stack) [] :=
  run_induction (fun _ _ _ explored => explored.finish)
    (fun _ _ _ _ _ new explored => explored.enter new)
    (fun _ _ _ _ _ known explored => explored.pass closed known) s stack explored

/-- Ways that avoid the stack lead from a found vertex to found vertices only. -/
theorem discovered_around (explored : Explored view root s stack) (found : s.Discovered u)
    (off : u ∉ vertices stack)
    (reaches : Relation.ReflTransGen (Around view.Edge (vertices stack)) u w) :
    s.Discovered w := by
  have both : s.Discovered w ∧ w ∉ vertices stack := by
    induction reaches with
    | refl => exact ⟨found, off⟩
    | tail _ step before => exact ⟨explored.finished _ before.1 before.2 _ step.1, step.2⟩
  exact both.1

end Explored

/-- A search finds exactly what can be reached from its root. -/
theorem discovered_iff_reaches (closed : view.Closed) (inside : root < view.vertexCount)
    (mode : SearchMode) :
    (final view root mode).Discovered v ↔ Relation.ReflTransGen view.Edge root v := by
  have explored : Explored view root (final view root mode) [] :=
    (Explored.start inside mode).run closed
  constructor
  · exact explored.reachable v
  · intro reaches
    induction reaches with
    | refl => exact explored.rooted
    | tail _ edge found => exact explored.finished _ found (by simp [vertices]) _ edge

end DepthFirst

end SignalPaths
