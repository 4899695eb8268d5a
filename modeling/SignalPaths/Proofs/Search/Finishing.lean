import SignalPaths.Proofs.Search.Tree

/-!
The order in which a search finishes vertices. The stack holds the ancestors of its top, so that
when a vertex is finished each of its edges leads to an ancestor of it or to a vertex that was
finished earlier. Where no edge leads to an ancestor, there is no cycle.
-/

namespace SignalPaths

theorem ParentMap.ancestor_iff_mem {m : ParentMap} {origin v w : VertexId} {path : Path}
    (orphan : m.parents origin = []) (simple : IsSimplePath m.OnlyParent origin v path) :
    m.Ancestor w v ↔ w ∈ path := by
  constructor
  · exact mem_of_ancestor orphan simple
  · intro member
    obtain ⟨before, after, rfl⟩ := List.append_of_mem member
    exact ancestor_of_simplePath simple.onward

namespace DepthFirst

variable {view : View} {root u v w : VertexId} {s : State} {pending : List VertexId}
  {stack below : List Frame} {frame : Frame} {m : ParentMap} {order : List VertexId}

namespace Tree

theorem ancestor_top_iff (tree : Tree view root s (frame :: below)) :
    s.map.Ancestor w frame.vertex ↔ w ∈ vertices (frame :: below) := by
  rw [ParentMap.ancestor_iff_mem tree.rootless tree.branches.1, branch, List.mem_reverse,
    vertices_cons]

theorem top_notMem (tree : Tree view root s (frame :: below)) : frame.vertex ∉ vertices below := by
  have distinct := tree.branches.1.distinct
  rw [branch, List.nodup_reverse, List.nodup_cons] at distinct
  exact distinct.1

/-- A vertex that is found keeps its ancestors. -/
theorem ancestor_enter (tree : Tree view root s (⟨u, v :: pending⟩ :: below))
    (new : s.isDiscovered v = false) {a b : VertexId} (found : s.Discovered b) :
    (s.enter u v).map.Ancestor a b ↔ s.map.Ancestor a b := by
  obtain ⟨path, treePath⟩ := tree.paths b found
  have kept := onlyParent_enter (u := u) new treePath.simple treePath.found
  rw [ParentMap.ancestor_iff_mem (tree.enter new).rootless kept,
    ParentMap.ancestor_iff_mem tree.rootless treePath.simple]

theorem parent_edge (tree : Tree view root s stack) (parent : s.map.Parent u v) :
    view.Edge u v := by
  rw [ParentMap.Parent] at parent
  have found : s.Discovered v := by
    by_contra absent
    rw [tree.fresh v absent] at parent
    cases parent
  obtain ⟨path, treePath⟩ := tree.paths v found
  rcases treePath.simple.eq_singleton_or_concat with ⟨same, _⟩ | ⟨other, _, _, _, only⟩
  · rw [same, tree.rootless] at parent
    cases parent
  · have listed := only
    rw [ParentMap.OnlyParent] at listed
    rw [listed, List.mem_singleton] at parent
    rw [parent]
    exact tree.edges other v only

/-- An edge back to an ancestor closes a cycle. -/
theorem cycle_of_ancestor (tree : Tree view root s stack) (edge : view.Edge u v)
    (ancestor : s.map.Ancestor v u) : Relation.TransGen view.Edge u u := by
  have down : Relation.ReflTransGen view.Edge v u :=
    Relation.ReflTransGen.mono (fun _ _ parent => tree.parent_edge parent) _ _ ancestor
  exact .head' edge down

end Tree

/-- Vertices that are finished, the latest first. -/
def Settled (view : View) (m : ParentMap) : List VertexId → Prop
  | [] => True
  | u :: earlier =>
    u ∉ earlier ∧ (∀ v, view.Edge u v → m.Ancestor v u ∨ v ∈ earlier) ∧ Settled view m earlier

namespace Settled

theorem imp {m' : ParentMap} (settled : Settled view m order)
    (keep : ∀ u ∈ order, ∀ v, m.Ancestor v u → m'.Ancestor v u) : Settled view m' order := by
  induction order with
  | nil => trivial
  | cons u earlier ih =>
    obtain ⟨once, edges, rest⟩ := settled
    refine ⟨once, ?_, ih rest fun w member => keep w (List.mem_cons_of_mem _ member)⟩
    intro v edge
    exact (edges v edge).imp_left (keep u List.mem_cons_self v)

theorem edge_mem (settled : Settled view m order)
    (onward : ∀ u ∈ order, ∀ v, view.Edge u v → ¬ m.Ancestor v u) (member : u ∈ order)
    (edge : view.Edge u v) : v ∈ order := by
  induction order with
  | nil => cases member
  | cons top earlier ih =>
    obtain ⟨_, edges, rest⟩ := settled
    apply List.mem_cons_of_mem
    rcases List.mem_cons.mp member with rfl | older
    · exact (edges v edge).resolve_left (onward u member v edge)
    · exact ih rest (fun w inside => onward w (List.mem_cons_of_mem _ inside)) older

theorem reaches_mem (settled : Settled view m order)
    (onward : ∀ u ∈ order, ∀ v, view.Edge u v → ¬ m.Ancestor v u) (member : u ∈ order)
    (reaches : Relation.ReflTransGen view.Edge u v) : v ∈ order := by
  induction reaches with
  | refl => exact member
  | tail _ edge before => exact settled.edge_mem onward before edge

/-- Edges that lead to earlier vertices only do not close a cycle. -/
theorem acyclic (settled : Settled view m order)
    (onward : ∀ u ∈ order, ∀ v, view.Edge u v → ¬ m.Ancestor v u) (member : v ∈ order) :
    ¬ Relation.TransGen view.Edge v v := by
  induction order with
  | nil => cases member
  | cons top earlier ih =>
    obtain ⟨once, edges, rest⟩ := settled
    have older : ∀ u ∈ earlier, ∀ v, view.Edge u v → ¬ m.Ancestor v u :=
      fun u inside => onward u (List.mem_cons_of_mem _ inside)
    rcases List.mem_cons.mp member with rfl | inside
    · intro cycle
      obtain ⟨next, edge, back⟩ := Relation.TransGen.head'_iff.mp cycle
      have before := (edges next edge).resolve_left (onward v member next edge)
      exact once (rest.reaches_mem older before back)
    · exact ih rest older inside

end Settled

/-- The vertices that are found and no longer on the stack, in the order in which they left it. -/
structure Finishing (view : View) (root : VertexId) (s : State) (stack : List Frame)
    (order : List VertexId) : Prop where
  tree : Tree view root s stack
  members : ∀ v, v ∈ order ↔ s.Discovered v ∧ v ∉ vertices stack
  settled : Settled view s.map order

namespace Finishing

theorem start (inside : root < view.vertexCount) :
    Finishing view root (start view root .single) [⟨root, view.neighbours root⟩] [] where
  tree := Tree.start inside
  members v := by
    rw [State.discovered_start inside]
    simp [vertices]
  settled := trivial

theorem finish (finishing : Finishing view root s (⟨u, []⟩ :: below) order) :
    Finishing view root (s.finish u) below (u :: order) := by
  have tree := finishing.tree
  have found : s.Discovered u := tree.explored.stacked u List.mem_cons_self
  have off : u ∉ vertices below := tree.top_notMem
  refine ⟨tree.finish, ?_, ?_, ?_, finishing.settled⟩
  · intro v
    rw [List.mem_cons, finishing.members, vertices_cons, List.mem_cons, not_or]
    constructor
    · rintro (rfl | ⟨seen, _, left⟩)
      · exact ⟨found, off⟩
      · exact ⟨seen, left⟩
    · rintro ⟨seen, left⟩
      by_cases same : v = u
      · exact .inl same
      · exact .inr ⟨seen, same, left⟩
  · intro member
    exact ((finishing.members u).mp member).2 List.mem_cons_self
  · intro v edge
    have seen : s.Discovered v := tree.finish.explored.finished u found off v edge
    by_cases stacked : v ∈ vertices (⟨u, []⟩ :: below)
    · exact .inl (tree.ancestor_top_iff.mpr stacked)
    · exact .inr ((finishing.members v).mpr ⟨seen, stacked⟩)

theorem enter (finishing : Finishing view root s (⟨u, v :: pending⟩ :: below) order)
    (new : s.isDiscovered v = false) :
    Finishing view root (s.enter u v) (⟨v, view.neighbours v⟩ :: ⟨u, pending⟩ :: below) order where
  tree := finishing.tree.enter new
  members w := by
    rw [finishing.members, State.discovered_enter new]
    simp only [vertices_cons, List.mem_cons, not_or]
    constructor
    · rintro ⟨seen, left⟩
      refine ⟨.inr seen, ?_, left⟩
      rintro rfl
      exact State.not_discovered new seen
    · rintro ⟨seen, aside, left⟩
      exact ⟨seen.resolve_left aside, left⟩
  settled := by
    apply finishing.settled.imp
    intro a member b ancestor
    exact (finishing.tree.ancestor_enter new ((finishing.members a).mp member).1).mpr ancestor

theorem pass (finishing : Finishing view root s (⟨u, v :: pending⟩ :: below) order)
    (closed : view.Closed) (known : s.isDiscovered v = true) :
    Finishing view root (s.pass u v) (⟨u, pending⟩ :: below) order where
  tree := finishing.tree.pass closed known
  members := finishing.members
  settled := by
    rw [State.map_pass_single finishing.tree.single]
    exact finishing.settled

theorem run (closed : view.Closed) (finishing : Finishing view root s stack order) :
    ∃ order, Finishing view root (run view s stack) [] order :=
  run_induction (motive := fun s stack => ∃ order, Finishing view root s stack order)
    (fun _ _ _ ⟨_, finishing⟩ => ⟨_, finishing.finish⟩)
    (fun _ _ _ _ _ new ⟨_, finishing⟩ => ⟨_, finishing.enter new⟩)
    (fun _ _ _ _ _ known ⟨_, finishing⟩ => ⟨_, finishing.pass closed known⟩)
    s stack ⟨order, finishing⟩

end Finishing

/-- A search meets a cycle just if some edge leads from a vertex that it finds to an ancestor. -/
theorem exists_cycle_iff (closed : view.Closed) (inside : root < view.vertexCount) :
    (∃ v, (final view root .single).Discovered v ∧ Relation.TransGen view.Edge v v) ↔
      ∃ u v, (final view root .single).Discovered u ∧ view.Edge u v ∧
        (final view root .single).map.Ancestor v u := by
  obtain ⟨order, finishing⟩ := (Finishing.start inside).run closed
  have members : ∀ v, v ∈ order ↔ (final view root .single).Discovered v := by
    intro v
    rw [finishing.members]
    simp [vertices, final]
  constructor
  · rintro ⟨v, found, cycle⟩
    by_contra none
    refine finishing.settled.acyclic ?_ ((members v).mpr found) cycle
    intro a member b edge ancestor
    exact none ⟨a, b, (members a).mp member, edge, ancestor⟩
  · rintro ⟨u, v, found, edge, ancestor⟩
    exact ⟨u, found, finishing.tree.cycle_of_ancestor edge ancestor⟩

end DepthFirst

end SignalPaths
