import SignalPaths.Proofs.Path.Retrace
import SignalPaths.Proofs.Search.Order

/-!
The tree of a single-path search. Each vertex that is found has one parent, but for the root, which
has none, and is led back to the root by them. The path that this gives is the first one in the
order of the neighbours.
-/

namespace SignalPaths.DepthFirst

variable {view : View} {root u v w : VertexId} {s : State} {pending : List VertexId}
  {stack below : List Frame}

def branch (v : VertexId) (below : List Frame) : Path := (v :: vertices below).reverse

/-- The path to a vertex in the tree, which precedes all others in the graph. -/
structure TreePath (view : View) (root : VertexId) (s : State) (v : VertexId) (path : Path) :
    Prop where
  simple : IsSimplePath s.map.OnlyParent root v path
  found : ∀ w ∈ path, s.Discovered w
  first : ∀ other, IsSimplePath view.Edge root v other → path ≠ other →
    Precedes view.neighbours path other

structure Tree (view : View) (root : VertexId) (s : State) (stack : List Frame) : Prop where
  explored : Explored view root s stack
  single : s.map.mode = .single
  fresh : ∀ v, ¬ s.Discovered v → s.map.parents v = []
  rootless : s.map.parents root = []
  edges : ∀ u v, s.map.OnlyParent u v → view.Edge u v
  branches : Levels (fun v below => IsSimplePath s.map.OnlyParent root v (branch v below)) stack
  guarded : Levels (Guarded view s.Discovered) stack
  paths : ∀ v, s.Discovered v → ∃ path, TreePath view root s v path

theorem onlyParent_enter (new : s.isDiscovered v = false) {path : Path}
    (simple : IsSimplePath s.map.OnlyParent root w path) (found : ∀ x ∈ path, s.Discovered x) :
    IsSimplePath (s.enter u v).map.OnlyParent root w path := by
  refine simple.imp_of_mem fun a _ b member step => ?_
  have other : b ≠ v := by
    rintro rfl
    exact State.not_discovered new (found b member)
  exact (ParentMap.onlyParent_record_of_ne other).mpr step

namespace Tree

theorem start (inside : root < view.vertexCount) :
    Tree view root (start view root .single) [⟨root, view.neighbours root⟩] where
  explored := Explored.start inside .single
  single := rfl
  fresh v _ := State.parents_start view root .single v
  rootless := State.parents_start view root .single root
  edges u v only := by simp [ParentMap.OnlyParent, State.parents_start] at only
  branches := ⟨IsSimplePath.singleton _ root, trivial⟩
  guarded := by
    refine ⟨?_, trivial⟩
    intro lower rest empty
    simp at empty
  paths v found := by
    rw [State.discovered_start inside] at found
    subst found
    refine ⟨[v], IsSimplePath.singleton _ v, ?_, ?_⟩
    · intro w member
      rw [State.discovered_start inside]
      exact List.mem_singleton.mp member
    · intro other simple differ
      exact absurd simple.eq_singleton.symm differ

theorem finish (tree : Tree view root s (⟨u, []⟩ :: below)) : Tree view root (s.finish u) below where
  explored := tree.explored.finish
  single := tree.single
  fresh := tree.fresh
  rootless := tree.rootless
  edges := tree.edges
  branches := tree.branches.2
  guarded := tree.guarded.2
  paths v found := by
    obtain ⟨path, simple, inside, first⟩ := tree.paths v found
    exact ⟨path, simple, inside, first⟩

theorem pass (tree : Tree view root s (⟨u, v :: pending⟩ :: below)) (closed : view.Closed)
    (known : s.isDiscovered v = true) : Tree view root (s.pass u v) (⟨u, pending⟩ :: below) := by
  have unchanged := State.map_pass_single tree.single u v
  exact {
    explored := tree.explored.pass closed known
    single := by rw [unchanged]; exact tree.single
    fresh := by rw [unchanged]; exact tree.fresh
    rootless := by rw [unchanged]; exact tree.rootless
    edges := by rw [unchanged]; exact tree.edges
    branches := by rw [unchanged]; exact tree.branches
    guarded := tree.guarded
    paths := by
      intro w found
      obtain ⟨path, simple, inside, first⟩ := tree.paths w found
      exact ⟨path, by rw [unchanged]; exact simple, inside, first⟩ }

theorem found_branch (tree : Tree view root s (⟨u, v :: pending⟩ :: below)) :
    ∀ w ∈ branch u below, s.Discovered w := by
  intro w member
  exact tree.explored.stacked w (List.mem_reverse.mp member)

theorem onlyParent_entered (tree : Tree view root s (⟨u, v :: pending⟩ :: below))
    (new : s.isDiscovered v = false) : (s.enter u v).map.OnlyParent u v := by
  rw [ParentMap.OnlyParent, State.parents_enter, if_pos rfl,
    tree.fresh v (State.not_discovered new), List.nil_append]

theorem edges_enter (tree : Tree view root s (⟨u, v :: pending⟩ :: below))
    (new : s.isDiscovered v = false) {a b : VertexId} (only : (s.enter u v).map.OnlyParent a b) :
    view.Edge a b := by
  by_cases same : b = v
  · subst same
    have entered := tree.onlyParent_entered new
    rw [ParentMap.OnlyParent] at only entered
    rw [entered, List.cons.injEq] at only
    exact only.1 ▸ tree.explored.top_edge
  · exact tree.edges a b ((ParentMap.onlyParent_record_of_ne same).mp only)

theorem branch_enter (tree : Tree view root s (⟨u, v :: pending⟩ :: below))
    (new : s.isDiscovered v = false) :
    IsSimplePath (s.enter u v).map.OnlyParent root v (branch v (⟨u, pending⟩ :: below)) := by
  have before := onlyParent_enter (u := u) new tree.branches.1 tree.found_branch
  have off : v ∉ branch u below := by
    intro member
    exact State.not_discovered new (tree.found_branch v member)
  have longer := before.concat (tree.onlyParent_entered new) off
  simpa [branch] using longer

theorem path_enter (tree : Tree view root s (⟨u, v :: pending⟩ :: below))
    (new : s.isDiscovered v = false) :
    TreePath view root (s.enter u v) v (branch v (⟨u, pending⟩ :: below)) where
  simple := tree.branch_enter new
  found w member := by
    rw [State.discovered_enter new]
    rcases List.mem_cons.mp (List.mem_reverse.mp member) with same | lower
    · exact .inl same
    · exact .inr (tree.explored.stacked w lower)
  first other simple differ := by
    have guarded : Levels (Guarded view s.Discovered)
        (⟨v, view.neighbours v⟩ :: ⟨u, pending⟩ :: below) :=
      ⟨tree.explored.guarded_next, tree.guarded⟩
    have along := (tree.branch_enter new).imp_of_mem fun a _ b _ only => tree.edges_enter new only
    exact precedes_of_guarded guarded (State.not_discovered new) along simple differ

theorem enter (tree : Tree view root s (⟨u, v :: pending⟩ :: below))
    (new : s.isDiscovered v = false) :
    Tree view root (s.enter u v) (⟨v, view.neighbours v⟩ :: ⟨u, pending⟩ :: below) where
  explored := tree.explored.enter new
  single := tree.single
  fresh w absent := by
    rw [State.discovered_enter new, not_or] at absent
    rw [State.parents_enter, if_neg absent.1]
    exact tree.fresh w absent.2
  rootless := by
    rw [State.parents_enter, if_neg (tree.explored.root_ne new)]
    exact tree.rootless
  edges a b only := tree.edges_enter new only
  branches := by
    refine ⟨tree.branch_enter new, ?_⟩
    have old : Levels (fun v below => IsSimplePath s.map.OnlyParent root v (branch v below))
        (⟨u, pending⟩ :: below) := tree.branches
    refine old.imp fun w lower inside simple => ?_
    exact onlyParent_enter new simple fun x member =>
      tree.explored.stacked x (inside x (List.mem_reverse.mp member))
  guarded := by
    have more : ∀ w, s.Discovered w → (s.enter u v).Discovered w := fun w found => found.enter new
    have old : Levels (Guarded view s.Discovered) (⟨u, pending⟩ :: below) := tree.guarded
    exact ⟨tree.explored.guarded_next.mono more, old.imp fun _ _ _ guarded => guarded.mono more⟩
  paths w found := by
    rcases (State.discovered_enter new).mp found with rfl | old
    · exact ⟨_, tree.path_enter new⟩
    · obtain ⟨path, simple, inside, first⟩ := tree.paths w old
      exact ⟨path, onlyParent_enter new simple inside,
        fun x member => (inside x member).enter new, first⟩

theorem run (closed : view.Closed) (tree : Tree view root s stack) :
    Tree view root (run view s stack) [] :=
  run_induction (fun _ _ _ tree => tree.finish) (fun _ _ _ _ _ new tree => tree.enter new)
    (fun _ _ _ _ _ known tree => tree.pass closed known) s stack tree

end Tree

theorem tree_final (closed : view.Closed) (inside : root < view.vertexCount) :
    Tree view root (final view root .single) [] :=
  (Tree.start inside).run closed

namespace Tree

theorem isForest (tree : Tree view root s stack) : s.map.IsForest := by
  intro v
  by_cases found : s.Discovered v
  · obtain ⟨path, treePath⟩ := tree.paths v found
    exact ⟨root, path, tree.rootless, treePath.simple⟩
  · exact ⟨v, [v], tree.fresh v found, IsSimplePath.singleton _ v⟩

theorem ancestor_root_iff (tree : Tree view root s stack) :
    s.map.Ancestor root v ↔ s.Discovered v := by
  constructor
  · intro ancestor
    by_contra absent
    have same := ParentMap.mem_of_ancestor (tree.fresh v absent) (IsSimplePath.singleton _ v) ancestor
    rw [List.mem_singleton] at same
    exact absent (same ▸ tree.explored.rooted)
  · intro found
    obtain ⟨path, treePath⟩ := tree.paths v found
    exact ParentMap.ancestor_of_simplePath treePath.simple

end Tree

end SignalPaths.DepthFirst
