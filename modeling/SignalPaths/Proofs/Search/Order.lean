import SignalPaths.Proofs.Search.Explored
import SignalPaths.Proofs.SimplePath

/-!
Why depth-first search takes the first way there is. A vertex on the stack was entered after all
that its lower neighbour lists before it had been looked at, so that whatever those neighbours lead
to around the stack was found earlier. A vertex that is new now cannot be among it.
-/

namespace SignalPaths.DepthFirst

variable {view : View} {root v w : VertexId} {found : VertexId → Prop} {stack : List Frame}

/-- Something holds of each vertex of a stack and the frames below it. -/
def Levels (holds : VertexId → List Frame → Prop) : List Frame → Prop
  | [] => True
  | frame :: below => holds frame.vertex below ∧ Levels holds below

theorem Levels.imp {holds holds' : VertexId → List Frame → Prop} (levels : Levels holds stack)
    (keep : ∀ v below, (∀ w ∈ v :: vertices below, w ∈ vertices stack) → holds v below →
      holds' v below) : Levels holds' stack := by
  induction stack with
  | nil => trivial
  | cons frame below ih =>
    refine ⟨keep _ _ (fun w member => member) levels.1, ih levels.2 ?_⟩
    intro v lower inside
    exact keep v lower fun w member => List.mem_cons_of_mem _ (inside w member)

theorem Levels.of_mem {holds : VertexId → List Frame → Prop} (levels : Levels holds stack)
    {upper lower : List VertexId} (split : vertices stack = upper ++ v :: lower) :
    ∃ below, vertices below = lower ∧ holds v below := by
  induction stack generalizing upper with
  | nil => simp [vertices] at split
  | cons frame below ih =>
    cases upper with
    | nil =>
      rw [vertices_cons, List.nil_append, List.cons.injEq] at split
      exact ⟨below, split.2, split.1 ▸ levels.1⟩
    | cons top upper =>
      rw [vertices_cons, List.cons_append, List.cons.injEq] at split
      exact ih levels.2 split.2

/-- The neighbours listed before `v` lead, around the stack below `v`, to found vertices only. -/
def Guarded (view : View) (found : VertexId → Prop) (v : VertexId) (below : List Frame) : Prop :=
  ∀ lower rest, below = lower :: rest →
    ∃ before, view.neighbours lower.vertex = before ++ v :: lower.pending ∧
      ∀ w ∈ before, w ∉ vertices below →
        ∀ x, Relation.ReflTransGen (Around view.Edge (vertices below)) w x → found x

theorem Guarded.mono {found' : VertexId → Prop} {below : List Frame}
    (guarded : Guarded view found v below) (more : ∀ w, found w → found' w) :
    Guarded view found' v below := by
  intro lower rest same
  obtain ⟨before, listed, closed⟩ := guarded lower rest same
  exact ⟨before, listed, fun w member off x reaches => more x (closed w member off x reaches)⟩

theorem Explored.guarded_next {s : State} {u : VertexId} {pending : List VertexId}
    {below : List Frame} (explored : Explored view root s (⟨u, v :: pending⟩ :: below)) :
    Guarded view s.Discovered v (⟨u, pending⟩ :: below) := by
  intro lower rest same
  rw [List.cons.injEq] at same
  obtain ⟨rfl, rfl⟩ := same
  obtain ⟨before, listed, known⟩ := explored.frames ⟨u, v :: pending⟩ List.mem_cons_self
  refine ⟨before, listed, ?_⟩
  intro w member off x reaches
  exact explored.discovered_around (known w member) off reaches

private theorem idxOf_lt_idxOf {a b : VertexId} {before after : List VertexId} (differ : a ≠ b)
    (later : b ∉ before) :
    (before ++ a :: after).idxOf a < (before ++ a :: after).idxOf b := by
  have left : (before ++ a :: after).idxOf a ≤ before.length := by
    rw [List.idxOf_append]
    split
    · exact Nat.le_of_lt (List.idxOf_lt_length_of_mem ‹_›)
    · simp
  have right : before.length < (before ++ a :: after).idxOf b := by
    rw [List.idxOf_append_of_notMem later, List.idxOf_cons_ne _ differ]
    exact Nat.lt_add_of_pos_right (Nat.succ_pos _)
  exact Nat.lt_of_le_of_lt left right

private theorem reaches_around {u b : VertexId} {common rest : Path}
    (simple : IsSimplePath view.Edge root v (common ++ u :: b :: rest)) :
    b ∉ u :: common.reverse ∧
      Relation.ReflTransGen (Around view.Edge (u :: common.reverse)) b v := by
  have off : ∀ x ∈ b :: rest, x ∉ u :: common.reverse := by
    have distinct := simple.distinct
    rw [List.nodup_append] at distinct
    intro x later member
    rcases List.mem_cons.mp member with rfl | inside
    · exact (List.nodup_cons.mp distinct.2.1).1 later
    · exact distinct.2.2 x (List.mem_reverse.mp inside) x (List.mem_cons_of_mem _ later) rfl
  refine ⟨off b List.mem_cons_self, ?_⟩
  have edges : (b :: rest).IsChain view.Edge := simple.edges.right_of_append.of_cons
  have around : (b :: rest).IsChain (Around view.Edge (u :: common.reverse)) :=
    edges.imp_of_mem_imp fun x y _ member step => ⟨step, off y member⟩
  have last : v ∈ b :: rest := by
    have last := simple.last
    rw [List.getLast?_append_of_ne_nil _ (by simp), List.getLast?_cons_cons] at last
    exact List.mem_of_getLast? last
  exact around.induction (Relation.ReflTransGen _ b) _
    (fun _ _ step before => before.tail step) (fun _ => .refl) v last

/-- The path along a guarded stack to a new vertex precedes every other simple path to it. -/
theorem precedes_of_guarded (guarded : Levels (Guarded view found) stack) (new : ¬ found v)
    (simple : IsSimplePath view.Edge root v (vertices stack).reverse) {other : Path}
    (simpleOther : IsSimplePath view.Edge root v other)
    (differ : (vertices stack).reverse ≠ other) :
    Precedes view.neighbours (vertices stack).reverse other := by
  obtain ⟨common, u, a, b, rest, restOther, left, right, apart⟩ := simple.diverge simpleOther differ
  refine ⟨common, u, a, b, rest, restOther, left, right, ?_⟩
  have split : vertices stack = rest.reverse ++ a :: u :: common.reverse := by
    have turned := congrArg List.reverse left
    simpa using turned
  obtain ⟨below, lower, guard⟩ := guarded.of_mem split
  cases below with
  | nil => simp [vertices] at lower
  | cons frame frames =>
    obtain ⟨before, listed, closed⟩ := guard frame frames rfl
    have same : frame.vertex = u := by
      rw [vertices_cons, List.cons.injEq] at lower
      exact lower.1
    rw [same] at listed
    rw [listed]
    refine idxOf_lt_idxOf apart ?_
    -- An earlier neighbour would lead to `v` along the rest of the other path.
    intro earlier
    rw [lower] at closed
    obtain ⟨off, reaches⟩ := reaches_around (right ▸ simpleOther)
    exact new (closed b earlier off v reaches)

end SignalPaths.DepthFirst
