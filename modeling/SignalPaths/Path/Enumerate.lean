import SignalPaths.Path.Retrace

/-!
All paths of a parent map. Walks are led back from the end, one vertex at a time, to every parent
that is not on the walk yet; those that come to the start are paths. The walks still to be led back
wait on a stack, with the one through the first recorded parent on top.
-/

namespace SignalPaths

/-- A walk that is led back: its first vertex so far, and the vertices after that one. -/
structure Walk where
  current : VertexId
  passed : Path
  deriving DecidableEq, Repr

namespace Walk

def path (w : Walk) : Path := w.current :: w.passed

def extend (w : Walk) (parent : VertexId) : Walk := ⟨parent, w.path⟩

/-- The walks that lead one vertex further back, in recorded order. -/
def extensions (w : Walk) (m : ParentMap) : List Walk :=
  ((m.parents w.current).filter fun parent => !w.path.contains parent).map w.extend

/-- The parents that would close a cycle, last recorded first. -/
def pruned (w : Walk) (m : ParentMap) : List VertexId :=
  (m.parents w.current).reverse.filter fun parent => w.path.contains parent

theorem unused_of_mem_extensions {w next : Walk} {m : ParentMap} (inside : next ∈ w.extensions m) :
    m.unused next.path < m.unused w.path := by
  obtain ⟨parent, fresh, rfl⟩ := List.mem_map.mp inside
  obtain ⟨known, fresh⟩ := List.mem_filter.mp fresh
  have fresh : parent ∉ w.path := by simpa using fresh
  exact ParentMap.unused_cons_lt known fresh

/-- The number of walks that come up when `w` is led back, itself included. -/
def weight (m : ParentMap) (w : Walk) : Nat :=
  (w.extensions m).attach.foldr (fun next total => weight m next.1 + total) 0 + 1
termination_by m.unused w.path
decreasing_by exact unused_of_mem_extensions next.2

/-- The weight of all walks on a stack. -/
def totalWeight (m : ParentMap) (stack : List Walk) : Nat :=
  stack.foldr (fun w total => weight m w + total) 0

theorem weight_eq (m : ParentMap) (w : Walk) :
    w.weight m = totalWeight m (w.extensions m) + 1 := by
  rw [weight, totalWeight]
  exact congrArg (· + 1) (List.foldr_attach (f := fun w total => weight m w + total))

theorem totalWeight_append (m : ParentMap) (upper lower : List Walk) :
    totalWeight m (upper ++ lower) = totalWeight m upper + totalWeight m lower := by
  induction upper with
  | nil => simp [totalWeight]
  | cons w rest ih =>
    have unfolded (ws : List Walk) : totalWeight m (w :: ws) = weight m w + totalWeight m ws := rfl
    rw [List.cons_append, unfolded, unfolded, ih]
    omega

end Walk

namespace ParentMap

/-- The paths found and the parents pruned, in the order in which they came up. -/
structure Enumeration where
  paths : Array Path := #[]
  pruned : Array VertexId := #[]
  deriving DecidableEq, Repr

def enumerate (m : ParentMap) (start : VertexId) (stack : List Walk) (found : Enumeration) :
    Enumeration :=
  match stack with
  | [] => found
  | w :: below =>
    if w.current = start then
      enumerate m start below { found with paths := found.paths.push w.path }
    else
      enumerate m start (w.extensions m ++ below)
        { found with pruned := found.pruned ++ w.pruned m }
termination_by Walk.totalWeight m stack
decreasing_by
  · have := Walk.weight_eq m w
    rw [show w :: below = [w] ++ below from rfl, Walk.totalWeight_append]
    simp only [Walk.totalWeight, List.foldr_cons, List.foldr_nil]
    omega
  · have := Walk.weight_eq m w
    rw [show w :: below = [w] ++ below from rfl, Walk.totalWeight_append, Walk.totalWeight_append]
    simp only [Walk.totalWeight, List.foldr_cons, List.foldr_nil] at this ⊢
    omega

end ParentMap

/-- Every path from `start` to `stop` that a map holds. It fails only if `stop` was not reached at
all; there may still be no path. -/
def Graph.pathsOf (g : Graph) (m : ParentMap) (start stop : VertexId) :
    Traced PathError (List Path) := do
  (Traced.ofExcept (g.check start)).mapError .outOfRange
  (Traced.ofExcept (g.check stop)).mapError .outOfRange
  if stop ≠ start ∧ m.parents stop = [] then
    .fail (g.notReached start stop)
  else
    let found := m.enumerate start [⟨stop, []⟩] {}
    .tellAll (found.pruned.toList.map fun v => .cyclePruned (g.labelOf v) v)
    .tell (.pathsEnumerated found.paths.size found.pruned.size)
    return found.paths.toList

end SignalPaths
