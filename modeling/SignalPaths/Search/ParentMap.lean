import Std.Data.TreeMap
import SignalPaths.Netlist.Vertex

/-!
Parent maps: what a search remembers. For each vertex they list the vertices it was entered from,
in the order in which these were recorded. A single-path search records the tree edge alone, an
all-paths search every edge it looks at. A map may hold any vertex numbers.
-/

namespace SignalPaths

inductive SearchMode where
  | single | all
  deriving DecidableEq, Repr

def SearchMode.text : SearchMode → String
  | single => "single"
  | all => "all"

structure ParentMap where
  mode : SearchMode
  root : VertexId
  byChild : Std.TreeMap VertexId (Array VertexId) := ∅

namespace ParentMap

def record (m : ParentMap) (child parent : VertexId) : ParentMap :=
  { m with byChild := m.byChild.alter child fun known => some ((known.getD #[]).push parent) }

def parents (m : ParentMap) (v : VertexId) : List VertexId :=
  (m.byChild.getD v #[]).toList

def reached (m : ParentMap) (v : VertexId) : Bool :=
  v == m.root || m.byChild.contains v

/-- The number of vertices with a parent. -/
def size (m : ParentMap) : Nat := m.byChild.size

def isEmpty (m : ParentMap) : Bool := m.byChild.isEmpty

/-- The number of recorded pairs. -/
def edgeCount (m : ParentMap) : Nat :=
  m.byChild.foldl (fun count _ known => count + known.size) 0

@[simp] theorem mode_record (m : ParentMap) (child parent : VertexId) :
    (m.record child parent).mode = m.mode := rfl

@[simp] theorem root_record (m : ParentMap) (child parent : VertexId) :
    (m.record child parent).root = m.root := rfl

theorem parents_record (m : ParentMap) (child parent v : VertexId) :
    (m.record child parent).parents v =
      if v = child then m.parents v ++ [parent] else m.parents v := by
  by_cases same : v = child
  · subst same
    simp [parents, record, Std.TreeMap.getD_eq_getD_getElem?]
  · simp [parents, record, Std.TreeMap.getD_alter, Ne.symm same, same]

/-- Every vertex that some vertex was entered from. -/
def sources (m : ParentMap) : List VertexId :=
  m.byChild.toList.flatMap fun entry => entry.2.toList

theorem mem_sources_of_mem_parents {m : ParentMap} {parent v : VertexId}
    (inside : parent ∈ m.parents v) : parent ∈ m.sources := by
  simp only [parents, Std.TreeMap.getD_eq_getD_getElem?] at inside
  cases known : m.byChild[v]? with
  | none => simp [known] at inside
  | some array =>
    simp only [known, Option.getD_some] at inside
    exact List.mem_flatMap.mpr
      ⟨(v, array), Std.TreeMap.mem_toList_iff_getElem?_eq_some.mpr known, inside⟩

/-- The number of sources that a walk has not used yet, counted with repetitions. It bounds how
far the walk can still be led back. -/
def unused (m : ParentMap) (walk : List VertexId) : Nat :=
  m.sources.countP fun v => !walk.contains v

theorem unused_cons_lt {m : ParentMap} {parent v : VertexId} {walk : List VertexId}
    (inside : parent ∈ m.parents v) (fresh : parent ∉ walk) :
    m.unused (parent :: walk) < m.unused walk := by
  have held := mem_sources_of_mem_parents inside
  unfold unused
  generalize m.sources = sources at held
  induction sources with
  | nil => simp at held
  | cons s rest ih =>
    have le : rest.countP (fun v => !(parent :: walk).contains v) ≤
        rest.countP (fun v => !walk.contains v) := by
      apply List.countP_mono_left
      simp
    by_cases same : s = parent
    · subst same
      simp [fresh] at le ⊢
      omega
    · have := ih (by simpa [Ne.symm same] using held)
      by_cases used : s ∈ walk <;> simp [used, same] at this ⊢ <;> omega

end ParentMap

end SignalPaths
