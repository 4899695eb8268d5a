import SignalPaths.Proofs.SimplePath

/-!
Walking back in a forest. Where the only parents lead every vertex back to one without a parent, a
walk back comes to each ancestor along the one path from it, and it ends without a fault where it
meets no start.
-/

namespace SignalPaths

namespace ParentMap

variable {m : ParentMap} {origin start v w : VertexId} {path passed : Path}

def Parent (m : ParentMap) (parent child : VertexId) : Prop := parent ∈ m.parents child

/-- Nothing but `parent` is recorded for `child`. -/
def OnlyParent (m : ParentMap) (parent child : VertexId) : Prop :=
  m.parents child = [parent]

theorem onlyParent_record_of_ne {child parent a b : VertexId} (other : b ≠ child) :
    (m.record child parent).OnlyParent a b ↔ m.OnlyParent a b := by
  rw [OnlyParent, OnlyParent, parents_record, if_neg other]

/-- The map after some children and their parents were recorded, one pair after the other. -/
def ofPairs (mode : SearchMode) (root : VertexId) (pairs : List (VertexId × VertexId)) : ParentMap :=
  pairs.foldl (fun m pair => m.record pair.1 pair.2) { mode, root }

theorem parents_ofPairs (mode : SearchMode) (root : VertexId) (pairs : List (VertexId × VertexId))
    (v : VertexId) :
    (ofPairs mode root pairs).parents v =
      (pairs.filter fun pair => pair.1 == v).map Prod.snd := by
  have onward (m : ParentMap) :
      (pairs.foldl (fun m pair => m.record pair.1 pair.2) m).parents v =
        m.parents v ++ (pairs.filter fun pair => pair.1 == v).map Prod.snd := by
    induction pairs generalizing m with
    | nil => simp
    | cons pair rest ih =>
      rw [List.foldl_cons, ih, parents_record]
      by_cases same : v = pair.1
      · simp [same]
      · simp [same, Ne.symm same]
  have bare : ({ mode, root } : ParentMap).parents v = [] := by simp [parents]
  rw [ofPairs, onward, bare, List.nil_append]

/-- Parents, parents of parents and so on lead from a vertex back to its ancestors, of which it is
one itself. -/
def Ancestor (m : ParentMap) : VertexId → VertexId → Prop := Relation.ReflTransGen m.Parent

/-- The parents lead each vertex back to one that has none, and there is never a choice. -/
def IsForest (m : ParentMap) : Prop :=
  ∀ v, ∃ origin path, m.parents origin = [] ∧ IsSimplePath m.OnlyParent origin v path

theorem retrace_start (m : ParentMap) (start : VertexId) (passed : Path) :
    m.retrace start start passed = .ok (start :: passed) := by
  rw [retrace, if_pos rfl]

theorem retrace_orphan (other : v ≠ start) (orphan : m.parents v = []) :
    m.retrace start v passed = .error .unreached := by
  rw [retrace, if_neg other]
  split <;> simp_all

theorem retrace_step (other : v ≠ start) (only : m.OnlyParent w v) (fresh : w ∉ v :: passed) :
    m.retrace start v passed = m.retrace start w (v :: passed) := by
  rw [OnlyParent] at only
  rw [retrace, if_neg other]
  split
  · simp_all
  · rename_i parent known
    rw [known, List.cons.injEq] at only
    obtain ⟨rfl, _⟩ := only
    rw [dif_neg fresh]
  · simp_all

/-- A walk back goes along only parents as long as it does not meet the start. -/
theorem retrace_along (simple : IsSimplePath m.OnlyParent w v path) (off : start ∉ path.tail)
    (distinct : (path ++ passed).Nodup) :
    m.retrace start v passed = m.retrace start w (path.tail ++ passed) := by
  refine simple.head_induction
    (motive := fun w path => start ∉ path.tail → (path ++ passed).Nodup →
      m.retrace start v passed = m.retrace start w (path.tail ++ passed)) ?_ ?_ off distinct
  · intro _ _
    rfl
  · intro parent child path only simple _ ih off distinct
    have split : child :: path.tail = path := List.cons_head?_tail simple.head
    rw [List.cons_append] at distinct
    obtain ⟨fresh, distinct⟩ := List.nodup_cons.mp distinct
    rw [List.tail_cons, ← split, List.mem_cons, not_or] at off
    rw [← split, List.cons_append] at fresh
    rw [ih off.2 distinct, retrace_step (Ne.symm off.1) only fresh, List.tail_cons,
      ← List.cons_append, split]

theorem retrace_append (simple : IsSimplePath m.OnlyParent start v path)
    (distinct : (path ++ passed).Nodup) : m.retrace start v passed = .ok (path ++ passed) := by
  have split : start :: path.tail = path := List.cons_head?_tail simple.head
  have off : start ∉ path.tail := (List.nodup_cons.mp (split ▸ simple.distinct)).1
  rw [retrace_along simple off distinct, retrace_start, ← List.cons_append, split]

theorem retrace_of_simplePath (simple : IsSimplePath m.OnlyParent start v path) :
    m.retrace start v [] = .ok path := by
  have distinct : (path ++ []).Nodup := by simpa using simple.distinct
  rw [retrace_append simple distinct, List.append_nil]

theorem retrace_unreached (orphan : m.parents origin = [])
    (simple : IsSimplePath m.OnlyParent origin v path) (off : start ∉ path)
    (distinct : (path ++ passed).Nodup) : m.retrace start v passed = .error .unreached := by
  have other : origin ≠ start := fun same => off (same ▸ simple.source_mem)
  rw [retrace_along simple (mt List.mem_of_mem_tail off) distinct, retrace_orphan other orphan]

/-- The path to a vertex from its origin goes along all its ancestors. -/
theorem mem_of_ancestor (orphan : m.parents origin = [])
    (simple : IsSimplePath m.OnlyParent origin v path) (ancestor : m.Ancestor start v) :
    start ∈ path := by
  induction ancestor using Relation.ReflTransGen.head_induction_on with
  | refl => exact simple.target_mem
  | @head parent child recorded _ member =>
    obtain ⟨before, after, rfl⟩ := List.append_of_mem member
    rcases simple.upTo.eq_singleton_or_concat with ⟨rfl, _⟩ | ⟨u, shorter, same, shorterSimple, only⟩
    · rw [Parent, orphan] at recorded
      exact absurd recorded List.not_mem_nil
    · rw [OnlyParent] at only
      rw [Parent, only, List.mem_singleton] at recorded
      rw [recorded, (List.append_inj' same rfl).1]
      exact List.mem_append_left _ shorterSimple.target_mem

theorem ancestor_of_simplePath (simple : IsSimplePath m.OnlyParent start v path) :
    m.Ancestor start v := by
  refine Relation.ReflTransGen.mono ?_ _ _ simple.reaches
  intro parent child only
  rw [OnlyParent] at only
  simp [Parent, only]

theorem IsForest.retrace_ancestor (forest : m.IsForest) (ancestor : m.Ancestor start v) :
    ∃ path, m.retrace start v [] = .ok path ∧ IsSimplePath m.OnlyParent start v path := by
  obtain ⟨origin, path, orphan, simple⟩ := forest v
  obtain ⟨before, after, rfl⟩ := List.append_of_mem (mem_of_ancestor orphan simple ancestor)
  exact ⟨start :: after, retrace_of_simplePath simple.onward, simple.onward⟩

theorem IsForest.retrace_stranger (forest : m.IsForest) (stranger : ¬ m.Ancestor start v) :
    m.retrace start v [] = .error .unreached := by
  obtain ⟨origin, path, orphan, simple⟩ := forest v
  refine retrace_unreached orphan simple ?_ (by simpa using simple.distinct)
  intro member
  obtain ⟨before, after, rfl⟩ := List.append_of_mem member
  exact stranger (ancestor_of_simplePath simple.onward)

end ParentMap

end SignalPaths
