import SignalPaths.Proofs.Path.All
import SignalPaths.Proofs.Path.Lineage

/-!
Maps in which no vertex has more than one parent. There the walk back and the enumeration of walks
take the same way, so that the enumeration has one path if the walk has one, and else none. Where the
walk finds a fault or breaks off, the enumeration drops its only walk without a word.
-/

namespace SignalPaths

namespace Walk

variable {m : ParentMap} {u v : VertexId} {passed : Path}

theorem extensions_orphan (orphan : m.parents v = []) : extensions ⟨v, passed⟩ m = [] := by
  simp [extensions, orphan]

theorem extensions_fresh (only : m.OnlyParent u v) (fresh : u ∉ v :: passed) :
    extensions ⟨v, passed⟩ m = [⟨u, v :: passed⟩] := by
  rw [ParentMap.OnlyParent] at only
  simpa [extensions, extend, Walk.path, only] using fresh

theorem extensions_again (only : m.OnlyParent u v) (again : u ∈ v :: passed) :
    extensions ⟨v, passed⟩ m = [] := by
  rw [ParentMap.OnlyParent] at only
  simpa [extensions, Walk.path, only, or_iff_not_imp_left] using again

end Walk

namespace ParentMap

variable {m : ParentMap}

/-- No vertex has a choice of parents. There may still be loops. -/
def Unbranched (m : ParentMap) : Prop := ∀ v, (m.parents v).length ≤ 1

theorem unbranched_ofPairs {pairs : List (VertexId × VertexId)} (mode : SearchMode)
    (root : VertexId) (distinct : (pairs.map Prod.fst).Nodup) :
    (ofPairs mode root pairs).Unbranched := by
  intro v
  have counted : ((pairs.filter fun pair => pair.1 == v).map Prod.snd).length =
      (pairs.map Prod.fst).count v := by
    rw [List.length_map, ← List.countP_eq_length_filter, List.count, List.countP_map]
    rfl
  rw [parents_ofPairs, counted]
  exact List.nodup_iff_count_le_one.mp distinct v

theorem Unbranched.completions (unbranched : m.Unbranched) (start v : VertexId) (passed : Path) :
    Walk.completions m start ⟨v, passed⟩ = (m.retrace start v passed).toOption.toList := by
  -- Along the walk back: where it stops short of the start, its walk has no extension.
  fun_induction retrace m start v passed with
  | case1 passed => exact Walk.completions_of_start rfl
  | case2 v passed other orphan =>
    rw [Walk.completions_of_ne other, Walk.extensions_orphan orphan]
    rfl
  | case3 v passed other parent only again =>
    rw [Walk.completions_of_ne other, Walk.extensions_again only again]
    rfl
  | case4 v passed other parent only fresh ih =>
    rw [Walk.completions_of_ne other, Walk.extensions_fresh only fresh, List.flatMap_singleton, ih]
  | case5 v passed other some several =>
    have many := two_le_parents some several
    exact absurd (unbranched v) (Nat.not_le.mpr many)

end ParentMap

namespace Graph

variable {g : Graph} {m : ParentMap} {start stop : VertexId}

theorem pathsOf_of_unbranched (unbranched : m.Unbranched) (left : start < g.vertexCount)
    (right : stop < g.vertexCount) (reached : ¬ (stop ≠ start ∧ m.parents stop = [])) :
    (g.pathsOf m start stop).result = .ok (m.retrace start stop []).toOption.toList := by
  rw [pathsOf_of_reached left right reached, unbranched.completions]

/-- The walk back and the enumeration agree where no vertex has two parents. A walk that does not
come to the start leaves an empty list, unless the end itself has no parent. -/
theorem pathOf_agrees_pathsOf (single : m.mode = .single) (unbranched : m.Unbranched)
    (left : start < g.vertexCount) (right : stop < g.vertexCount) :
    (∀ path, (g.pathOf m start stop).result = .ok path ↔
      (g.pathsOf m start stop).result = .ok [path]) ∧
    (∀ vertex fault, (g.pathOf m start stop).result = .error (.inconsistent vertex fault) →
      (g.pathsOf m start stop).result = .ok []) ∧
    ∀ source target, (g.pathOf m start stop).result = .error (.notReached source target) →
      (m.parents stop = [] →
        (g.pathsOf m start stop).result = .error (.notReached source target)) ∧
      (m.parents stop ≠ [] → (g.pathsOf m start stop).result = .ok []) := by
  have listed := pathsOf_of_unbranched unbranched left right
  refine ⟨?_, ?_, ?_⟩
  · intro path
    rw [pathOf_ok_iff single left right]
    by_cases unreached : stop ≠ start ∧ m.parents stop = []
    · rw [pathsOf_of_unreached left right unreached,
        ParentMap.retrace_orphan unreached.1 unreached.2]
      simp
    · rw [listed unreached]
      cases m.retrace start stop [] <;> simp [Except.toOption]
  · intro vertex fault faulty
    rw [pathOf_inconsistent_iff single left right] at faulty
    have reached : ¬ (stop ≠ start ∧ m.parents stop = []) := by
      rintro ⟨other, orphan⟩
      rw [ParentMap.retrace_orphan other orphan] at faulty
      cases faulty
    rw [listed reached, faulty]
    rfl
  · intro source target failed
    have broken := (pathOf_notReached_iff single left right).mp ⟨source, target, failed⟩
    have other : stop ≠ start := by
      rintro rfl
      rw [ParentMap.retrace_start] at broken
      cases broken
    constructor
    · intro orphan
      rw [pathOf_of_unreached single left right broken] at failed
      rw [pathsOf_of_unreached left right ⟨other, orphan⟩, Except.error.inj failed]
    · intro parented
      rw [listed fun unreached => parented unreached.2, broken]
      rfl

/-- A chain of three wires, a wire with a parent outside of the netlist, and a loop that leaves it. -/
def sparseMap : ParentMap := .ofPairs .single 0 [(1, 0), (2, 1), (3, 8), (4, 9), (9, 4)]

theorem sparseMap.unbranched : sparseMap.Unbranched :=
  ParentMap.unbranched_ofPairs .single 0 (by decide)

theorem sparseMap.parents_eq :
    sparseMap.parents 0 = [] ∧ sparseMap.parents 1 = [0] ∧ sparseMap.parents 2 = [1] ∧
      sparseMap.parents 3 = [8] ∧ sparseMap.parents 4 = [9] ∧ sparseMap.parents 8 = [] ∧
      sparseMap.parents 9 = [4] := by
  simp [sparseMap, ParentMap.parents_ofPairs]

theorem sparseMap.retrace_eq :
    sparseMap.retrace 0 2 [] = .ok [0, 1, 2] ∧
      sparseMap.retrace 0 3 [] = .error .unreached ∧
      sparseMap.retrace 0 4 [] = .error (.faulty 4 .revisited) ∧
      sparseMap.retrace 3 0 [] = .error .unreached := by
  obtain ⟨parents₀, parents₁, parents₂, parents₃, parents₄, parents₈, parents₉⟩ := parents_eq
  refine ⟨?_, ?_, ?_, ?_⟩
  · rw [ParentMap.retrace_step (by decide) parents₂ (by decide),
      ParentMap.retrace_step (by decide) parents₁ (by decide), ParentMap.retrace_start]
  · rw [ParentMap.retrace_step (by decide) parents₃ (by decide),
      ParentMap.retrace_orphan (by decide) parents₈]
  · rw [ParentMap.retrace_step (by decide) parents₄ (by decide),
      ParentMap.retrace_again (by decide) parents₉ (by decide)]
  · exact ParentMap.retrace_orphan (by decide) parents₀

theorem pathOf_agrees_pathsOf_sparse :
    sparseMap.mode = .single ∧ sparseMap.Unbranched ∧ 0 < loopNetlist.vertexCount ∧
      2 < loopNetlist.vertexCount ∧ 3 < loopNetlist.vertexCount ∧ 4 < loopNetlist.vertexCount ∧
      ((loopNetlist.pathOf sparseMap 0 2).result = .ok [0, 1, 2] ∧
        (loopNetlist.pathsOf sparseMap 0 2).result = .ok [[0, 1, 2]]) ∧
      ((loopNetlist.pathOf sparseMap 0 4).result = .error (.inconsistent 4 .revisited) ∧
        (loopNetlist.pathsOf sparseMap 0 4).result = .ok []) ∧
      ((loopNetlist.pathOf sparseMap 0 3).result = .error (loopNetlist.notReached 0 3) ∧
        (loopNetlist.pathsOf sparseMap 0 3).result = .ok []) ∧
      ((loopNetlist.pathOf sparseMap 3 0).result = .error (loopNetlist.notReached 3 0) ∧
        (loopNetlist.pathsOf sparseMap 3 0).result = .error (loopNetlist.notReached 3 0)) := by
  have single : sparseMap.mode = .single := rfl
  have first : 0 < loopNetlist.vertexCount := by decide
  have third : 2 < loopNetlist.vertexCount := by decide
  have fourth : 3 < loopNetlist.vertexCount := by decide
  have fifth : 4 < loopNetlist.vertexCount := by decide
  have unbranched := sparseMap.unbranched
  obtain ⟨parents₀, _, _, parents₃, _⟩ := sparseMap.parents_eq
  obtain ⟨found, broken, faulty, orphaned⟩ := sparseMap.retrace_eq
  have found := pathOf_of_retrace single first third found
  have faulty := (pathOf_inconsistent_iff single first fifth).mpr faulty
  have broken := pathOf_of_unreached single first fourth broken
  have orphaned := pathOf_of_unreached single fourth first orphaned
  refine ⟨single, unbranched, first, third, fourth, fifth, ⟨found, ?_⟩, ⟨faulty, ?_⟩,
    ⟨broken, ?_⟩, orphaned, ?_⟩
  · exact ((pathOf_agrees_pathsOf single unbranched first third).1 _).mp found
  · exact (pathOf_agrees_pathsOf single unbranched first fifth).2.1 _ _ faulty
  · exact ((pathOf_agrees_pathsOf single unbranched first fourth).2.2 _ _ broken).2
      (by simp [parents₃])
  · exact ((pathOf_agrees_pathsOf single unbranched fourth first).2.2 _ _ orphaned).1 parents₀

end Graph

end SignalPaths
