import SignalPaths.Proofs.Path.Direct

/-!
How a walk back along first parents ends, in a single-path map of any content. It comes to the start,
or to a vertex without a parent, or to one with several, or again to one that it passed before. What
happens first decides, and each of these is what the answer says.
-/

namespace SignalPaths

namespace ParentMap

variable {m : ParentMap} {start stop u v : VertexId} {path passed : Path}
  {outcome : Except Setback Path}

/-- Where a number of steps from `stop` back along first parents lead. -/
def lineage (m : ParentMap) (stop : VertexId) : Nat → Option VertexId
  | 0 => some stop
  | k + 1 => (m.lineage stop k).bind fun v => (m.parents v).head?

/-- The lineage up to a step, the latest first. -/
def trail (m : ParentMap) (stop : VertexId) (k : Nat) : List (Option VertexId) :=
  ((List.range (k + 1)).map (m.lineage stop)).reverse

theorem trail_zero (m : ParentMap) (stop : VertexId) : m.trail stop 0 = [some stop] := rfl

theorem trail_succ (m : ParentMap) (stop : VertexId) (k : Nat) :
    m.trail stop (k + 1) = m.lineage stop (k + 1) :: m.trail stop k := by
  simp [trail, List.range_succ]

/-- After `k` steps back the lineage is at `v`. No vertex came up twice, and each one before `v` has
exactly one parent. -/
structure ComesTo (m : ParentMap) (stop : VertexId) (k : Nat) (v : VertexId) : Prop where
  here : m.lineage stop k = some v
  distinct : (m.trail stop k).Nodup
  single : ∀ i < k, ∃ u, m.lineage stop i = some u ∧ (m.parents u).length = 1

namespace ComesTo

theorem refl (m : ParentMap) (stop : VertexId) : m.ComesTo stop 0 stop where
  here := rfl
  distinct := by simp [trail_zero]
  single i bound := absurd bound (Nat.not_lt_zero i)

theorem step {k : Nat} (comes : m.ComesTo stop k v) (only : m.OnlyParent u v)
    (new : some u ∉ m.trail stop k) : m.ComesTo stop (k + 1) u where
  here := by
    rw [OnlyParent] at only
    rw [lineage, comes.here, Option.bind_some, only, List.head?_cons]
  distinct := by
    rw [OnlyParent] at only
    rw [trail_succ, lineage, comes.here, Option.bind_some, only, List.head?_cons]
    exact List.nodup_cons.mpr ⟨new, comes.distinct⟩
  single i bound := by
    rcases Nat.lt_succ_iff_lt_or_eq.mp bound with earlier | rfl
    · exact comes.single i earlier
    · exact ⟨v, comes.here, by rw [only]; rfl⟩

theorem before {k : Nat} (comes : m.ComesTo stop (k + 1) u) :
    ∃ v, m.ComesTo stop k v ∧ m.OnlyParent u v ∧ some u ∉ m.trail stop k := by
  obtain ⟨v, here, one⟩ := comes.single k (Nat.lt_succ_self k)
  obtain ⟨parent, known⟩ := List.length_eq_one_iff.mp one
  have next := comes.here
  have distinct := comes.distinct
  rw [trail_succ, next] at distinct
  obtain ⟨new, distinct⟩ := List.nodup_cons.mp distinct
  rw [lineage, here, Option.bind_some, known, List.head?_cons, Option.some_inj] at next
  refine ⟨v, ⟨here, distinct, ?_⟩, ?_, new⟩
  · intro i bound
    exact comes.single i (Nat.lt_succ_of_lt bound)
  · rw [OnlyParent, known, next]

theorem exists_simplePath {k : Nat} (comes : m.ComesTo stop k v) :
    ∃ path, IsSimplePath m.OnlyParent v stop path ∧ path.map some = m.trail stop k := by
  induction k generalizing v with
  | zero =>
    obtain rfl : stop = v := by simpa [lineage] using comes.here
    exact ⟨[stop], .singleton _ stop, rfl⟩
  | succ k ih =>
    obtain ⟨u, earlier, only, new⟩ := comes.before
    obtain ⟨path, simple, listed⟩ := ih earlier
    have off : v ∉ path := by
      intro member
      exact new (listed ▸ List.mem_map_of_mem member)
    refine ⟨v :: path, simple.cons only off, ?_⟩
    rw [trail_succ, comes.here, List.map_cons, listed]

end ComesTo

/-- A path along only parents is the lineage of its target, turned round. -/
theorem simplePath_iff_comesTo :
    IsSimplePath m.OnlyParent v stop path ↔
      ∃ k, m.ComesTo stop k v ∧ path.map some = m.trail stop k := by
  constructor
  · intro simple
    refine simple.head_induction
      (motive := fun v path => ∃ k, m.ComesTo stop k v ∧ path.map some = m.trail stop k) ?_ ?_
    · exact ⟨0, .refl m stop, rfl⟩
    · rintro u v path only _ new ⟨k, comes, listed⟩
      have off : some u ∉ m.trail stop k := by
        rw [← listed]
        simpa using new
      have next := comes.step only off
      refine ⟨k + 1, next, ?_⟩
      rw [trail_succ, next.here, List.map_cons, listed]
  · rintro ⟨k, comes, listed⟩
    obtain ⟨other, simple, same⟩ := comes.exists_simplePath
    have same : path = other :=
      List.map_injective_iff.mpr (fun _ _ => Option.some.inj) (listed.trans same.symm)
    exact same ▸ simple

/-- How a walk back can end, and what it has passed by then. -/
inductive Ending (m : ParentMap) (start stop : VertexId) : Except Setback Path → Prop where
  | found {path : Path} (simple : IsSimplePath m.OnlyParent start stop path) :
    Ending m start stop (.ok path)
  | unreached {v : VertexId} {path : Path} (simple : IsSimplePath m.OnlyParent v stop path)
    (off : start ∉ path) (orphan : m.parents v = []) : Ending m start stop (.error .unreached)
  | manyParents {v : VertexId} {path : Path} (simple : IsSimplePath m.OnlyParent v stop path)
    (off : start ∉ path) (many : 2 ≤ (m.parents v).length) :
    Ending m start stop (.error (.faulty v (.manyParents (m.parents v).length)))
  | revisited {u v : VertexId} {path : Path} (simple : IsSimplePath m.OnlyParent v stop path)
    (off : start ∉ path) (only : m.OnlyParent u v) (again : u ∈ path) :
    Ending m start stop (.error (.faulty u .revisited))

theorem two_le_parents (some : m.parents v ≠ []) (several : ∀ u, m.parents v ≠ [u]) :
    2 ≤ (m.parents v).length := by
  have one : (m.parents v).length ≠ 1 := by
    intro one
    obtain ⟨parent, only⟩ := List.length_eq_one_iff.mp one
    exact several parent only
  have positive := List.length_pos_iff.mpr some
  omega

theorem retrace_ends (simple : IsSimplePath m.OnlyParent v stop (v :: passed))
    (off : start ∉ passed) : Ending m start stop (m.retrace start v passed) := by
  -- What was passed is a path along only parents that has not met the start; each step keeps that.
  fun_induction retrace m start v passed with
  | case1 passed => exact .found simple
  | case2 v passed other orphan =>
    exact .unreached simple (by simp [off, Ne.symm other]) orphan
  | case3 v passed other parent only again =>
    exact .revisited simple (by simp [off, Ne.symm other]) only again
  | case4 v passed other parent only fresh ih =>
    exact ih (simple.cons only fresh) (by simp [off, Ne.symm other])
  | case5 v passed other some several =>
    exact .manyParents simple (by simp [off, Ne.symm other]) (two_le_parents some several)

theorem retrace_many (other : v ≠ start) (many : 2 ≤ (m.parents v).length) :
    m.retrace start v passed = .error (.faulty v (.manyParents (m.parents v).length)) := by
  rw [retrace, if_neg other]
  split <;> simp_all

theorem retrace_again (other : v ≠ start) (only : m.OnlyParent u v) (again : u ∈ v :: passed) :
    m.retrace start v passed = .error (.faulty u .revisited) := by
  rw [OnlyParent] at only
  rw [retrace, if_neg other]
  split
  · simp_all
  · rename_i parent known
    rw [known, List.cons.injEq] at only
    obtain ⟨rfl, _⟩ := only
    rw [dif_pos again]
  · simp_all

theorem Ending.retrace_eq (ending : Ending m start stop outcome) :
    m.retrace start stop [] = outcome := by
  cases ending with
  | found simple => exact retrace_of_simplePath simple
  | unreached simple off orphan =>
    exact retrace_unreached orphan simple off (by simpa using simple.distinct)
  | @manyParents v path simple off many =>
    have other : v ≠ start := fun same => off (same ▸ simple.source_mem)
    rw [retrace_along simple (mt List.mem_of_mem_tail off) (by simpa using simple.distinct),
      retrace_many other many]
  | @revisited u v path simple off only again =>
    have other : v ≠ start := fun same => off (same ▸ simple.source_mem)
    have split : v :: path.tail = path := List.cons_head?_tail simple.head
    rw [retrace_along simple (mt List.mem_of_mem_tail off) (by simpa using simple.distinct),
      List.append_nil, retrace_again other only (by rw [split]; exact again)]

theorem retrace_eq_iff : m.retrace start stop [] = outcome ↔ Ending m start stop outcome := by
  constructor
  · rintro rfl
    exact retrace_ends (.singleton _ stop) List.not_mem_nil
  · exact Ending.retrace_eq

theorem mem_iff_of_listed {k : Nat} (listed : path.map some = m.trail stop k) :
    v ∈ path ↔ some v ∈ m.trail stop k := by
  rw [← listed]
  simp

theorem retrace_ok_iff :
    m.retrace start stop [] = .ok path ↔
      ∃ k, m.ComesTo stop k start ∧ path.map some = m.trail stop k := by
  rw [retrace_eq_iff, ← simplePath_iff_comesTo]
  constructor
  · rintro ⟨simple⟩
    exact simple
  · exact .found

theorem retrace_unreached_iff :
    m.retrace start stop [] = .error .unreached ↔
      ∃ k v, m.ComesTo stop k v ∧ some start ∉ m.trail stop k ∧ m.parents v = [] := by
  rw [retrace_eq_iff]
  constructor
  · rintro (_ | ⟨simple, off, orphan⟩)
    obtain ⟨k, comes, listed⟩ := simplePath_iff_comesTo.mp simple
    exact ⟨k, _, comes, mt (mem_iff_of_listed listed).mpr off, orphan⟩
  · rintro ⟨k, v, comes, off, orphan⟩
    obtain ⟨path, simple, listed⟩ := comes.exists_simplePath
    exact .unreached simple (mt (mem_iff_of_listed listed).mp off) orphan

theorem retrace_faulty_iff {fault : MapFault} :
    m.retrace start stop [] = .error (.faulty v fault) ↔
      ∃ k, some start ∉ m.trail stop k ∧
        (m.ComesTo stop k v ∧ 2 ≤ (m.parents v).length ∧
            fault = .manyParents (m.parents v).length ∨
          ∃ u, m.ComesTo stop k u ∧ m.parents u = [v] ∧ some v ∈ m.trail stop k ∧
            fault = .revisited) := by
  rw [retrace_eq_iff]
  constructor
  · intro ending
    cases ending with
    | manyParents simple off many =>
      obtain ⟨k, comes, listed⟩ := simplePath_iff_comesTo.mp simple
      exact ⟨k, mt (mem_iff_of_listed listed).mpr off, .inl ⟨comes, many, rfl⟩⟩
    | revisited simple off only again =>
      obtain ⟨k, comes, listed⟩ := simplePath_iff_comesTo.mp simple
      exact ⟨k, mt (mem_iff_of_listed listed).mpr off,
        .inr ⟨_, comes, only, (mem_iff_of_listed listed).mp again, rfl⟩⟩
  · rintro ⟨k, off, ⟨comes, many, rfl⟩ | ⟨u, comes, only, again, rfl⟩⟩
    · obtain ⟨path, simple, listed⟩ := comes.exists_simplePath
      exact .manyParents simple (mt (mem_iff_of_listed listed).mp off) many
    · obtain ⟨path, simple, listed⟩ := comes.exists_simplePath
      exact .revisited simple (mt (mem_iff_of_listed listed).mp off) only
        ((mem_iff_of_listed listed).mpr again)

end ParentMap

namespace Graph

variable {g : Graph} {m : ParentMap} {start stop : VertexId} {path : Path}

def setbackError (g : Graph) (start stop : VertexId) : ParentMap.Setback → PathError
  | .unreached => g.notReached start stop
  | .faulty vertex fault => .inconsistent vertex fault

theorem pathOf_result (single : m.mode = .single) (left : start < g.vertexCount)
    (right : stop < g.vertexCount) :
    (g.pathOf m start stop).result =
      (m.retrace start stop []).mapError (g.setbackError start stop) := by
  cases known : m.retrace start stop [] with
  | ok path => exact pathOf_of_retrace single left right known
  | error setback =>
    cases setback with
    | unreached => exact pathOf_of_unreached single left right known
    | faulty vertex fault =>
      simp [pathOf, check_of_lt left, check_of_lt right, single, known, setbackError]

section Answers

variable (single : m.mode = .single) (left : start < g.vertexCount) (right : stop < g.vertexCount)

include single left right

theorem pathOf_ok_iff :
    (g.pathOf m start stop).result = .ok path ↔ m.retrace start stop [] = .ok path := by
  rw [pathOf_result single left right]
  cases m.retrace start stop [] <;> simp

theorem pathOf_notReached_iff :
    (∃ source target, (g.pathOf m start stop).result = .error (.notReached source target)) ↔
      m.retrace start stop [] = .error .unreached := by
  rw [pathOf_result single left right]
  cases m.retrace start stop [] with
  | ok path => simp
  | error setback => cases setback <;> simp [setbackError, notReached]

theorem pathOf_inconsistent_iff {vertex : VertexId} {fault : MapFault} :
    (g.pathOf m start stop).result = .error (.inconsistent vertex fault) ↔
      m.retrace start stop [] = .error (.faulty vertex fault) := by
  rw [pathOf_result single left right]
  cases m.retrace start stop [] with
  | ok path => simp
  | error setback => cases setback <;> simp [setbackError, notReached]

theorem pathOf_cases :
    (∃ path, (g.pathOf m start stop).result = .ok path) ∨
      (∃ source target, (g.pathOf m start stop).result = .error (.notReached source target)) ∨
      ∃ vertex fault, (g.pathOf m start stop).result = .error (.inconsistent vertex fault) := by
  rw [pathOf_result single left right]
  cases m.retrace start stop [] with
  | ok path => exact .inl ⟨path, rfl⟩
  | error setback =>
    cases setback with
    | unreached => exact .inr (.inl ⟨_, _, rfl⟩)
    | faulty vertex fault => exact .inr (.inr ⟨vertex, fault, rfl⟩)

end Answers

/-- A single-path map gives the lineage of the end if that comes to the start. If the lineage breaks
off the end is not reached, and in all other cases the map is at fault, with the first vertex that
has several parents or came up before. -/
theorem pathOf_lineage (single : m.mode = .single) (left : start < g.vertexCount)
    (right : stop < g.vertexCount) :
    (∀ path, (g.pathOf m start stop).result = .ok path ↔
      ∃ k, m.ComesTo stop k start ∧ path.map some = m.trail stop k) ∧
    ((∃ source target, (g.pathOf m start stop).result = .error (.notReached source target)) ↔
      ∃ k v, m.ComesTo stop k v ∧ some start ∉ m.trail stop k ∧ m.parents v = []) ∧
    (∀ vertex fault, (g.pathOf m start stop).result = .error (.inconsistent vertex fault) ↔
      ∃ k, some start ∉ m.trail stop k ∧
        (m.ComesTo stop k vertex ∧ 2 ≤ (m.parents vertex).length ∧
            fault = .manyParents (m.parents vertex).length ∨
          ∃ v, m.ComesTo stop k v ∧ m.parents v = [vertex] ∧ some vertex ∈ m.trail stop k ∧
            fault = .revisited)) ∧
    ((∀ path, (g.pathOf m start stop).result ≠ .ok path) →
      (∀ source target, (g.pathOf m start stop).result ≠ .error (.notReached source target)) →
      ∃ vertex fault, (g.pathOf m start stop).result = .error (.inconsistent vertex fault)) ∧
    ∀ path, (g.pathOf m start stop).result = .ok path →
      path.head? = some start ∧ path.getLast? = some stop ∧ path.Nodup := by
  refine ⟨?_, ?_, ?_, ?_, ?_⟩
  · intro path
    rw [pathOf_ok_iff single left right, ParentMap.retrace_ok_iff]
  · rw [pathOf_notReached_iff single left right, ParentMap.retrace_unreached_iff]
  · intro vertex fault
    rw [pathOf_inconsistent_iff single left right, ParentMap.retrace_faulty_iff]
  · intro notFound notUnreached
    rcases pathOf_cases single left right with ⟨path, found⟩ | ⟨source, target, unreached⟩ | faulty
    · exact absurd found (notFound path)
    · exact absurd unreached (notUnreached source target)
    · exact faulty
  · intro path found
    rw [pathOf_ok_iff single left right, ParentMap.retrace_ok_iff,
      ← ParentMap.simplePath_iff_comesTo] at found
    exact ⟨found.head, found.last, found.distinct⟩

/-- A map with a chain of three wires, a fourth one with two parents, and a fifth one that leads
round a loop outside of the netlist. -/
def forkedMap : ParentMap := .ofPairs .single 0 [(1, 0), (2, 1), (3, 2), (3, 1), (4, 9), (9, 4)]

theorem forkedMap.parents_eq :
    forkedMap.parents 0 = [] ∧ forkedMap.parents 1 = [0] ∧ forkedMap.parents 2 = [1] ∧
      forkedMap.parents 3 = [2, 1] ∧ forkedMap.parents 4 = [9] ∧ forkedMap.parents 9 = [4] := by
  simp [forkedMap, ParentMap.parents_ofPairs]

theorem forkedMap.trail_eq :
    forkedMap.trail 2 1 = [some 1, some 2] ∧ forkedMap.trail 2 2 = [some 0, some 1, some 2] ∧
      forkedMap.trail 4 1 = [some 9, some 4] := by
  simp [ParentMap.trail_succ, ParentMap.trail_zero, ParentMap.lineage, parents_eq]

theorem forkedMap.comesTo_first : forkedMap.ComesTo 2 2 0 := by
  obtain ⟨_, parents₁, parents₂, _⟩ := parents_eq
  have second : forkedMap.ComesTo 2 1 1 :=
    (ParentMap.ComesTo.refl forkedMap 2).step parents₂ (by simp [ParentMap.trail_zero])
  exact second.step parents₁ (by simp [trail_eq])

theorem forkedMap.comesTo_outside : forkedMap.ComesTo 4 1 9 := by
  obtain ⟨_, _, _, _, parents₄, _⟩ := parents_eq
  exact (ParentMap.ComesTo.refl forkedMap 4).step parents₄ (by simp [ParentMap.trail_zero])

theorem pathOf_lineage_forked :
    forkedMap.mode = .single ∧ 0 < loopNetlist.vertexCount ∧ 2 < loopNetlist.vertexCount ∧
      3 < loopNetlist.vertexCount ∧ 4 < loopNetlist.vertexCount ∧
      (loopNetlist.pathOf forkedMap 0 2).result = .ok [0, 1, 2] ∧
      (∃ source target,
        (loopNetlist.pathOf forkedMap 3 2).result = .error (.notReached source target)) ∧
      (loopNetlist.pathOf forkedMap 0 3).result = .error (.inconsistent 3 (.manyParents 2)) ∧
      (loopNetlist.pathOf forkedMap 0 4).result = .error (.inconsistent 4 .revisited) := by
  have single : forkedMap.mode = .single := rfl
  have first : 0 < loopNetlist.vertexCount := by decide
  have third : 2 < loopNetlist.vertexCount := by decide
  have fourth : 3 < loopNetlist.vertexCount := by decide
  have fifth : 4 < loopNetlist.vertexCount := by decide
  obtain ⟨parents₀, _, _, parents₃, _, parents₉⟩ := forkedMap.parents_eq
  obtain ⟨_, chain, round⟩ := forkedMap.trail_eq
  refine ⟨single, first, third, fourth, fifth, ?_, ?_, ?_, ?_⟩
  · exact ((pathOf_lineage single first third).1 [0, 1, 2]).mpr
      ⟨2, forkedMap.comesTo_first, chain.symm⟩
  · exact (pathOf_lineage single fourth third).2.1.mpr
      ⟨2, 0, forkedMap.comesTo_first, by simp [chain], parents₀⟩
  · exact ((pathOf_lineage single first fourth).2.2.1 3 _).mpr
      ⟨0, by simp [ParentMap.trail_zero],
        .inl ⟨.refl forkedMap 3, by simp [parents₃], by simp [parents₃]⟩⟩
  · exact ((pathOf_lineage single first fifth).2.2.1 4 _).mpr
      ⟨1, by simp [round], .inr ⟨9, forkedMap.comesTo_outside, parents₉, by simp [round], rfl⟩⟩

end Graph

end SignalPaths
