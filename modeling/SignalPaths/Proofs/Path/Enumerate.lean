import Mathlib.Data.List.Nodup
import SignalPaths.Path.Enumerate
import SignalPaths.Proofs.Path.Retrace

/-!
All paths of a parent map as a plain recursion: a walk is led back through each of its parents in
turn. The loop with a stack of walks gives the same paths in the same order. They are the simple
paths along recorded parents, and each of them comes once if no parent is recorded twice.
-/

namespace SignalPaths

def ParentMap.FirstParent (m : ParentMap) (parent child : VertexId) : Prop :=
  (m.parents child).head? = some parent

namespace Walk

variable {m : ParentMap} {start v : VertexId} {w : Walk} {path front passed : Path}

def completions (m : ParentMap) (start : VertexId) (w : Walk) : List Path :=
  if w.current = start then [w.path]
  else (w.extensions m).attach.flatMap fun next => completions m start next.1
termination_by m.unused w.path
decreasing_by exact unused_of_mem_extensions next.2

theorem completions_of_start (done : w.current = start) : w.completions m start = [w.path] := by
  rw [completions, if_pos done]

theorem completions_of_ne (other : w.current ≠ start) :
    w.completions m start = (w.extensions m).flatMap (completions m start) := by
  rw [completions, if_neg other, List.flatMap_def, List.flatMap_def, List.attach_map_val]

/-- What holds of a walk if it holds of its extensions holds of every walk. -/
theorem extension_induction {motive : Walk → Prop} (m : ParentMap)
    (step : ∀ w, (∀ next ∈ w.extensions m, motive next) → motive w) (w : Walk) : motive w :=
  step w fun next _ => extension_induction m step next
termination_by m.unused w.path
decreasing_by exact unused_of_mem_extensions ‹_›

theorem mem_extensions {next : Walk} :
    next ∈ w.extensions m ↔
      ∃ parent, parent ∈ m.parents w.current ∧ parent ∉ w.path ∧ next = w.extend parent := by
  simp only [extensions, List.mem_map, List.mem_filter]
  constructor
  · rintro ⟨parent, ⟨known, fresh⟩, rfl⟩
    exact ⟨parent, known, by simpa using fresh, rfl⟩
  · rintro ⟨parent, known, fresh, rfl⟩
    exact ⟨parent, ⟨known, by simpa using fresh⟩, rfl⟩

/-- A simple path from the start along recorded parents that ends like a walk. -/
def IsCompletion (m : ParentMap) (start : VertexId) (w : Walk) (path : Path) : Prop :=
  ∃ front, path = front ++ w.passed ∧ path.Nodup ∧ IsSimplePath m.Parent start w.current front

theorem isCompletion_of_start (distinct : w.path.Nodup) (done : w.current = start) :
    IsCompletion m start w path ↔ path = w.path := by
  constructor
  · rintro ⟨front, rfl, _, simple⟩
    rw [done] at simple
    rw [simple.eq_singleton, ← done]
    rfl
  · rintro rfl
    exact ⟨[w.current], rfl, distinct, done ▸ IsSimplePath.singleton _ w.current⟩

theorem isCompletion_of_ne (other : w.current ≠ start) :
    IsCompletion m start w path ↔ ∃ next ∈ w.extensions m, IsCompletion m start next path := by
  constructor
  · rintro ⟨front, rfl, whole, simple⟩
    rcases simple.eq_singleton_or_concat with ⟨same, _⟩ | ⟨parent, before, rfl, simple, known⟩
    · exact absurd same other
    · have split : before ++ [w.current] ++ w.passed = before ++ w.path := by simp [Walk.path]
      have fresh : parent ∉ w.path := simple.target_notMem (split ▸ whole)
      refine ⟨w.extend parent, mem_extensions.mpr ⟨parent, known, fresh, rfl⟩, ?_⟩
      exact ⟨before, split, whole, simple⟩
  · rintro ⟨next, extension, front, rfl, whole, simple⟩
    obtain ⟨parent, known, _, rfl⟩ := mem_extensions.mp extension
    have new : w.current ∉ front := by
      intro member
      exact (List.nodup_append.mp whole).2.2 _ member _ List.mem_cons_self rfl
    exact ⟨front ++ [w.current], by simp [extend, Walk.path], whole, simple.concat known new⟩

theorem nodup_of_mem_extensions {next : Walk} (distinct : w.path.Nodup)
    (extension : next ∈ w.extensions m) : next.path.Nodup := by
  obtain ⟨parent, _, fresh, rfl⟩ := mem_extensions.mp extension
  exact List.nodup_cons.mpr ⟨fresh, distinct⟩

theorem mem_completions (distinct : w.path.Nodup) :
    path ∈ w.completions m start ↔ IsCompletion m start w path := by
  induction w using extension_induction m with
  | step w ih =>
    by_cases done : w.current = start
    · rw [completions_of_start done, List.mem_singleton, isCompletion_of_start distinct done]
    · rw [completions_of_ne done, List.mem_flatMap, isCompletion_of_ne done]
      constructor
      · rintro ⟨next, extension, member⟩
        exact ⟨next, extension,
          (ih next extension (nodup_of_mem_extensions distinct extension)).mp member⟩
      · rintro ⟨next, extension, completion⟩
        exact ⟨next, extension,
          (ih next extension (nodup_of_mem_extensions distinct extension)).mpr completion⟩

theorem mem_completions_singleton {stop : VertexId} :
    path ∈ completions m start ⟨stop, []⟩ ↔ IsSimplePath m.Parent start stop path := by
  have single : (⟨stop, []⟩ : Walk).path.Nodup := by simp [Walk.path]
  rw [mem_completions single]
  constructor
  · rintro ⟨front, rfl, _, simple⟩
    simpa using simple
  · intro simple
    exact ⟨path, by simp, simple.distinct, simple⟩

theorem path_suffix_of_mem (member : path ∈ w.completions m start) : w.path <:+ path := by
  induction w using extension_induction m with
  | step w ih =>
    by_cases done : w.current = start
    · rw [completions_of_start done, List.mem_singleton] at member
      exact member ▸ List.suffix_rfl
    · rw [completions_of_ne done] at member
      obtain ⟨next, extension, member⟩ := List.mem_flatMap.mp member
      obtain ⟨parent, known, fresh, rfl⟩ := mem_extensions.mp extension
      exact (List.suffix_cons parent w.path).trans (ih _ extension member)

theorem nodup_completions (distinct : ∀ v, (m.parents v).Nodup) (w : Walk) :
    (w.completions m start).Nodup := by
  induction w using extension_induction m with
  | step w ih =>
    by_cases done : w.current = start
    · rw [completions_of_start done]
      simp
    · rw [completions_of_ne done, List.nodup_flatMap]
      refine ⟨ih, ?_⟩
      -- Paths that end like two extensions end in the same parent before the walk.
      rw [extensions, List.pairwise_map]
      refine ((distinct w.current).filter _).imp ?_
      intro first second differ path left right
      have inside := List.suffix_of_suffix_length_le (path_suffix_of_mem left)
        (path_suffix_of_mem right) (by simp [extend, Walk.path])
      have same := inside.eq_of_length (by simp [extend, Walk.path])
      simp only [extend, Walk.path, List.cons.injEq] at same
      exact differ same.1

/-- The first completion goes along first parents, if these lead to the start. -/
theorem head_completions (simple : IsSimplePath m.FirstParent start v front)
    (distinct : (front ++ passed).Nodup) :
    (completions m start ⟨v, passed⟩).head? = some (front ++ passed) := by
  refine simple.last_induction
    (motive := fun v front => ∀ passed : Path, (front ++ passed).Nodup →
      (completions m start ⟨v, passed⟩).head? = some (front ++ passed)) ?_ ?_ passed distinct
  · intro passed _
    rw [completions_of_start (w := ⟨start, passed⟩) rfl]
    rfl
  · intro u v front simple first new ih passed distinct
    rw [List.append_assoc] at distinct ⊢
    have other : v ≠ start := fun same => new (same ▸ simple.source_mem)
    have fresh : u ∉ v :: passed := simple.target_notMem distinct
    obtain ⟨later, parents⟩ := List.head?_eq_some_iff.mp first
    have shorter : (completions m start ⟨u, v :: passed⟩).head? = some (front ++ v :: passed) :=
      ih (v :: passed) distinct
    have ahead : extensions ⟨v, passed⟩ m = ⟨u, v :: passed⟩ ::
        (later.filter fun parent => !(v :: passed).contains parent).map (extend ⟨v, passed⟩) := by
      simp only [extensions, Walk.path, parents]
      rw [List.filter_cons_of_pos (by simpa using fresh)]
      rfl
    rw [completions_of_ne other, ahead, List.flatMap_cons, List.head?_append, shorter]
    rfl

end Walk

namespace ParentMap

/-- The loop gives the completions of the walks on its stack, from the top down. -/
theorem enumerate_paths (m : ParentMap) (start : VertexId) (stack : List Walk)
    (found : Enumeration) :
    (m.enumerate start stack found).paths.toList =
      found.paths.toList ++ stack.flatMap (Walk.completions m start) := by
  fun_induction enumerate m start stack found with
  | case1 found => simp
  | case2 found w below done ih =>
    rw [ih, List.flatMap_cons, Walk.completions_of_start done]
    simp
  | case3 found w below other ih =>
    rw [ih, List.flatMap_append, List.flatMap_cons, Walk.completions_of_ne other]

end ParentMap

end SignalPaths
