import Mathlib.Data.List.Chain
import Mathlib.Data.List.Nodup
import Mathlib.Logic.Relation
import SignalPaths.Path.Retrace

/-!
Simple paths of a relation on vertices, and how two of them between the same ends part: they share
a beginning, and from its last vertex they go on to different ones.
-/

namespace SignalPaths

/-- A path along the edges of a relation that comes to no vertex twice. -/
structure IsSimplePath (edge : VertexId → VertexId → Prop) (source target : VertexId)
    (path : Path) : Prop where
  head : path.head? = some source
  last : path.getLast? = some target
  distinct : path.Nodup
  edges : path.IsChain edge

/-- Where the two paths part, the first one goes on to a neighbour that is listed earlier. -/
def Precedes (neighbours : VertexId → List VertexId) (first second : Path) : Prop :=
  ∃ common u a b restFirst restSecond,
    first = common ++ u :: a :: restFirst ∧ second = common ++ u :: b :: restSecond ∧
      (neighbours u).idxOf a < (neighbours u).idxOf b

namespace IsSimplePath

variable {edge : VertexId → VertexId → Prop} {source target u v : VertexId} {path other : Path}

theorem singleton (edge : VertexId → VertexId → Prop) (v : VertexId) :
    IsSimplePath edge v v [v] where
  head := rfl
  last := rfl
  distinct := by simp
  edges := .singleton v

theorem concat (simple : IsSimplePath edge source u path) (step : edge u v) (new : v ∉ path) :
    IsSimplePath edge source v (path ++ [v]) where
  head := by simp [simple.head]
  last := by simp
  distinct := by
    rw [List.nodup_append]
    refine ⟨simple.distinct, by simp, ?_⟩
    rintro a member b last rfl
    exact new (List.mem_singleton.mp last ▸ member)
  edges := by
    refine simple.edges.append (.singleton v) ?_
    intro x last y first
    rw [simple.last, Option.mem_some_iff] at last
    rw [List.head?_cons, Option.mem_some_iff] at first
    rw [← last, ← first]
    exact step

theorem cons (step : edge u v) (simple : IsSimplePath edge v target path) (new : u ∉ path) :
    IsSimplePath edge u target (u :: path) where
  head := rfl
  last := by rw [List.getLast?_cons, simple.last, Option.getD_some]
  distinct := List.nodup_cons.mpr ⟨new, simple.distinct⟩
  edges := by
    refine List.isChain_cons.mpr ⟨?_, simple.edges⟩
    intro x first
    rw [simple.head, Option.mem_some_iff] at first
    exact first ▸ step

theorem imp_of_mem {edge' : VertexId → VertexId → Prop} (simple : IsSimplePath edge source target path)
    (keep : ∀ a ∈ path, ∀ b ∈ path, edge a b → edge' a b) : IsSimplePath edge' source target path where
  head := simple.head
  last := simple.last
  distinct := simple.distinct
  edges := simple.edges.imp_of_mem_imp fun a b first second step => keep a first b second step

theorem reverse (simple : IsSimplePath edge source target path) :
    IsSimplePath (flip edge) target source path.reverse where
  head := by rw [List.head?_reverse, simple.last]
  last := by rw [List.getLast?_reverse, simple.head]
  distinct := List.nodup_reverse.mpr simple.distinct
  edges := List.isChain_reverse.mpr simple.edges

theorem source_mem (simple : IsSimplePath edge source target path) : source ∈ path :=
  List.mem_of_head? simple.head

theorem target_mem (simple : IsSimplePath edge source target path) : target ∈ path :=
  List.mem_of_getLast? simple.last

theorem target_notMem {after : Path} (simple : IsSimplePath edge source target path)
    (distinct : (path ++ after).Nodup) : target ∉ after := by
  intro member
  exact (List.nodup_append.mp distinct).2.2 target simple.target_mem target member rfl

theorem onward {before after : Path} (simple : IsSimplePath edge source target (before ++ v :: after)) :
    IsSimplePath edge v target (v :: after) where
  head := rfl
  last := by
    have last := simple.last
    rwa [List.getLast?_append_of_ne_nil _ (by simp)] at last
  distinct := (List.nodup_append.mp simple.distinct).2.1
  edges := simple.edges.right_of_append

theorem of_cons {after : Path} (simple : IsSimplePath edge source target (u :: v :: after)) :
    IsSimplePath edge v target (v :: after) := by
  have split : IsSimplePath edge source target ([u] ++ v :: after) := simple
  exact split.onward

theorem upTo {before after : Path} (simple : IsSimplePath edge source target (before ++ v :: after)) :
    IsSimplePath edge source v (before ++ [v]) := by
  have split : before ++ v :: after = (before ++ [v]) ++ after := by simp
  rw [split] at simple
  refine ⟨?_, by simp, (List.nodup_append.mp simple.distinct).1, simple.edges.left_of_append⟩
  have head := simple.head
  rwa [List.head?_append_of_ne_nil _ (by simp)] at head

theorem eq_singleton (simple : IsSimplePath edge source source path) : path = [source] := by
  have head := simple.head
  have last := simple.last
  have distinct := simple.distinct
  cases path with
  | nil => simp at head
  | cons first rest =>
    cases rest with
    | nil => simpa using head
    | cons second rest =>
      have same : first = source := by simpa using head
      subst same
      rw [List.getLast?_cons_cons] at last
      exact absurd (List.mem_of_getLast? last) (List.nodup_cons.mp distinct).1

theorem eq_singleton_or_concat (simple : IsSimplePath edge source target path) :
    target = source ∧ path = [source] ∨
      ∃ u before, path = before ++ [target] ∧ IsSimplePath edge source u before ∧
        edge u target := by
  obtain ⟨before, rfl⟩ := List.getLast?_eq_some_iff.mp simple.last
  cases final : before.getLast? with
  | none =>
    rw [List.getLast?_eq_none_iff] at final
    subst final
    have same : target = source := by simpa using simple.head
    exact .inl ⟨same, by rw [same]; rfl⟩
  | some u =>
    refine .inr ⟨u, before, rfl, ⟨?_, final, ?_, simple.edges.left_of_append⟩, ?_⟩
    · have head := simple.head
      rwa [List.head?_append_of_ne_nil] at head
      rintro rfl
      simp at final
    · exact (List.nodup_append.mp simple.distinct).1
    · obtain ⟨_, _, joint⟩ := List.isChain_append.mp simple.edges
      exact joint u final target (by simp)

/-- Induction along a simple path, from its source on. -/
theorem last_induction {motive : VertexId → Path → Prop} (single : motive source [source])
    (concat : ∀ u v path, IsSimplePath edge source u path → edge u v → v ∉ path →
      motive u path → motive v (path ++ [v]))
    (simple : IsSimplePath edge source target path) : motive target path := by
  induction path using List.reverseRecOn generalizing target with
  | nil => simpa using simple.head
  | append_singleton before last ih =>
    have apart := (List.nodup_append.mp simple.distinct).2.2
    rcases simple.eq_singleton_or_concat with ⟨rfl, alone⟩ | ⟨u, _, same, shorter, step⟩
    · rw [alone]
      exact single
    · obtain ⟨rfl, same⟩ := List.append_inj' same rfl
      obtain rfl : last = target := by simpa using same
      refine concat u last before shorter step ?_ (ih shorter)
      intro member
      exact apart last member last (by simp) rfl

/-- Induction along a simple path, from its target back. -/
theorem head_induction {motive : VertexId → Path → Prop} (single : motive target [target])
    (cons : ∀ u v path, edge u v → IsSimplePath edge v target path → u ∉ path →
      motive v path → motive u (u :: path))
    (simple : IsSimplePath edge source target path) : motive source path := by
  induction path generalizing source with
  | nil => simpa using simple.head
  | cons first rest ih =>
    obtain rfl : first = source := by simpa using simple.head
    cases rest with
    | nil =>
      obtain rfl : first = target := by simpa using simple.last
      exact single
    | cons second rest =>
      have step := (List.isChain_cons_cons.mp simple.edges).1
      have new := (List.nodup_cons.mp simple.distinct).1
      exact cons first second _ step simple.of_cons new (ih simple.of_cons)

theorem reaches_of_mem (simple : IsSimplePath edge source target path) (member : v ∈ path) :
    Relation.ReflTransGen edge source v := by
  refine simple.edges.induction (Relation.ReflTransGen edge source) path
    (fun _ _ step before => before.tail step) ?_ v member
  intro some
  have head : path.head some = source := by
    have head := simple.head
    rwa [List.head?_eq_some_head some, Option.some_inj] at head
  rw [head]

theorem reaches (simple : IsSimplePath edge source target path) :
    Relation.ReflTransGen edge source target :=
  simple.reaches_of_mem simple.target_mem

/-- Two simple paths between the same ends have a vertex after which they part. -/
theorem diverge (simple : IsSimplePath edge source target path)
    (simpleOther : IsSimplePath edge source target other) (differ : path ≠ other) :
    ∃ common u a b rest restOther,
      path = common ++ u :: a :: rest ∧ other = common ++ u :: b :: restOther ∧ a ≠ b := by
  induction path generalizing source other with
  | nil => simpa using simple.head
  | cons first rest ih =>
    have same : first = source := by simpa using simple.head
    subst same
    cases other with
    | nil => simpa using simpleOther.head
    | cons first' restOther =>
      have same : first' = first := by simpa using simpleOther.head
      subst same
      -- A path that ends here comes back to its source, and so does the other one.
      cases rest with
      | nil =>
        have same : first' = target := by simpa using simple.last
        subst same
        exact absurd simpleOther.eq_singleton (Ne.symm differ)
      | cons a rest =>
        cases restOther with
        | nil =>
          have same : first' = target := by simpa using simpleOther.last
          subst same
          exact absurd simple.eq_singleton differ
        | cons b restOther =>
          by_cases agree : a = b
          · subst agree
            obtain ⟨common, u, a', b', tail, tail', left, right, apart⟩ :=
              ih simple.of_cons simpleOther.of_cons (fun equal => differ (congrArg _ equal))
            exact ⟨first' :: common, u, a', b', tail, tail', by rw [left]; rfl,
              by rw [right]; rfl, apart⟩
          · exact ⟨[], first', a, b, rest, restOther, rfl, rfl, agree⟩

end IsSimplePath

end SignalPaths
