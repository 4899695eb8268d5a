import SignalPaths.Proofs.Computation
import SignalPaths.Proofs.Path.Direct

/-!
Routes: walks that come to a list of points one after the other. The path through waypoints is put
together from one simple path for each leg, and it is there exactly if each point can be reached
from the one before.
-/

namespace SignalPaths

/-- The points are met along the path in order. Neighbours may be met at the same place. -/
def VisitsInOrder (path : Path) (points : List VertexId) : Prop :=
  ∃ positions : List Nat, positions.Pairwise (· ≤ ·) ∧
    positions.map (fun i => path[i]?) = points.map some

structure IsRoute (edge : VertexId → VertexId → Prop) (points : List VertexId) (path : Path) :
    Prop where
  head : path.head? = points.head?
  last : path.getLast? = points.getLast?
  edges : path.IsChain edge
  visits : VisitsInOrder path points

variable {edge : VertexId → VertexId → Prop} {a b c : VertexId} {path next : Path}
  {points : List VertexId}

theorem VisitsInOrder.lt_length {positions : List Nat}
    (met : positions.map (fun i => path[i]?) = points.map some) :
    ∀ i ∈ positions, i < path.length := by
  intro i member
  have found : path[i]? ∈ points.map some := met ▸ List.mem_map_of_mem member
  obtain ⟨v, _, same⟩ := List.mem_map.mp found
  exact (List.getElem?_eq_some_iff.mp same.symm).1

theorem VisitsInOrder.append (visits : VisitsInOrder path points) (onward : Path)
    (last : (path ++ onward).getLast? = some c) :
    VisitsInOrder (path ++ onward) (points ++ [c]) := by
  obtain ⟨positions, ordered, met⟩ := visits
  have inside := lt_length met
  refine ⟨positions ++ [(path ++ onward).length - 1], ?_, ?_⟩
  · rw [List.pairwise_append]
    refine ⟨ordered, List.pairwise_singleton _ _, ?_⟩
    intro i member j final
    rw [List.mem_singleton.mp final, List.length_append]
    have := inside i member
    omega
  · have kept : positions.map (fun i => (path ++ onward)[i]?) = points.map some := by
      rw [← met]
      apply List.map_congr_left
      intro i member
      exact List.getElem?_append_left (inside i member)
    rw [List.map_append, List.map_append, kept, List.map_singleton, List.map_singleton,
      ← List.getLast?_eq_getElem?, last]

theorem IsSimplePath.isRoute (simple : IsSimplePath edge a b path) : IsRoute edge [a, b] path where
  head := simple.head
  last := simple.last
  edges := simple.edges
  visits := by
    have start : VisitsInOrder path [a] := by
      refine ⟨[0], List.pairwise_singleton _ _, ?_⟩
      rw [List.map_singleton, List.map_singleton, ← List.head?_eq_getElem?, simple.head]
    have ended : (path ++ []).getLast? = some b := by
      rw [List.append_nil]
      exact simple.last
    have visits := start.append [] ended
    rwa [List.append_nil] at visits

open SignalPaths.Graph (joinPaths)

theorem Graph.joinPaths_of_ne_nil (nonempty : path ≠ []) (next : Path) :
    joinPaths path next = path ++ next.tail := by
  rw [joinPaths, if_neg (by simpa using nonempty), List.drop_one]

namespace IsRoute

theorem join (route : IsRoute edge (points ++ [b]) path) (leg : IsSimplePath edge b c next) :
    IsRoute edge (points ++ [b] ++ [c]) (joinPaths path next) := by
  have lastPath : path.getLast? = some b := by
    rw [route.last]
    simp
  have nonempty : path ≠ [] := by
    intro nothing
    rw [nothing] at lastPath
    cases lastPath
  have split : b :: next.tail = next := List.cons_head?_tail leg.head
  have last : (path ++ next.tail).getLast? = some c := by
    have final := leg.last
    rw [← split, List.getLast?_cons] at final
    rw [List.getLast?_append, lastPath, ← final]
    cases next.tail.getLast? <;> rfl
  rw [Graph.joinPaths_of_ne_nil nonempty]
  refine ⟨?_, ?_, ?_, route.visits.append _ last⟩
  · rw [List.head?_append_of_ne_nil _ nonempty, route.head]
    simp
  · rw [last, List.getLast?_concat]
  · have chain := leg.edges
    rw [← split] at chain
    refine List.isChain_append.mpr ⟨route.edges, chain.tail, ?_⟩
    intro x final y first
    rw [lastPath, Option.mem_some_iff] at final
    rw [← final]
    exact (List.isChain_cons.mp chain).1 y first

/-- A route grows by one leg after the other. -/
theorem foldl_join {rest : List VertexId} {legs : List Path}
    (route : IsRoute edge (points ++ [b]) path)
    (simple : List.Forall₂ (fun leg next => IsSimplePath edge leg.1 leg.2 next)
      ((b :: rest).zip rest) legs) :
    IsRoute edge (points ++ b :: rest) (legs.foldl joinPaths path) := by
  induction rest generalizing points b path legs with
  | nil =>
    cases simple
    exact route
  | cons c rest ih =>
    rw [List.zip_cons_cons, List.forall₂_cons_left_iff] at simple
    obtain ⟨next, others, leg, simple, rfl⟩ := simple
    have longer := ih (route.join leg) simple
    simpa using longer

end IsRoute

namespace Waypoints

variable {w : Waypoints}

theorem isChain_iff_zip (points : List VertexId) :
    points.IsChain edge ↔ ∀ leg ∈ points.zip points.tail, edge leg.1 leg.2 := by
  induction points with
  | nil => simp
  | cons a rest ih =>
    cases rest with
    | nil => simp
    | cons b rest =>
      rw [List.isChain_cons_cons, ih]
      simp

theorem segments_inside {count : Nat} (inside : ∀ v ∈ w.points, v < count) :
    ∀ leg ∈ w.segments, leg.1 < count ∧ leg.2 < count := by
  intro leg member
  obtain ⟨left, right⟩ := List.of_mem_zip member
  exact ⟨inside _ left, inside _ (List.mem_of_mem_tail right)⟩

end Waypoints

namespace Graph

variable {g : Graph} {source target : VertexId} {w : Waypoints} {legs : List Path}

theorem Coherent.directPath_of_reaches (coherent : g.Coherent) (inside : source < g.vertexCount)
    (reaches : g.Reaches source target) :
    ∃ path, (g.directPath source target).result = .ok path ∧
      IsSimplePath g.Edge source target path := by
  obtain ⟨path, answer, treePath⟩ := coherent.anyPath_of_reaches inside reaches
  rw [anyPath_direct] at answer
  exact ⟨path, answer, coherent.simplePath_of_onlyParent inside treePath.simple⟩

theorem Coherent.directPath_of_not_reaches (coherent : g.Coherent) (left : source < g.vertexCount)
    (right : target < g.vertexCount) (apart : ¬ g.Reaches source target) :
    (g.directPath source target).result = .error (g.noPath source target) := by
  rw [← anyPath_direct]
  exact coherent.anyPath_of_not_reaches left right apart

/-- All legs are found first, and joined then. -/
theorem anyPath_result (g : Graph) (w : Waypoints) :
    (g.anyPath w).result =
      (w.segments.mapM fun leg => (g.directPath leg.1 leg.2).result).map
        (List.foldl joinPaths []) := by
  rw [anyPath, Traced.result_foldlM, ← foldlM_combine]
  congr 1
  funext path leg
  rw [Traced.result_bind]
  cases (g.directPath leg.1 leg.2).result <;> rfl

theorem isRoute_of_legs
    (simple : List.Forall₂ (fun leg next => IsSimplePath edge leg.1 leg.2 next) w.segments legs) :
    IsRoute edge w.points (legs.foldl joinPaths []) := by
  obtain ⟨start, through, stop⟩ := w
  obtain ⟨b, rest, split⟩ : ∃ b rest, through ++ [stop] = b :: rest :=
    List.exists_cons_of_ne_nil (by simp)
  rw [Waypoints.segments, Waypoints.points, List.cons_append, split, List.tail_cons,
    List.zip_cons_cons, List.forall₂_cons_left_iff] at simple
  obtain ⟨first, others, leg, simple, rfl⟩ := simple
  rw [Waypoints.points, List.cons_append, split]
  have route : IsRoute edge ([start] ++ [b]) first := leg.isRoute
  exact route.foldl_join simple

/-- There is a path through the waypoints if each can be reached from the one before. -/
theorem Coherent.anyPath_of_chain (coherent : g.Coherent)
    (inside : ∀ v ∈ w.points, v < g.vertexCount) (chain : w.points.IsChain g.Reaches) :
    ∃ path, (g.anyPath w).result = .ok path ∧ IsRoute g.Edge w.points path := by
  have each : ∀ leg ∈ w.segments, ∃ path, (g.directPath leg.1 leg.2).result = .ok path ∧
      IsSimplePath g.Edge leg.1 leg.2 path := by
    intro leg member
    apply coherent.directPath_of_reaches (Waypoints.segments_inside inside leg member).1
    exact (Waypoints.isChain_iff_zip w.points).mp chain leg member
  obtain ⟨legs, found⟩ := exists_forall₂ each
  have answers := mapM_ok_iff.mpr (found.imp fun _ _ both => both.1)
  refine ⟨legs.foldl joinPaths [], ?_, isRoute_of_legs (found.imp fun _ _ both => both.2)⟩
  rw [anyPath_result, answers]
  rfl

theorem Coherent.anyPath_of_not_chain (coherent : g.Coherent)
    (inside : ∀ v ∈ w.points, v < g.vertexCount) (broken : ¬ w.points.IsChain g.Reaches) :
    ∃ source target, (g.anyPath w).result = .error (g.noPath source target) := by
  have answer (leg : VertexId × VertexId) (member : leg ∈ w.segments)
      (apart : ¬ g.Reaches leg.1 leg.2) :
      (g.directPath leg.1 leg.2).result = .error (g.noPath leg.1 leg.2) := by
    obtain ⟨left, right⟩ := Waypoints.segments_inside inside leg member
    exact coherent.directPath_of_not_reaches left right apart
  rw [anyPath_result]
  cases known : w.segments.mapM fun leg => (g.directPath leg.1 leg.2).result with
  | ok legs =>
    refine absurd ((Waypoints.isChain_iff_zip w.points).mpr ?_) broken
    intro leg member
    obtain ⟨path, _, found⟩ := forall₂_mem_left (mapM_ok_iff.mp known) member
    by_contra apart
    rw [answer leg member apart] at found
    cases found
  | error e =>
    obtain ⟨before, leg, after, split, _, failed⟩ := mapM_error_iff.mp known
    have member : leg ∈ w.segments := by rw [split]; simp
    have apart : ¬ g.Reaches leg.1 leg.2 := by
      intro reaches
      obtain ⟨path, found, _⟩ := coherent.directPath_of_reaches
        (Waypoints.segments_inside inside leg member).1 reaches
      rw [failed] at found
      cases found
    rw [answer leg member apart] at failed
    obtain rfl := Except.error.inj failed
    exact ⟨leg.1, leg.2, rfl⟩

end Graph

end SignalPaths
