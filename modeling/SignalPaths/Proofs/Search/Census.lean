import Mathlib.Algebra.BigOperators.Group.Finset.Sigma
import SignalPaths.Proofs.Search.Heading
import SignalPaths.Proofs.Search.Modes
import SignalPaths.Proofs.Search.Recorded

/-!
What the maps of a search hold, and how much of it. An all-paths map has each edge out of a vertex
that can be reached, once; a single-path map has the first of these for each vertex but the root.
-/

namespace SignalPaths

namespace ParentMap

variable {m : ParentMap} {n : Nat}

theorem parents_of_entry {entry : VertexId × Array VertexId} (member : entry ∈ m.byChild.toList) :
    m.parents entry.1 = entry.2.toList := by
  have known := Std.TreeMap.mem_toList_iff_getElem?_eq_some.mp member
  rw [parents, Std.TreeMap.getD_eq_getD_getElem?, known, Option.getD_some]

/-- What the entries of a map weigh together is a sum over the vertices. -/
theorem sum_entries (filled : m.Filled) (inside : ∀ v, m.parents v ≠ [] → v < n)
    (weight : List VertexId → Nat) (empty : weight [] = 0) :
    (m.byChild.toList.map fun entry => weight entry.2.toList).sum =
      ∑ v ∈ Finset.range n, weight (m.parents v) := by
  have entries : (m.byChild.toList.map fun entry => weight entry.2.toList) =
      m.byChild.keys.map fun v => weight (m.parents v) := by
    rw [← Std.TreeMap.map_fst_toList_eq_keys, List.map_map]
    apply List.map_congr_left
    intro entry member
    rw [Function.comp_apply, parents_of_entry member]
  rw [entries, ← List.sum_toFinset _ Std.TreeMap.nodup_keys]
  apply Finset.sum_subset
  · intro v key
    rw [List.mem_toFinset, Std.TreeMap.mem_keys] at key
    exact Finset.mem_range.mpr (inside v (filled v key))
  · intro v _ absent
    rw [List.mem_toFinset, Std.TreeMap.mem_keys, Std.TreeMap.mem_iff_contains,
      Bool.not_eq_true] at absent
    rw [parents, Std.TreeMap.getD_eq_fallback_of_contains_eq_false absent]
    exact empty

theorem edgeCount_eq_sum (filled : m.Filled) (inside : ∀ v, m.parents v ≠ [] → v < n) :
    m.edgeCount = ∑ v ∈ Finset.range n, (m.parents v).length := by
  rw [← sum_entries filled inside List.length rfl, edgeCount, Std.TreeMap.foldl_eq_foldl_toList,
    List.sum_eq_foldl, List.foldl_map]
  rfl

theorem size_eq_sum (filled : m.Filled) (inside : ∀ v, m.parents v ≠ [] → v < n) :
    m.size = ∑ v ∈ Finset.range n, if m.parents v = [] then 0 else 1 := by
  have one : ∀ entry ∈ m.byChild.toList, (if entry.2.toList = [] then 0 else 1) = 1 := by
    intro entry member
    have key : m.byChild.contains entry.1 = true := by
      rw [Std.TreeMap.contains_eq_isSome_getElem?,
        Std.TreeMap.mem_toList_iff_getElem?_eq_some.mp member]
      rfl
    have held := filled entry.1 key
    rw [parents_of_entry member] at held
    exact if_neg held
  rw [← sum_entries filled inside (fun known => if known = [] then 0 else 1) rfl,
    List.map_congr_left one, List.map_const', List.sum_replicate_nat, Nat.mul_one,
    Std.TreeMap.length_toList, size]

end ParentMap

namespace DepthFirst

variable {view : View} {root u v : VertexId} {s t : State}

theorem length_eq_sum_count {known : List VertexId} {n : Nat} (inside : ∀ u ∈ known, u < n) :
    known.length = ∑ u ∈ Finset.range n, known.count u := by
  have bounded : ∀ u ∈ (known : Multiset VertexId), u ∈ Finset.range n := by
    intro u member
    exact Finset.mem_range.mpr (inside u member)
  have total := Multiset.sum_count_eq_card bounded
  simpa only [Multiset.coe_count, Multiset.coe_card] using total.symm

theorem reached_final_all (closed : view.Closed) (inside : root < view.vertexCount) :
    (final view root .all).map.reached v = true ↔ Relation.ReflTransGen view.Edge root v := by
  obtain ⟨rooted, filled⟩ := map_final view root .all
  have alike := alike_final closed inside
  rw [ParentMap.reached, rooted, Bool.or_eq_true, beq_iff_eq]
  constructor
  · rintro (rfl | held)
    · exact .refl
    · by_contra apart
      apply filled v held
      apply alike.fresh v
      rwa [discovered_iff_reaches closed inside]
  · intro reaches
    by_cases same : v = root
    · exact .inl same
    · have found := (discovered_iff_reaches closed inside .single).mpr reaches
      obtain ⟨parent, member⟩ := List.exists_mem_of_ne_nil _ (alike.found v found same)
      exact .inr (ParentMap.contains_of_mem_parents member)

theorem parents_inside (closed : view.Closed) (inside : root < view.vertexCount)
    (held : (final view root .all).map.parents v ≠ []) : v < view.vertexCount := by
  obtain ⟨u, member⟩ := List.exists_mem_of_ne_nil _ held
  exact closed u v ((mem_parents_final closed inside).mp member).2

theorem parents_found (closed : view.Closed) (inside : root < view.vertexCount)
    (member : u ∈ (final view root .all).map.parents v) : u < view.vertexCount := by
  have reaches := ((mem_parents_final closed inside).mp member).1
  cases reaches with
  | refl => exact inside
  | tail _ last => exact closed _ _ last

/-- An all-paths map has as many pairs as there are edges out of the vertices found. -/
theorem edgeCount_final_all (closed : view.Closed) (inside : root < view.vertexCount) :
    (final view root .all).map.edgeCount = ∑ u ∈ Finset.range view.vertexCount,
      if (final view root .all).Discovered u then (view.neighbours u).length else 0 := by
  have targets (u : VertexId) : (view.neighbours u).length =
      ∑ v ∈ Finset.range view.vertexCount, (view.neighbours u).count v :=
    length_eq_sum_count (closed u)
  have sources (v : VertexId) : ((final view root .all).map.parents v).length =
      ∑ u ∈ Finset.range view.vertexCount, ((final view root .all).map.parents v).count u :=
    length_eq_sum_count fun _ => parents_found closed inside
  rw [ParentMap.edgeCount_eq_sum (map_final view root .all).2
    fun _ => parents_inside closed inside]
  simp only [sources, targets, count_parents_final inside]
  rw [Finset.sum_comm]
  apply Finset.sum_congr rfl
  intro u _
  split
  · rfl
  · exact Finset.sum_const_zero

namespace Alike

theorem parents_eq_nil_iff (alike : Alike view root [] s t) :
    s.map.parents v = [] ↔ ¬ (s.Discovered v ∧ v ≠ root) := by
  constructor
  · rintro bare ⟨found, aside⟩
    rw [alike.parents v aside, List.take_eq_nil_iff] at bare
    exact alike.found v found aside (bare.resolve_left Nat.one_ne_zero)
  · intro none
    by_cases same : v = root
    · rw [same]
      exact alike.rootless
    · rw [alike.parents v same, alike.fresh v fun found => none ⟨found, same⟩, List.take_nil]

theorem length_parents (alike : Alike view root [] s t) (v : VertexId) :
    (s.map.parents v).length = if s.map.parents v = [] then 0 else 1 := by
  by_cases same : v = root
  · rw [same, alike.rootless]
    rfl
  · rw [alike.parents v same]
    cases t.map.parents v with
    | nil => rfl
    | cons first others => rfl

end Alike

/-- A single-path map has one pair for each vertex found, the root apart. -/
theorem size_final_single (closed : view.Closed) (inside : root < view.vertexCount) :
    (final view root .single).map.size = (final view root .single).map.edgeCount ∧
    (final view root .single).map.size + 1 = ∑ v ∈ Finset.range view.vertexCount,
      if (final view root .single).Discovered v then 1 else 0 := by
  have alike := alike_final closed inside
  have filled := (map_final view root .single).2
  have bounded : ∀ v, (final view root .single).map.parents v ≠ [] → v < view.vertexCount := by
    intro v held
    rw [Ne, alike.parents_eq_nil_iff, not_not] at held
    exact alike.explored.size ▸ held.1.1
  have size := ParentMap.size_eq_sum filled bounded
  constructor
  · rw [size, ParentMap.edgeCount_eq_sum filled bounded]
    simp only [alike.length_parents]
  · rw [size]
    have found := alike.explored.rooted
    have one : (1 : Nat) = ∑ v ∈ Finset.range view.vertexCount, if v = root then 1 else 0 := by
      rw [Finset.sum_ite_eq', if_pos (Finset.mem_range.mpr inside)]
    nth_rewrite 2 [one]
    rw [← Finset.sum_add_distrib]
    apply Finset.sum_congr rfl
    intro v _
    simp only [alike.parents_eq_nil_iff]
    by_cases same : v = root
    · simp [same, found]
    · by_cases seen : (final view root .single).Discovered v <;> simp [same, seen]

end DepthFirst

namespace Graph

open DepthFirst

variable {g : Graph} {root : VertexId}

theorem Coherent.discovered_iff_leadsOn (coherent : g.Coherent) (heading : Heading)
    (inside : root < g.vertexCount) (mode : SearchMode) (v : VertexId) :
    (final (g.view heading) root mode).Discovered v ↔ g.LeadsOn heading root v := by
  rw [← vertexCount_view g heading] at inside
  rw [discovered_iff_reaches (coherent.view_closed heading) inside, coherent.view_edge, LeadsOn]

/-- An all-paths search records each edge out of a vertex that it can reach, once, and no other. -/
theorem search_all_records (netlist : g.IsNetlist) (heading : Heading)
    (inside : root < g.vertexCount) :
    ∃ m, (g.search heading root .all).result = .ok m ∧
      (∀ v, (m.parents v).Nodup ∧
        ∀ u, u ∈ m.parents v ↔ g.LeadsOn heading root u ∧ g.Leads heading u v) ∧
      m.edgeCount = g.countEdges heading (fun u _ => g.LeadsOn heading root u) ∧
      ∀ v, m.reached v = true ↔ g.LeadsOn heading root v := by
  classical
  have coherent := netlist.coherent
  have closed := coherent.view_closed heading
  have bound : root < (g.view heading).vertexCount := by rwa [vertexCount_view]
  refine ⟨(final (g.view heading) root .all).map, ?_, ?_, ?_, ?_⟩
  · rw [search_eq inside, depthFirst_map]
  · intro v
    refine ⟨nodup_parents_final bound (coherent.nodup_neighbours heading) v, fun u => ?_⟩
    rw [mem_parents_final closed bound, coherent.view_edge, LeadsOn]
  · rw [edgeCount_final_all closed bound, coherent.countEdges_eq_sum, vertexCount_view]
    simp only [coherent.discovered_iff_leadsOn heading inside]
    apply Finset.sum_congr rfl
    intro u _
    split <;> simp [*]
  · intro v
    rw [reached_final_all closed bound, coherent.view_edge, LeadsOn]

/-- The second wire drives itself, the third leads back to the root, and the fifth is apart. -/
theorem search_all_records_loop :
    loopNetlist.IsNetlist ∧ 0 < loopNetlist.vertexCount ∧
      ∃ m, (loopNetlist.search .along 0 .all).result = .ok m ∧ 1 ∈ m.parents 1 ∧
        2 ∈ m.parents 0 ∧ m.edgeCount = 6 ∧ m.reached 4 = false := by
  have inside : 0 < loopNetlist.vertexCount := by decide
  obtain ⟨m, found, parents, edges, reached⟩ :=
    search_all_records loopNetlist.isNetlist .along inside
  refine ⟨loopNetlist.isNetlist, inside, m, found, ?_, ?_, ?_, ?_⟩
  · simp [parents, loopNetlist.leadsOn_iff, loopNetlist.leads_iff]
  · simp [parents, loopNetlist.leadsOn_iff, loopNetlist.leads_iff]
  · simp [edges, countEdges, directed, loopNetlist.edges_eq, loopNetlist.leadsOn_iff]
  · rw [← Bool.not_eq_true, reached, loopNetlist.leadsOn_iff]
    decide

/-- A single-path search keeps of an all-paths search the first parent of each vertex but the
root. -/
theorem search_single_first (netlist : g.IsNetlist) (heading : Heading)
    (inside : root < g.vertexCount) :
    ∃ s a, (g.search heading root .single).result = .ok s ∧
      (g.search heading root .all).result = .ok a ∧
      (∀ v, s.reached v = a.reached v ∧ (s.reached v = true ↔ g.LeadsOn heading root v)) ∧
      s.parents root = [] ∧
      (∀ v, v ≠ root → s.parents v = (a.parents v).head?.toList ∧
        (a.parents v = [] ↔ s.reached v = false)) ∧
      s.size = s.edgeCount ∧
      s.size + 1 = g.countVertices (g.LeadsOn heading root) := by
  classical
  have coherent := netlist.coherent
  have closed := coherent.view_closed heading
  have bound : root < (g.view heading).vertexCount := by rwa [vertexCount_view]
  have alike := alike_final closed bound
  obtain ⟨edges, size⟩ := size_final_single closed bound
  refine ⟨(final (g.view heading) root .single).map, (final (g.view heading) root .all).map,
    ?_, ?_, ?_, alike.rootless, ?_, edges, ?_⟩
  · rw [search_eq inside, depthFirst_map]
  · rw [search_eq inside, depthFirst_map]
  · intro v
    rw [Bool.eq_iff_iff, reached_final closed bound, reached_final_all closed bound,
      coherent.view_edge, LeadsOn]
    exact ⟨Iff.rfl, Iff.rfl⟩
  · intro v aside
    refine ⟨by rw [alike.parents v aside, List.take_one], ?_⟩
    rw [← Bool.not_eq_true, reached_final closed bound,
      ← discovered_iff_reaches closed bound .single]
    constructor
    · intro bare found
      exact alike.found v found aside bare
    · exact alike.fresh v
  · simp only [size, countVertices_eq_sum, vertexCount_view,
      coherent.discovered_iff_leadsOn heading inside]

theorem search_single_first_loop :
    loopNetlist.IsNetlist ∧ 0 < loopNetlist.vertexCount ∧
      ∃ s a, (loopNetlist.search .along 0 .single).result = .ok s ∧
        (loopNetlist.search .along 0 .all).result = .ok a ∧ s.parents 0 = [] ∧
        a.parents 3 ≠ [] ∧ s.parents 3 = (a.parents 3).head?.toList ∧ s.size = 3 := by
  have inside : 0 < loopNetlist.vertexCount := by decide
  obtain ⟨s, a, single, all, reached, rootless, first, _, size⟩ :=
    search_single_first loopNetlist.isNetlist .along inside
  obtain ⟨head, bare⟩ := first 3 (by decide)
  refine ⟨loopNetlist.isNetlist, inside, s, a, single, all, rootless, ?_, head, ?_⟩
  · rw [Ne, bare, ← Bool.not_eq_true, (reached 3).2, loopNetlist.leadsOn_iff]
    decide
  · have five : loopNetlist.vertexIds = [0, 1, 2, 3, 4] := by decide
    simp [countVertices, five, loopNetlist.leadsOn_iff] at size
    exact size

end Graph

end SignalPaths
