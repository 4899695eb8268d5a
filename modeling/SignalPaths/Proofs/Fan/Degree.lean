import SignalPaths.Fan
import SignalPaths.Proofs.Netlist.Degree

/-!
The ranking of signals by fan-out. It lists each signal once, larger degrees first and equal ones by
vertex number. Two entries never tie, so this order is the only one. A threshold cuts the ranking off,
since sorting has brought all entries that pass it to the front.
-/

namespace SignalPaths

theorem filter_eq_takeWhile {α : Type} {keep : α → Bool} {items : List α}
    (downward : items.Pairwise fun a b => keep b = true → keep a = true) :
    items.filter keep = items.takeWhile keep := by
  induction items with
  | nil => rfl
  | cons a items ih =>
    obtain ⟨first, others⟩ := List.pairwise_cons.mp downward
    by_cases kept : keep a = true
    · rw [List.filter_cons_of_pos kept, List.takeWhile_cons_of_pos kept, ih others]
    · rw [List.filter_cons_of_neg kept, List.takeWhile_cons_of_neg kept, List.filter_eq_nil_iff]
      intro b member later
      exact kept (first b member later)

namespace Graph

variable {g : Graph}

def IsSignal (g : Graph) (id : VertexId) : Prop :=
  ∃ v, g.vertex id = .ok v ∧ v.kind.isLogic = false

/-- An entry stands before another if its degree is larger, or the same and its vertex comes first. -/
def Outranks (a b : VertexId × Nat) : Prop := b.2 < a.2 ∨ a.2 = b.2 ∧ a.1 < b.1

/-- The entries of a ranking before they are sorted. -/
def degreeEntries (g : Graph) : List (VertexId × Nat) :=
  (g.vertices.toList.filter fun v => !v.kind.isLogic).map fun v => (v.id, g.outDegree v.id)

theorem fanOutDegrees_eq (g : Graph) :
    g.fanOutDegrees = g.degreeEntries.mergeSort fun a b => decide (b.2 ≤ a.2) := rfl

theorem fanOutDegrees_perm (g : Graph) : g.fanOutDegrees.Perm g.degreeEntries :=
  List.mergeSort_perm _ _

theorem notBelow_trans (a b c : VertexId × Nat) (first : decide (b.2 ≤ a.2) = true)
    (second : decide (c.2 ≤ b.2) = true) : decide (c.2 ≤ a.2) = true := by
  rw [decide_eq_true_eq] at first second ⊢
  exact Nat.le_trans second first

theorem notBelow_total (a b : VertexId × Nat) :
    (decide (b.2 ≤ a.2) || decide (a.2 ≤ b.2)) = true := by
  rw [Bool.or_eq_true, decide_eq_true_eq, decide_eq_true_eq]
  exact Nat.le_total b.2 a.2

/-- Sorting is stable: the entries of one degree keep their order. -/
theorem filter_fanOutDegrees (g : Graph) (degree : Nat) :
    (g.fanOutDegrees.filter fun entry => entry.2 == degree) =
      g.degreeEntries.filter fun entry => entry.2 == degree := by
  have equal : (g.degreeEntries.filter fun entry => entry.2 == degree).Pairwise
      fun a b => decide (b.2 ≤ a.2) = true := by
    apply List.pairwise_of_forall_mem_list
    intro a left b right
    have first : a.2 = degree := by simpa using (List.mem_filter.mp left).2
    have second : b.2 = degree := by simpa using (List.mem_filter.mp right).2
    simp [first, second]
  have kept := List.sublist_mergeSort notBelow_trans notBelow_total equal List.filter_sublist
  rw [← fanOutDegrees_eq] at kept
  have inside := kept.filter fun entry => entry.2 == degree
  rw [List.filter_filter] at inside
  simp only [Bool.and_self] at inside
  exact (inside.eq_of_length (g.fanOutDegrees_perm.filter _).length_eq.symm).symm

namespace Indexed

theorem pairwise_degreeEntries (indexed : g.Indexed) :
    g.degreeEntries.Pairwise fun a b => a.1 < b.1 :=
  List.pairwise_map.mpr (indexed.pairwise_id.filter _)

theorem mem_degreeEntries (indexed : g.Indexed) {id : VertexId} {degree : Nat} :
    (id, degree) ∈ g.degreeEntries ↔ g.IsSignal id ∧ degree = g.outDegree id := by
  simp only [degreeEntries, List.mem_map, List.mem_filter, Prod.mk.injEq]
  constructor
  · rintro ⟨v, ⟨held, signal⟩, rfl, rfl⟩
    exact ⟨⟨v, vertex_ok_iff.mpr (indexed.getElem?_id held), by simpa using signal⟩, rfl⟩
  · rintro ⟨⟨v, known, signal⟩, rfl⟩
    have same : v.id = id := indexed.numbered id v (vertex_ok_iff.mp known)
    exact ⟨v, ⟨mem_vertices_of_ok known, by simpa using signal⟩, same, by rw [same]⟩

theorem nodup_fanOutDegrees (indexed : g.Indexed) : (g.fanOutDegrees.map Prod.fst).Nodup := by
  have ids : (g.degreeEntries.map Prod.fst).Nodup :=
    List.pairwise_map.mpr (indexed.pairwise_degreeEntries.imp Nat.ne_of_lt)
  exact ((g.fanOutDegrees_perm.map Prod.fst).nodup_iff).mpr ids

theorem pairwise_fanOutDegrees (indexed : g.Indexed) : g.fanOutDegrees.Pairwise Outranks := by
  have sorted := List.pairwise_mergeSort notBelow_trans notBelow_total g.degreeEntries
  rw [← fanOutDegrees_eq] at sorted
  rw [List.pairwise_iff_forall_sublist] at sorted ⊢
  intro a b ordered
  have degrees : b.2 ≤ a.2 := of_decide_eq_true (sorted ordered)
  rcases Nat.lt_or_eq_of_le degrees with larger | same
  · exact .inl larger
  · have tied := ordered.filter fun entry => entry.2 == a.2
    have both : ([a, b].filter fun entry => entry.2 == a.2) = [a, b] := by simp [same]
    rw [filter_fanOutDegrees, both] at tied
    have numbers := indexed.pairwise_degreeEntries.filter fun entry => entry.2 == a.2
    exact .inr ⟨same.symm, List.pairwise_iff_forall_sublist.mp numbers tied⟩

theorem downward_fanOutDegrees (indexed : g.Indexed) (least : Nat) :
    g.fanOutDegrees.Pairwise fun a b =>
      decide (least ≤ b.2) = true → decide (least ≤ a.2) = true := by
  apply indexed.pairwise_fanOutDegrees.imp
  intro a b before passes
  rw [decide_eq_true_eq] at passes ⊢
  rcases before with larger | ⟨same, _⟩
  · exact Nat.le_trans passes (Nat.le_of_lt larger)
  · exact same ▸ passes

theorem fanOutDegreesAtLeast_eq (indexed : g.Indexed) (least : Nat) :
    g.fanOutDegreesAtLeast least = g.fanOutDegrees.takeWhile fun entry => least ≤ entry.2 :=
  filter_eq_takeWhile (indexed.downward_fanOutDegrees least)

/-- What a higher threshold leaves is cut off from what a lower one leaves. -/
theorem fanOutDegreesAtLeast_cut (indexed : g.Indexed) {less more : Nat} (higher : less ≤ more) :
    g.fanOutDegreesAtLeast more <+: g.fanOutDegreesAtLeast less := by
  have both : g.fanOutDegreesAtLeast more =
      (g.fanOutDegreesAtLeast less).filter fun entry => more ≤ entry.2 := by
    rw [fanOutDegreesAtLeast, fanOutDegreesAtLeast, List.filter_filter]
    apply List.filter_congr
    intro entry _
    rw [← Bool.decide_and, decide_eq_decide]
    exact ⟨fun passes => ⟨passes, Nat.le_trans higher passes⟩, And.left⟩
  rw [both, filter_eq_takeWhile]
  · exact List.takeWhile_prefix _
  · exact (indexed.downward_fanOutDegrees more).filter _

end Indexed

/-- Signals and pieces of logic share the edges among them. -/
theorem IsNetlist.sum_fanOutDegrees (netlist : g.IsNetlist) :
    (g.fanOutDegrees.map Prod.snd).sum +
      ((g.vertices.toList.filter fun v => v.kind.isLogic).map fun v => g.outDegree v.id).sum =
        g.edgeCount := by
  have entries : (g.fanOutDegrees.map Prod.snd).sum =
      ((g.vertices.toList.filter fun v => !v.kind.isLogic).map fun v => g.outDegree v.id).sum := by
    rw [(g.fanOutDegrees_perm.map Prod.snd).sum_eq, degreeEntries, List.map_map]
    rfl
  have parted := (List.filter_append_perm (fun v => v.kind.isLogic) g.vertices.toList).map
    fun v => g.outDegree v.id
  have all : (g.vertices.toList.map fun v => g.outDegree v.id) = g.vertexIds.map g.outDegree := by
    rw [← netlist.indexed.map_id, List.map_map]
    rfl
  rw [entries, Nat.add_comm, ← List.sum_append, ← List.map_append, parted.sum_eq, all,
    netlist.coherent.sum_outDegree]

/-- After any history, the ranking lists each signal once with the number of vertices it has an edge
to, in the order of `Outranks`; a threshold leaves the entries at its front that reach it; and with
the degrees of the pieces of logic, its degrees add up to the number of edges. -/
theorem fanOutDegrees_ranking (operations : List Operation) :
    let g := empty.performAll operations
    (g.fanOutDegrees.map Prod.fst).Nodup ∧
    (∀ id degree, (id, degree) ∈ g.fanOutDegrees ↔
      g.IsSignal id ∧ degree = (g.targets id).card) ∧
    g.fanOutDegrees.Pairwise Outranks ∧
    (∀ least, g.fanOutDegreesAtLeast least <+: g.fanOutDegrees ∧
      ∀ entry, entry ∈ g.fanOutDegreesAtLeast least ↔ entry ∈ g.fanOutDegrees ∧ least ≤ entry.2) ∧
    (∀ less more, less ≤ more → g.fanOutDegreesAtLeast more <+: g.fanOutDegreesAtLeast less) ∧
    (g.fanOutDegrees.map Prod.snd).sum +
      ((g.vertices.toList.filter fun v => v.kind.isLogic).map fun v => (g.targets v.id).card).sum =
        g.edgeCount := by
  intro g
  have netlist : g.IsNetlist := ⟨operations, rfl⟩
  have indexed := netlist.indexed
  have degree := netlist.coherent.outDegree_eq_card
  refine ⟨indexed.nodup_fanOutDegrees, ?_, indexed.pairwise_fanOutDegrees, ?_, ?_, ?_⟩
  · intro id count
    rw [g.fanOutDegrees_perm.mem_iff, indexed.mem_degreeEntries, degree]
  · intro least
    refine ⟨?_, fun entry => ?_⟩
    · rw [indexed.fanOutDegreesAtLeast_eq]
      exact List.takeWhile_prefix _
    · rw [fanOutDegreesAtLeast, List.mem_filter, decide_eq_true_eq]
  · intro less more higher
    exact indexed.fanOutDegreesAtLeast_cut higher
  · simp only [← degree]
    exact netlist.sum_fanOutDegrees

/-- Two wires of degree two around a piece of logic of degree one; one edge is given again and one
leads nowhere. -/
def tiedHistory : List Operation :=
  [.vertex ⟨.wire, .none, "a", "", false⟩, .vertex ⟨.logic, .none, "", "", false⟩,
    .vertex ⟨.wire, .none, "b", "", false⟩, .edge 0 1, .edge 2 1, .edge 1 2, .edge 0 1, .edge 2 0,
    .edge 0 2, .edge 0 3]

theorem fanOutDegrees_ranking_tied :
    2 ≤ 3 ∧ (empty.performAll tiedHistory).fanOutDegreesAtLeast 3 <+:
        (empty.performAll tiedHistory).fanOutDegreesAtLeast 2 ∧
      (2, 2) ∈ (empty.performAll tiedHistory).fanOutDegreesAtLeast 2 ∧
      (2, 2) ∉ (empty.performAll tiedHistory).fanOutDegreesAtLeast 3 ∧
      Outranks (0, 2) (2, 2) := by
  obtain ⟨_, entries, _, thresholds, cuts, _⟩ := fanOutDegrees_ranking tiedHistory
  have listed : (2, 2) ∈ (empty.performAll tiedHistory).fanOutDegrees :=
    (entries 2 2).mpr ⟨⟨_, rfl, rfl⟩, by decide⟩
  refine ⟨by decide, cuts 2 3 (by decide), ?_, ?_, .inr ⟨rfl, by decide⟩⟩
  · exact ((thresholds 2).2 (2, 2)).mpr ⟨listed, by decide⟩
  · intro member
    exact absurd (((thresholds 3).2 (2, 2)).mp member).2 (by decide)

end Graph

end SignalPaths
