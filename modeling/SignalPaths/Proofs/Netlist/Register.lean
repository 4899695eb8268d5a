import SignalPaths.Loader
import SignalPaths.Proofs.Computation
import SignalPaths.Proofs.Netlist.Degree

/-!
The check of registers. It goes from vertex to vertex, but its warnings account for edges: an edge
is at fault at its target if that is the output side of a register, and at its source if that is an
input side. The degrees in the warnings count these faults, two for an edge that has both.
-/

namespace SignalPaths

/-- The number of edges that a warning tells of. -/
def RegisterWarning.degree : RegisterWarning → Nat
  | sourceDriven _ _ inDegree => inDegree
  | destinationDrives _ _ outDegree => outDegree

namespace Graph

variable {g : Graph} {v : Vertex} {warning : RegisterWarning}

/-- The warnings that a graph gives reason for. -/
inductive Warrants (g : Graph) : RegisterWarning → Prop where
  | sourceDriven {v : Vertex} (known : g.vertex v.id = .ok v) (kind : v.kind = .regSrc)
      (driven : ∃ u, g.Edge u v.id) :
      g.Warrants (.sourceDriven v.id v.name (g.sources v.id).card)
  | destinationDrives {v : Vertex} (known : g.vertex v.id = .ok v) (kind : v.kind = .regDst)
      (drives : ∃ w, g.Edge v.id w) :
      g.Warrants (.destinationDrives v.id v.name (g.targets v.id).card)

theorem registerWarning?_eq_some_iff : g.registerWarning? v = some warning ↔
    (v.kind = .regSrc ∧ 0 < g.inDegree v.id ∧
      .sourceDriven v.id v.name (g.inDegree v.id) = warning) ∨
    (v.kind = .regDst ∧ 0 < g.outDegree v.id ∧
      .destinationDrives v.id v.name (g.outDegree v.id) = warning) := by
  unfold registerWarning?
  split
  · next kind => simp [kind]
  · next kind => simp [kind]
  · next source destination =>
    constructor
    · intro none
      cases none
    · rintro (⟨kind, _⟩ | ⟨kind, _⟩)
      · exact (source kind).elim
      · exact (destination kind).elim

theorem vertex_of_registerWarning? (warned : g.registerWarning? v = some warning) :
    warning.vertex = v.id := by
  rcases registerWarning?_eq_some_iff.mp warned with ⟨_, _, rfl⟩ | ⟨_, _, rfl⟩
  · rfl
  · rfl

/-- A vertex adds its in-degree as an output side of a register and its out-degree as an input side;
where the degree is zero, no warning is missed. -/
theorem degree_registerWarning? (g : Graph) (v : Vertex) :
    ((g.registerWarning? v).map RegisterWarning.degree).getD 0 =
      (if v.kind == .regSrc then g.inDegree v.id else 0) +
        if v.kind == .regDst then g.outDegree v.id else 0 := by
  unfold registerWarning?
  split
  · next kind =>
    rw [kind]
    split
    · rfl
    · next zero => exact (Nat.eq_zero_of_not_pos zero).symm
  · next kind =>
    rw [kind]
    split
    · exact (Nat.zero_add _).symm
    · next zero => exact ((Nat.zero_add _).trans (Nat.eq_zero_of_not_pos zero)).symm
  · next source destination =>
    rw [if_neg fun kind => source (eq_of_beq kind), if_neg fun kind => destination (eq_of_beq kind)]
    rfl

theorem sum_degree_filterMap (warn : Vertex → Option RegisterWarning) (vertices : List Vertex) :
    ((vertices.filterMap warn).map RegisterWarning.degree).sum =
      (vertices.map fun v => ((warn v).map RegisterWarning.degree).getD 0).sum := by
  induction vertices with
  | nil => rfl
  | cons v vertices ih =>
    cases known : warn v with
    | none => simp [known, ih]
    | some warning => simp [known, ih]

namespace Coherent

theorem inDegree_pos_iff (coherent : g.Coherent) {id : VertexId} :
    0 < g.inDegree id ↔ ∃ u, g.Edge u id := by
  rw [inDegree, List.length_pos_iff_exists_mem]
  simp only [coherent.mem_predecessors]

theorem outDegree_pos_iff (coherent : g.Coherent) {id : VertexId} :
    0 < g.outDegree id ↔ ∃ w, g.Edge id w := by
  rw [outDegree, List.length_pos_iff_exists_mem]
  simp only [coherent.mem_successors]

end Coherent

namespace IsNetlist

theorem mem_registerWarnings (netlist : g.IsNetlist) :
    warning ∈ g.registerWarnings ↔ g.Warrants warning := by
  have coherent := netlist.coherent
  rw [registerWarnings, List.mem_filterMap]
  simp only [registerWarning?_eq_some_iff, coherent.inDegree_pos_iff, coherent.outDegree_pos_iff]
  simp only [coherent.inDegree_eq_card, coherent.outDegree_eq_card]
  constructor
  · rintro ⟨v, held, ⟨kind, driven, rfl⟩ | ⟨kind, drives, rfl⟩⟩
    · exact .sourceDriven (vertex_ok_iff.mpr (netlist.indexed.getElem?_id held)) kind driven
    · exact .destinationDrives (vertex_ok_iff.mpr (netlist.indexed.getElem?_id held)) kind drives
  · rintro (@⟨v, known, kind, driven⟩ | @⟨v, known, kind, drives⟩)
    · exact ⟨v, mem_vertices_of_ok known, .inl ⟨kind, driven, rfl⟩⟩
    · exact ⟨v, mem_vertices_of_ok known, .inr ⟨kind, drives, rfl⟩⟩

theorem pairwise_registerWarnings (netlist : g.IsNetlist) :
    g.registerWarnings.Pairwise fun a b => a.vertex < b.vertex := by
  apply List.pairwise_filterMap.mpr
  apply netlist.indexed.pairwise_id.imp
  intro v w before a first b second
  rw [vertex_of_registerWarning? first, vertex_of_registerWarning? second]
  exact before

theorem registerWarnings_eq_nil_iff (netlist : g.IsNetlist) :
    g.registerWarnings = [] ↔
      ∀ u v, g.Edge u v → g.kind? v ≠ some .regSrc ∧ g.kind? u ≠ some .regDst := by
  rw [List.eq_nil_iff_forall_not_mem]
  simp only [netlist.mem_registerWarnings]
  constructor
  · intro none u v edge
    constructor
    · intro kind
      obtain ⟨target, known, side⟩ := kind?_eq_some_iff.mp kind
      obtain rfl : target.id = v := netlist.indexed.numbered v target (vertex_ok_iff.mp known)
      exact none _ (.sourceDriven known side ⟨u, edge⟩)
    · intro kind
      obtain ⟨source, known, side⟩ := kind?_eq_some_iff.mp kind
      obtain rfl : source.id = u := netlist.indexed.numbered u source (vertex_ok_iff.mp known)
      exact none _ (.destinationDrives known side ⟨v, edge⟩)
  · rintro fine _ (@⟨v, known, kind, u, edge⟩ | @⟨v, known, kind, w, edge⟩)
    · exact (fine u v.id edge).1 (kind?_eq_some_iff.mpr ⟨v, known, kind⟩)
    · exact (fine v.id w edge).2 (kind?_eq_some_iff.mpr ⟨v, known, kind⟩)

theorem sum_over_vertices (netlist : g.IsNetlist) (kind : Kind) (degree : VertexId → Nat) :
    (g.vertices.toList.map fun v => if v.kind == kind then degree v.id else 0).sum =
      (g.vertexIds.map fun id => if g.kind? id == some kind then degree id else 0).sum := by
  rw [← netlist.indexed.map_id, List.map_map]
  congr 1
  apply List.map_congr_left
  intro v held
  have known : g.kind? v.id = some v.kind := by
    rw [kind?, netlist.indexed.getElem?_id held, Option.map_some]
  rw [Function.comp_apply, known]
  rfl

theorem sum_registerWarnings (netlist : g.IsNetlist) :
    (g.registerWarnings.map RegisterWarning.degree).sum =
      (g.edgeSet.filter fun edge => g.kind? edge.2 = some .regSrc).card +
        (g.edgeSet.filter fun edge => g.kind? edge.1 = some .regDst).card := by
  have coherent := netlist.coherent
  rw [registerWarnings, sum_degree_filterMap]
  simp only [degree_registerWarning?]
  rw [List.sum_map_add, netlist.sum_over_vertices, netlist.sum_over_vertices,
    coherent.sum_inDegree_where, coherent.sum_outDegree_where]
  simp only [beq_iff_eq]

end IsNetlist

/-- After any history, the check gives one warning for each output side of a register that something
drives and each input side that drives something, in order and with the number of the vertices at
the other ends; it tells of each as an event. Together the warnings count the edges into the former
and the edges out of the latter, and there is none exactly if no edge is of either kind. -/
theorem checkRegisters_exact {ε : Type} (operations : List Operation) :
    let g := empty.performAll operations
    ∃ warnings, (g.checkRegisters : Traced ε (List RegisterWarning)) =
        ⟨.ok warnings, warnings.map .registerWarning⟩ ∧
      (warnings.Pairwise fun a b => a.vertex < b.vertex) ∧
      (∀ warning, warning ∈ warnings ↔ g.Warrants warning) ∧
      (warnings.map RegisterWarning.degree).sum =
        (g.edgeSet.filter fun edge => g.kind? edge.2 = some .regSrc).card +
          (g.edgeSet.filter fun edge => g.kind? edge.1 = some .regDst).card ∧
      (warnings = [] ↔
        ∀ u v, g.Edge u v → g.kind? v ≠ some .regSrc ∧ g.kind? u ≠ some .regDst) := by
  intro g
  have netlist : g.IsNetlist := ⟨operations, rfl⟩
  refine ⟨g.registerWarnings, ?_, netlist.pairwise_registerWarnings,
    fun _ => netlist.mem_registerWarnings, netlist.sum_registerWarnings,
    netlist.registerWarnings_eq_nil_iff⟩
  rw [checkRegisters, Traced.bind_of_ok (Traced.result_tellAll _)]
  exact congrArg _ (List.append_nil _)

/-- The edge between the two registers is at fault at both of its ends. -/
example : (empty.performAll [.vertex ⟨.regDst, .none, "a", "", false⟩,
    .vertex ⟨.regSrc, .none, "b", "", false⟩, .edge 0 1, .edge 0 0, .edge 0 1]).registerWarnings =
    [.destinationDrives 0 "a" 2, .sourceDriven 1 "b" 1] := by
  decide

end Graph

end SignalPaths
