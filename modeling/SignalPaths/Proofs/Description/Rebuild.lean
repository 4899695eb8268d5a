import SignalPaths.Proofs.Description.Build

/-!
Netlists that are described and built again. Only the membership in the top module is decided anew,
by the names; everything else is as it was, the order of the edges and the index of names included.
A netlist that was built under the same naming convention is built again as it is.
-/

namespace SignalPaths

open SignalPaths.Graph

variable {g : Graph} {naming : Convention} {d : Description} {infos : List VertexInfo}
  {links : List (VertexId × VertexId)}

def VertexInfo.underNaming (info : VertexInfo) (naming : Convention) : VertexInfo :=
  { info with isTop := naming.isTop info.name }

def Graph.underNaming (g : Graph) (naming : Convention) : Graph :=
  { g with vertices := g.vertices.map fun v => ⟨v.toVertexInfo.underNaming naming, v.id⟩ }

theorem Graph.underNaming_eq_ofParts (netlist : g.IsNetlist) (naming : Convention) :
    g.underNaming naming = ofParts (g.underNaming naming).vertices g.edges := by
  have count : (g.underNaming naming).vertices.size = g.vertexCount := Array.size_map
  have index : (g.underNaming naming).vertices.toList.foldl enterName ∅ = g.byName := by
    rw [netlist.byName_eq, Graph.underNaming, Array.toList_map, List.foldl_map]
    rfl
  rw [ofParts, count, index, ← netlist.coherent.outgoing.eq_adjacency,
    ← netlist.coherent.incoming.eq_adjacency]
  rfl

namespace Description

theorem ids_ofGraph (indexed : g.Indexed) : (ofGraph g).ids = g.vertexIds.map UInt64.ofNat := by
  rw [ids, ofGraph, ← indexed.map_id, List.map_map, List.map_map]
  rfl

theorem nodup_ids_ofGraph (indexed : g.Indexed) (small : g.vertexCount ≤ UInt64.size) :
    (ofGraph g).ids.Nodup := by
  rw [ids_ofGraph indexed]
  apply List.Nodup.map_on _ List.nodup_range
  intro a left b right same
  have inside (n : VertexId) (member : n ∈ g.vertexIds) : n < UInt64.size :=
    Nat.lt_of_lt_of_le (List.mem_range.mp member) small
  rw [← UInt64.toNat_ofNat_of_lt' (inside a left), same,
    UInt64.toNat_ofNat_of_lt' (inside b right)]

theorem getElem?_ids_ofGraph (indexed : g.Indexed) {id : VertexId} (inside : id < g.vertexCount) :
    (ofGraph g).ids[id]? = some (UInt64.ofNat id) := by
  rw [ids_ofGraph indexed, vertexIds, List.getElem?_map, List.getElem?_range inside]
  rfl

theorem builds_ofGraph (netlist : g.IsNetlist) (small : g.vertexCount ≤ UInt64.size)
    (naming : Convention) :
    (ofGraph g).Builds naming (g.vertices.toList.map fun v => v.toVertexInfo.underNaming naming)
      g.edges.toList where
  distinct := nodup_ids_ofGraph netlist.indexed small
  read := by
    apply List.forall₂_map_left_iff.mpr
    apply List.forall₂_map_right_iff.mpr
    apply List.forall₂_same.mpr
    intro v _
    simp only [vertexInfo, Kind.read_text, Direction.read_text]
    rfl
  linked := by
    apply List.forall₂_map_left_iff.mpr
    apply List.forall₂_same.mpr
    intro edge member
    obtain ⟨left, right⟩ := netlist.coherent.inside edge member
    exact ⟨getElem?_ids_ofGraph netlist.indexed left, getElem?_ids_ofGraph netlist.indexed right⟩

theorem assemble_underNaming (netlist : g.IsNetlist) (naming : Convention) :
    assemble (g.vertices.toList.map fun v => v.toVertexInfo.underNaming naming) g.edges.toList =
      g.underNaming naming := by
  generalize built : assemble _ _ = rebuilt
  have again : rebuilt.IsNetlist := built ▸ isNetlist_assemble _ _
  have records : rebuilt.Records _ := built ▸ records_assemble (by
    intro edge member
    rw [List.length_map]
    exact netlist.coherent.inside edge member)
  have edges : rebuilt.edges = g.edges := by
    rw [← Array.toList_inj, records.edges]
    exact eraseDups_of_nodup netlist.coherent.distinct
  have vertices : rebuilt.vertices = (g.underNaming naming).vertices := by
    apply vertices_eq_of_infos again.indexed.numbered
    · intro i v found
      rw [Graph.underNaming, Array.getElem?_map] at found
      obtain ⟨old, known, rfl⟩ := Option.map_eq_some_iff.mp found
      exact netlist.indexed.numbered i old known
    · rw [records.vertices, Graph.underNaming, Array.toList_map, List.map_map]
      rfl
  rw [again.eq_ofParts, vertices, edges, ← underNaming_eq_ofParts netlist]

theorem isTop_of_vertexInfo {record : VertexRecord} {info : VertexInfo}
    (read : vertexInfo naming record = .ok info) : info.underNaming naming = info := by
  obtain ⟨kind, _, rest⟩ := except_bind_ok read
  dsimp only at rest
  split at rest
  · obtain ⟨direction, _, same⟩ := except_bind_ok rest
    cases same
    rfl
  · cases rest
    rfl

theorem underNaming_of_build (ok : d.build naming = .ok g) : g.underNaming naming = g := by
  obtain ⟨infos, links, builds, rfl⟩ := build_ok_iff.mp ok
  have each : ∀ v ∈ (assemble infos links).vertices,
      v.toVertexInfo.underNaming naming = v.toVertexInfo := by
    intro v member
    have listed := List.mem_map_of_mem (f := Vertex.toVertexInfo) (Array.mem_toList_iff.mpr member)
    rw [builds.vertices] at listed
    obtain ⟨record, _, read⟩ := forall₂_mem_right builds.read listed
    exact isTop_of_vertexInfo read
  have kept : (assemble infos links).vertices.map
      (fun v => ⟨v.toVertexInfo.underNaming naming, v.id⟩) = (assemble infos links).vertices := by
    conv_rhs => rw [← Array.map_id (assemble infos links).vertices]
    apply Array.map_congr_left
    intro v member
    rw [each v member]
    rfl
  rw [Graph.underNaming, kept]

theorem vertexCount_of_build (ok : d.build naming = .ok g) : g.vertexCount ≤ UInt64.size := by
  obtain ⟨infos, links, builds, rfl⟩ := build_ok_iff.mp ok
  have distinct : (d.ids.map UInt64.toNat).Nodup :=
    builds.distinct.map fun _ _ => UInt64.toNat_inj.mp
  have bounded : d.ids.map UInt64.toNat ⊆ List.range UInt64.size := by
    intro n member
    obtain ⟨id, _, rfl⟩ := List.mem_map.mp member
    exact List.mem_range.mpr id.toNat_lt_size
  have count := (List.subperm_of_subset distinct bounded).length_le
  rw [List.length_map, List.length_range, ids, List.length_map, builds.read.length_eq,
    ← builds.vertices, List.length_map, Array.length_toList] at count
  exact count

theorem isNetlist_of_build (ok : d.build naming = .ok g) : g.IsNetlist := by
  obtain ⟨infos, links, _, rfl⟩ := build_ok_iff.mp ok
  exact isNetlist_assemble infos links

theorem build_ofGraph_eq (netlist : g.IsNetlist) (small : g.vertexCount ≤ UInt64.size)
    (naming : Convention) : (ofGraph g).build naming = .ok (g.underNaming naming) :=
  build_ok_iff.mpr ⟨_, _, builds_ofGraph netlist small naming,
    (assemble_underNaming netlist naming).symm⟩

theorem ofGraph_underNaming (g : Graph) (naming : Convention) :
    ofGraph (g.underNaming naming) = ofGraph g := by
  rw [ofGraph, Graph.underNaming, Array.toList_map, List.map_map]
  rfl

/-- A netlist is rebuilt from its description as it was, with the tops that the naming convention
gives; the bound is that of the numbers in a description, which have 64 bits. A netlist that this
convention gave its tops is rebuilt as it is. -/
theorem build_ofGraph (naming : Convention) :
    (∀ g : Graph, g.IsNetlist → g.vertexCount ≤ UInt64.size →
      ∃ rebuilt, (ofGraph g).build naming = .ok rebuilt ∧
        rebuilt.vertices = g.vertices.map
          (fun v => { v with isTop := naming.isTop v.name }) ∧
        rebuilt.edges = g.edges ∧
        (∀ id, rebuilt.successors id = g.successors id) ∧
        (∀ id, rebuilt.predecessors id = g.predecessors id) ∧
        (∀ name, rebuilt.named name = g.named name) ∧
        ofGraph rebuilt = ofGraph g) ∧
    ∀ (d : Description) (g : Graph), d.build naming = .ok g →
      (ofGraph g).build naming = .ok g := by
  constructor
  · intro g netlist small
    exact ⟨g.underNaming naming, build_ofGraph_eq netlist small naming, rfl, rfl, fun _ => rfl,
      fun _ => rfl, fun _ => rfl, ofGraph_underNaming g naming⟩
  · intro d g ok
    rw [build_ofGraph_eq (isNetlist_of_build ok) (vertexCount_of_build ok), underNaming_of_build ok]

/-- Two ports that are marked the wrong way round under the standard naming convention. -/
def mismarked : Graph :=
  Graph.empty.performAll [
    .vertex ⟨.port, .input, "TOP.m.a", "", false⟩, .edge 0 0, .vertex ⟨.port, .output, "b", "", true⟩,
    .edge 1 0, .edge 0 1]

theorem build_ofGraph_mismarked :
    mismarked.IsNetlist ∧ mismarked.vertexCount ≤ UInt64.size ∧
      ∃ rebuilt, (ofGraph mismarked).build Naming.standard = .ok rebuilt ∧
        rebuilt.vertices.toList.map (fun v => v.isTop) = [true, false] ∧
        rebuilt.edges = #[(0, 0), (1, 0), (0, 1)] ∧
        (ofGraph rebuilt).build Naming.standard = .ok rebuilt := by
  have netlist : mismarked.IsNetlist := ⟨_, rfl⟩
  have small : mismarked.vertexCount ≤ UInt64.size := by decide
  obtain ⟨rebuilt, built, vertices, edges, _⟩ :=
    (build_ofGraph Naming.standard).1 mismarked netlist small
  refine ⟨netlist, small, rebuilt, built, ?_, ?_, (build_ofGraph Naming.standard).2 _ _ built⟩
  · rw [vertices, Array.toList_map]
    decide
  · rw [edges]
    decide

end Description

end SignalPaths
