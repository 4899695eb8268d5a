import SignalPaths.Proofs.Fan

/-!
Fan-out and fan-in, point by point. A vertex has one path to each end point that it reaches, which
is the one that a search between the two finds, and one path from each start point that reaches it.
Both follow one relation, so a start point has a path to an end point in its fan-out exactly if the
end point has a path from it in its fan-in.
-/

namespace SignalPaths.Graph

variable {g : Graph} {view : View} {root id : VertexId} {accepts : Vertex → Bool}
  {selected : List Vertex} {paths : List Path} {point : VertexId → Prop}
  {fits : VertexId → Path → Prop}

def IsStartPoint (g : Graph) (id : VertexId) : Prop :=
  ∃ v, g.vertex id = .ok v ∧ v.isStartPoint = true

def IsEndPoint (g : Graph) (id : VertexId) : Prop :=
  ∃ v, g.vertex id = .ok v ∧ v.isEndPoint = true

theorem IsStartPoint.inside (enters : g.IsStartPoint id) : id < g.vertexCount := by
  obtain ⟨v, known, _⟩ := enters
  exact lt_of_vertex_ok known

theorem IsEndPoint.inside (leaves : g.IsEndPoint id) : id < g.vertexCount := by
  obtain ⟨v, known, _⟩ := leaves
  exact lt_of_vertex_ok known

/-- One path for each of some points and no other path, in the order of the points. -/
def OnePathEach (point : VertexId → Prop) (fits : VertexId → Path → Prop) (paths : List Path) :
    Prop :=
  ∃ ids : List VertexId, ids.Pairwise (· < ·) ∧ (∀ id, id ∈ ids ↔ point id) ∧
    List.Forall₂ fits ids paths

namespace OnePathEach

theorem congr {also : VertexId → Prop} (each : OnePathEach point fits paths)
    (same : ∀ id, point id ↔ also id) : OnePathEach also fits paths := by
  obtain ⟨ids, ordered, members, fit⟩ := each
  exact ⟨ids, ordered, fun id => (members id).trans (same id), fit⟩

theorem exists_path (each : OnePathEach point fits paths) (holds : point id) :
    ∃ path ∈ paths, fits id path := by
  obtain ⟨ids, _, members, fit⟩ := each
  exact forall₂_mem_left fit ((members id).mpr holds)

/-- Where paths show their points, there is a path for a point exactly if it is one of them. -/
theorem exists_marked_iff (each : OnePathEach point fits paths) {mark : Path → Option VertexId}
    (shown : ∀ id path, fits id path → mark path = some id) :
    (∃ path ∈ paths, mark path = some id) ↔ point id := by
  constructor
  · rintro ⟨path, member, marked⟩
    obtain ⟨ids, _, members, fit⟩ := each
    obtain ⟨other, listed, fitting⟩ := forall₂_mem_right fit member
    rw [shown other path fitting, Option.some_inj] at marked
    exact (members id).mp (marked ▸ listed)
  · intro holds
    obtain ⟨path, member, fitting⟩ := each.exists_path holds
    exact ⟨path, member, shown id path fitting⟩

end OnePathEach

theorem IsSelection.onePathEach (selection : g.IsSelection view root accepts selected)
    (indexed : g.Indexed) (each : List.Forall₂ (fun v path => fits v.id path) selected paths) :
    OnePathEach
      (fun id => (∃ v, g.vertex id = .ok v ∧ accepts v = true) ∧
        Relation.ReflTransGen view.Edge root id) fits paths := by
  refine ⟨selected.map Vertex.id, ?_, ?_, List.forall₂_map_left_iff.mpr each⟩
  · exact List.pairwise_map.mpr (indexed.pairwise_id.sublist selection.1)
  · intro id
    rw [List.mem_map]
    constructor
    · rintro ⟨v, chosen, rfl⟩
      have held := selection.1.mem chosen
      obtain ⟨reaches, accepted⟩ := (selection.2 v held).mp chosen
      exact ⟨⟨v, vertex_ok_iff.mpr (indexed.getElem?_id held), accepted⟩, reaches⟩
    · rintro ⟨⟨v, known, accepted⟩, reaches⟩
      rw [vertex_ok_iff] at known
      have held : v ∈ g.vertices.toList := Array.mem_toList_iff.mpr (Array.mem_of_getElem? known)
      obtain rfl := indexed.numbered id v known
      exact ⟨v, (selection.2 v held).mpr ⟨reaches, accepted⟩, rfl⟩

namespace Coherent

theorem backward_reaches_iff (coherent : g.Coherent) :
    Relation.ReflTransGen g.backward.Edge root id ↔ g.Reaches id root := by
  have turned : g.backward.Edge = Function.swap g.Edge := by
    funext u v
    exact propext coherent.backward_edge
  rw [turned]
  exact Relation.reflTransGen_swap

theorem fanOut_onePathEach (coherent : g.Coherent) (indexed : g.Indexed)
    (inside : root < g.vertexCount) :
    ∃ paths, (g.fanOut root).result = .ok paths ∧
      OnePathEach (fun stop => g.IsEndPoint stop ∧ g.Reaches root stop)
        (fun stop path => (g.anyPath ⟨root, [], stop⟩).result = .ok path ∧
          IsSimplePath g.Edge root stop path) paths := by
  obtain ⟨selected, paths, selection, answer, found⟩ := coherent.fanOut_direct indexed inside
  simp only [← anyPath_direct] at found
  refine ⟨paths, answer, (selection.onePathEach indexed found).congr fun stop => ?_⟩
  rw [coherent.forward_edge]
  rfl

theorem fanIn_onePathEach (coherent : g.Coherent) (indexed : g.Indexed)
    (inside : root < g.vertexCount) :
    ∃ paths, (g.fanIn root).result = .ok paths ∧
      OnePathEach (fun start => g.IsStartPoint start ∧ g.Reaches start root)
        (fun start path => IsSimplePath g.Edge start root path) paths := by
  obtain ⟨selected, paths, selection, answer, simple⟩ := coherent.fanIn_result indexed inside
  refine ⟨paths, answer, (selection.onePathEach indexed simple).congr fun start => ?_⟩
  rw [coherent.backward_reaches_iff]
  rfl

end Coherent

/-- Fan-out and fan-in never fail. They give one path for each point, in the order of the points; a
root that is such a point itself has the path of one vertex; and they mirror each other. -/
theorem fan_pointwise (netlist : g.IsNetlist) :
    (∀ root, root < g.vertexCount →
      (∃ paths, (g.fanOut root).result = .ok paths ∧
        OnePathEach (fun stop => g.IsEndPoint stop ∧ g.Reaches root stop)
          (fun stop path => (g.anyPath ⟨root, [], stop⟩).result = .ok path ∧
            IsSimplePath g.Edge root stop path) paths ∧
        (g.IsEndPoint root → [root] ∈ paths)) ∧
      ∃ paths, (g.fanIn root).result = .ok paths ∧
        OnePathEach (fun start => g.IsStartPoint start ∧ g.Reaches start root)
          (fun start path => IsSimplePath g.Edge start root path) paths ∧
        (g.IsStartPoint root → [root] ∈ paths)) ∧
    ∀ start stop, g.IsStartPoint start → g.IsEndPoint stop →
      ∃ out into, (g.fanOut start).result = .ok out ∧ (g.fanIn stop).result = .ok into ∧
        ((∃ path ∈ out, path.getLast? = some stop) ↔ ∃ path ∈ into, path.head? = some start) := by
  have coherent := netlist.coherent
  have indexed := netlist.indexed
  constructor
  · intro root inside
    obtain ⟨out, first, ends⟩ := coherent.fanOut_onePathEach indexed inside
    obtain ⟨into, second, starts⟩ := coherent.fanIn_onePathEach indexed inside
    refine ⟨⟨out, first, ends, fun itself => ?_⟩, into, second, starts, fun itself => ?_⟩
    · obtain ⟨path, member, _, simple⟩ := ends.exists_path ⟨itself, .refl⟩
      exact simple.eq_singleton ▸ member
    · obtain ⟨path, member, simple⟩ := starts.exists_path ⟨itself, .refl⟩
      exact simple.eq_singleton ▸ member
  · intro start stop enters leaves
    obtain ⟨out, first, ends⟩ := coherent.fanOut_onePathEach indexed enters.inside
    obtain ⟨into, second, starts⟩ := coherent.fanIn_onePathEach indexed leaves.inside
    refine ⟨out, into, first, second, ?_⟩
    rw [ends.exists_marked_iff fun _ _ both => both.2.last,
      starts.exists_marked_iff fun _ _ simple => simple.head]
    exact ⟨fun both => ⟨enters, both.2⟩, fun both => ⟨leaves, both.2⟩⟩

/-- A register that is fed back through logic, to which a top-level port is wired in both ways. -/
def feedback : Graph :=
  empty.performAll [
    .vertex ⟨.regSrc, .none, "m.q", "", false⟩, .vertex ⟨.logic, .none, "", "", false⟩,
    .vertex ⟨.regDst, .none, "m.q", "", false⟩, .vertex ⟨.port, .inOut, "m.io", "", true⟩,
    .edge 0 1, .edge 1 2, .edge 1 3, .edge 3 1]

theorem feedback.onward : feedback.Reaches 3 2 := .tail (.single (b := 1) (by decide)) (by decide)

theorem feedback.back : feedback.Reaches 0 3 := .tail (.single (b := 1) (by decide)) (by decide)

theorem fan_pointwise_feedback :
    feedback.IsNetlist ∧ 3 < feedback.vertexCount ∧
      (∃ out, (feedback.fanOut 3).result = .ok out ∧ [3] ∈ out ∧
        ∃ path ∈ out, (feedback.anyPath ⟨3, [], 2⟩).result = .ok path) ∧
      (∃ into, (feedback.fanIn 3).result = .ok into ∧ [3] ∈ into ∧
        ∃ path ∈ into, IsSimplePath feedback.Edge 0 3 path) ∧
      feedback.IsStartPoint 0 ∧ feedback.IsEndPoint 2 ∧
      ∃ out into, (feedback.fanOut 0).result = .ok out ∧ (feedback.fanIn 2).result = .ok into ∧
        ((∃ path ∈ out, path.getLast? = some 2) ↔ ∃ path ∈ into, path.head? = some 0) := by
  have netlist : feedback.IsNetlist := ⟨_, rfl⟩
  have inside : 3 < feedback.vertexCount := by decide
  have source : feedback.IsStartPoint 0 := ⟨_, rfl, by decide⟩
  have target : feedback.IsEndPoint 2 := ⟨_, rfl, by decide⟩
  have port : feedback.IsStartPoint 3 ∧ feedback.IsEndPoint 3 :=
    ⟨⟨_, rfl, by decide⟩, ⟨_, rfl, by decide⟩⟩
  obtain ⟨each, mirrored⟩ := fan_pointwise netlist
  obtain ⟨⟨out, first, ends, outSelf⟩, into, second, starts, inSelf⟩ := each 3 inside
  refine ⟨netlist, inside, ⟨out, first, outSelf port.2, ?_⟩, ⟨into, second, inSelf port.1, ?_⟩,
    source, target, mirrored 0 2 source target⟩
  · obtain ⟨path, member, found, _⟩ := ends.exists_path ⟨target, feedback.onward⟩
    exact ⟨path, member, found⟩
  · exact starts.exists_path ⟨source, feedback.back⟩

end SignalPaths.Graph
