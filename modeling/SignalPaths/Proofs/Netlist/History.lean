import Mathlib.Algebra.BigOperators.Ring.Finset
import Mathlib.Algebra.GroupWithZero.Nat
import Mathlib.Data.Prod.Basic
import SignalPaths.Proofs.Netlist

/-!
Netlists and the histories that lead to them. A ledger of a history keeps the vertices and the edges
that it brings in, in order; the netlist holds these and nothing else, and what can be asked of it
follows from them.
-/

namespace SignalPaths

structure Ledger where
  vertices : List VertexInfo := []
  edges : List (VertexId × VertexId) := []
  deriving DecidableEq, Repr

namespace Ledger

/-- An edge is entered if both its ends are there by then and it is not entered yet. -/
def enter (ledger : Ledger) : Operation → Ledger
  | .vertex info => { ledger with vertices := ledger.vertices ++ [info] }
  | .edge source target =>
    if source < ledger.vertices.length ∧ target < ledger.vertices.length ∧
        ledger.edges.contains (source, target) = false then
      { ledger with edges := ledger.edges ++ [(source, target)] }
    else
      ledger

def ofHistory (operations : List Operation) : Ledger := operations.foldl enter {}

end Ledger

namespace Graph

variable {g next : Graph} {source target id : VertexId} {name : String} {info : VertexInfo}

theorem addEdge_cases (g : Graph) (source target : VertexId) :
    (∃ error, (addEdge source target).run.run g = (.error error, g)) ∨
      (addEdge source target).run.run g = (.ok false, g) ∨
      (addEdge source target).run.run g = (.ok true, g.appendEdge source target) := by
  by_cases inside : source < g.vertexCount ∧ target < g.vertexCount
  · right
    rw [addEdge_inside inside.1 inside.2]
    cases g.hasEdge source target
    · exact .inr rfl
    · exact .inl rfl
  · exact .inl (addEdge_outside inside)

theorem Coherent.perform_edge (coherent : g.Coherent) (source target : VertexId) :
    g.perform (.edge source target) =
      if source < g.vertexCount ∧ target < g.vertexCount ∧
          g.edges.toList.contains (source, target) = false then
        g.appendEdge source target
      else g := by
  have known : g.hasEdge source target = g.edges.toList.contains (source, target) := by
    rw [Bool.eq_iff_iff, hasEdge, List.contains_iff_mem, List.contains_iff_mem]
    exact coherent.outgoing.mem_iff
  by_cases inside : source < g.vertexCount ∧ target < g.vertexCount
  · rw [Graph.perform, addEdge_inside inside.1 inside.2, known]
    cases g.edges.toList.contains (source, target) <;> simp [inside]
  · obtain ⟨error, answer⟩ := addEdge_outside inside
    rw [Graph.perform, answer, if_neg]
    rintro ⟨left, right, _⟩
    exact inside ⟨left, right⟩

/-- A graph holds what a ledger says. -/
structure Records (g : Graph) (ledger : Ledger) : Prop where
  vertices : g.vertices.toList.map Vertex.toVertexInfo = ledger.vertices
  edges : g.edges.toList = ledger.edges

namespace Records

variable {ledger : Ledger}

theorem vertexCount (records : g.Records ledger) : g.vertexCount = ledger.vertices.length := by
  rw [← records.vertices, List.length_map, Array.length_toList, Graph.vertexCount]

theorem perform (records : g.Records ledger) (coherent : g.Coherent) (operation : Operation) :
    (g.perform operation).Records (ledger.enter operation) := by
  cases operation with
  | vertex info =>
    constructor
    · simp [Graph.perform, addVertex, Ledger.enter, ← records.vertices]
    · exact records.edges
  | edge source target =>
    rw [coherent.perform_edge, Ledger.enter, ← records.vertexCount, ← records.edges]
    split
    · constructor
      · exact records.vertices
      · simp [appendEdge]
    · exact records

theorem performAll (records : g.Records ledger) (coherent : g.Coherent)
    (operations : List Operation) :
    (g.performAll operations).Records (operations.foldl Ledger.enter ledger) := by
  induction operations generalizing g ledger with
  | nil => exact records
  | cons operation rest ih =>
    exact ih (records.perform coherent operation) (coherent.perform operation)

end Records

theorem records_ofHistory (operations : List Operation) :
    (empty.performAll operations).Records (Ledger.ofHistory operations) :=
  Records.performAll ⟨rfl, rfl⟩ Coherent.empty operations

def name? (g : Graph) (id : VertexId) : Option String :=
  g.vertices[id]?.map fun v => v.name

/-- Vertices carry their own numbers, and the index lists the numbers of a name in order. -/
structure Indexed (g : Graph) : Prop where
  numbered : ∀ (i : Nat) (v : Vertex), g.vertices[i]? = some v → v.id = i
  named : ∀ name, name ≠ "" →
    g.named name = g.vertexIds.filter fun id => g.name? id == some name
  unnamed : g.named "" = []

theorem named_addVertex (g : Graph) (info : VertexInfo) (name : String) :
    (g.addVertex info).named name =
      if info.name = name ∧ name ≠ "" then g.named name ++ [g.vertexCount] else g.named name := by
  by_cases unnamed : info.name = ""
  · have other : ¬ (info.name = name ∧ name ≠ "") := fun bad => bad.2 (bad.1 ▸ unnamed)
    rw [if_neg other]
    simp [addVertex, named, unnamed]
  · by_cases same : info.name = name
    · subst same
      simp [addVertex, named, unnamed, Std.TreeMap.getD_eq_getD_getElem?]
    · simp [addVertex, named, unnamed, same, Std.TreeMap.getD_alter]

theorem name?_addVertex_of_lt (inside : id < g.vertexCount) :
    (g.addVertex info).name? id = g.name? id := by
  have old : id ≠ g.vertices.size := Nat.ne_of_lt inside
  simp [name?, addVertex, Array.getElem?_push, old]

theorem name?_addVertex_new (g : Graph) (info : VertexInfo) :
    (g.addVertex info).name? g.vertexCount = some info.name := by
  simp [name?, addVertex, vertexCount]

namespace Indexed

theorem empty : Graph.empty.Indexed where
  numbered i v known := by simp [Graph.empty] at known
  named name _ := by simp [Graph.empty, Graph.named, vertexIds, vertexCount]
  unnamed := by simp [Graph.empty, Graph.named]

theorem addVertex (indexed : g.Indexed) (info : VertexInfo) : (g.addVertex info).Indexed where
  numbered i v known := by
    by_cases new : i = g.vertices.size
    · subst new
      simp only [Graph.addVertex, Array.getElem?_push_size, Option.some_inj] at known
      rw [← known]
      rfl
    · apply indexed.numbered i v
      simpa [Graph.addVertex, Array.getElem?_push, new] using known
  named name nonempty := by
    have ids : (g.addVertex info).vertexIds = g.vertexIds ++ [g.vertexCount] := by
      simp [vertexIds, vertexCount, Graph.addVertex, List.range_succ]
    have old : (g.vertexIds.filter fun id => (g.addVertex info).name? id == some name) =
        g.named name := by
      rw [indexed.named name nonempty]
      apply List.filter_congr
      intro id member
      rw [name?_addVertex_of_lt (List.mem_range.mp member)]
    rw [ids, List.filter_append, old, named_addVertex]
    by_cases same : info.name = name
    · simp [same, nonempty, name?_addVertex_new]
    · simp [same, name?_addVertex_new]
  unnamed := by
    rw [named_addVertex, if_neg (fun bad => bad.2 rfl)]
    exact indexed.unnamed

theorem appendEdge (indexed : g.Indexed) (source target : VertexId) :
    (g.appendEdge source target).Indexed :=
  ⟨indexed.numbered, indexed.named, indexed.unnamed⟩

theorem perform (indexed : g.Indexed) (operation : Operation) : (g.perform operation).Indexed := by
  cases operation with
  | vertex info => exact indexed.addVertex info
  | edge source target =>
    rcases g.perform_edge_cases source target with same | ⟨_, _, _, added⟩
    · rw [same]
      exact indexed
    · rw [added]
      exact indexed.appendEdge source target

theorem performAll (indexed : g.Indexed) (operations : List Operation) :
    (g.performAll operations).Indexed := by
  induction operations generalizing g with
  | nil => exact indexed
  | cons operation rest ih => exact ih (indexed.perform operation)

theorem getElem?_id (indexed : g.Indexed) {v : Vertex} (member : v ∈ g.vertices.toList) :
    g.vertices[v.id]? = some v := by
  obtain ⟨i, known⟩ := Array.mem_iff_getElem?.mp (Array.mem_toList_iff.mp member)
  rw [indexed.numbered i v known]
  exact known

theorem id_lt (indexed : g.Indexed) {v : Vertex} (member : v ∈ g.vertices.toList) :
    v.id < g.vertexCount :=
  (Array.getElem?_eq_some_iff.mp (indexed.getElem?_id member)).1

theorem map_id (indexed : g.Indexed) : g.vertices.toList.map Vertex.id = g.vertexIds := by
  apply List.ext_getElem
  · simp [vertexIds, vertexCount]
  · intro i left right
    have inside : i < g.vertices.size := by simpa using left
    have known : g.vertices[i]? = some g.vertices[i] := Array.getElem?_eq_getElem inside
    simpa [vertexIds] using indexed.numbered i _ known

theorem pairwise_id (indexed : g.Indexed) : g.vertices.toList.Pairwise fun v w => v.id < w.id := by
  apply List.pairwise_map.mp
  rw [indexed.map_id]
  exact List.pairwise_lt_range

theorem mem_named (indexed : g.Indexed) (nonempty : name ≠ "") :
    id ∈ g.named name ↔ ∃ v, g.vertex id = .ok v ∧ v.name = name := by
  rw [indexed.named name nonempty, List.mem_filter, vertexIds, List.mem_range, vertexCount, name?,
    vertex]
  cases known : g.vertices[id]? with
  | none => simp
  | some v =>
    have inside : id < g.vertices.size := (Array.getElem?_eq_some_iff.mp known).1
    simp [inside]

theorem pairwise_named (indexed : g.Indexed) (name : String) : (g.named name).Pairwise (· < ·) := by
  by_cases unnamed : name = ""
  · rw [unnamed, indexed.unnamed]
    exact List.Pairwise.nil
  · rw [indexed.named name unnamed]
    exact List.pairwise_lt_range.filter _

end Indexed

theorem IsNetlist.indexed (netlist : g.IsNetlist) : g.Indexed := by
  obtain ⟨operations, rfl⟩ := netlist
  exact Indexed.empty.performAll operations

/-- Each edge is listed once, at its one end. -/
theorem Lists.sum_countP {adjacency : Array (List VertexId)} {count : Nat}
    {edges : List (VertexId × VertexId)} (lists : Lists adjacency count edges)
    (inside : ∀ edge ∈ edges, edge.1 < count) (property : VertexId → VertexId → Bool) :
    ∑ u ∈ Finset.range count, (adjacency.getD u []).countP (property u) =
      edges.countP fun edge => property edge.1 edge.2 := by
  have each (u : VertexId) : (adjacency.getD u []).countP (property u) =
      edges.countP fun edge => property edge.1 edge.2 && edge.1 == u := by
    rw [lists.ends u, List.countP_reverse, List.countP_map, List.countP_filter]
    apply List.countP_congr
    intro edge _
    simp only [Function.comp_apply, Bool.and_eq_true, beq_iff_eq]
    constructor
    · rintro ⟨holds, rfl⟩
      exact ⟨holds, rfl⟩
    · rintro ⟨holds, rfl⟩
      exact ⟨holds, rfl⟩
  simp only [each]
  clear lists each
  induction edges with
  | nil => simp
  | cons edge rest ih =>
    have bound : edge.1 < count := inside edge List.mem_cons_self
    have others := ih fun other member => inside other (List.mem_cons_of_mem _ member)
    simp only [List.countP_cons, Finset.sum_add_distrib, others]
    cases property edge.1 edge.2 with
    | true => simp [bound]
    | false => simp

theorem Lists.sum_length {adjacency : Array (List VertexId)} {count : Nat}
    {edges : List (VertexId × VertexId)} (lists : Lists adjacency count edges)
    (inside : ∀ edge ∈ edges, edge.1 < count) :
    ((List.range count).map fun u => (adjacency.getD u []).length).sum = edges.length := by
  have total := lists.sum_countP inside fun _ _ => true
  simp only [List.countP_true] at total
  exact total

namespace Coherent

theorem predecessors_eq (coherent : g.Coherent) (v : VertexId) :
    g.predecessors v = ((g.edges.toList.filter fun edge => edge.2 == v).map Prod.fst).reverse := by
  have ends := coherent.incoming.ends v
  rw [List.filter_map, List.map_map] at ends
  exact ends

theorem nodup_predecessors (coherent : g.Coherent) (v : VertexId) : (g.predecessors v).Nodup :=
  coherent.incoming.nodup (coherent.distinct.map Prod.swap_injective) v

theorem sum_outDegree (coherent : g.Coherent) : (g.vertexIds.map g.outDegree).sum = g.edgeCount :=
  coherent.outgoing.sum_length fun edge member => (coherent.inside edge member).1

theorem sum_inDegree (coherent : g.Coherent) : (g.vertexIds.map g.inDegree).sum = g.edgeCount := by
  have total := coherent.incoming.sum_length (by
    intro edge member
    obtain ⟨original, inside, rfl⟩ := List.mem_map.mp member
    exact (coherent.inside original inside).2)
  rw [List.length_map] at total
  exact total

end Coherent

/-- What the answers of a graph have to do with a ledger of how it came about. -/
structure Faithful (g : Graph) (ledger : Ledger) : Prop where
  vertices : g.vertices.toList.map Vertex.toVertexInfo = ledger.vertices
  numbered : ∀ i, i < g.vertexCount → ∃ v, g.vertex i = .ok v ∧ v.id = i
  edges : g.edges.toList = ledger.edges
  distinct : g.edges.toList.Nodup
  inside : ∀ edge ∈ g.edges.toList, edge.1 < g.vertexCount ∧ edge.2 < g.vertexCount
  successors : ∀ u, g.successors u =
    ((g.edges.toList.filter fun edge => edge.1 == u).map Prod.snd).reverse
  successorsOnce : ∀ u, (g.successors u).Nodup
  predecessors : ∀ v, g.predecessors v =
    ((g.edges.toList.filter fun edge => edge.2 == v).map Prod.fst).reverse
  predecessorsOnce : ∀ v, (g.predecessors v).Nodup
  outDegrees : (g.vertexIds.map g.outDegree).sum = g.edgeCount
  inDegrees : (g.vertexIds.map g.inDegree).sum = g.edgeCount
  named : ∀ name, name ≠ "" → (g.named name).Pairwise (· < ·) ∧
    ∀ id, id ∈ g.named name ↔ ∃ v, g.vertex id = .ok v ∧ v.name = name
  unnamed : g.named "" = []

theorem Records.faithful {ledger : Ledger} (records : g.Records ledger) (coherent : g.Coherent)
    (indexed : g.Indexed) : g.Faithful ledger where
  vertices := records.vertices
  numbered i inside := by
    obtain ⟨v, known⟩ := exists_vertex inside
    exact ⟨v, known, indexed.numbered i v (vertex_ok_iff.mp known)⟩
  edges := records.edges
  distinct := coherent.distinct
  inside := coherent.inside
  successors := coherent.successors_eq
  successorsOnce := coherent.nodup_successors
  predecessors := coherent.predecessors_eq
  predecessorsOnce := coherent.nodup_predecessors
  outDegrees := coherent.sum_outDegree
  inDegrees := coherent.sum_inDegree
  named name nonempty := ⟨indexed.pairwise_named name, fun _ => indexed.mem_named nonempty⟩
  unnamed := indexed.unnamed

/-- Only an answer that says so comes with another graph. -/
theorem eq_of_addEdge {answer : Except RangeError Bool}
    (run : (addEdge source target).run.run g = (answer, next)) :
    next = if answer.toOption = some true then g.appendEdge source target else g := by
  rcases g.addEdge_cases source target with ⟨_, known⟩ | known | known <;> rw [known] at run <;>
    cases run <;> rfl

/-- After any history, all parts of the netlist agree with what the history brought in. A further
operation adds at the end, and a rejected or repeated edge changes nothing at all. -/
theorem performAll_faithful (operations : List Operation) :
    let g := empty.performAll operations
    g.Faithful (Ledger.ofHistory operations) ∧
      (∀ source target error next, (addEdge source target).run.run g = (.error error, next) →
        next = g ∧ g.perform (.edge source target) = g) ∧
      (∀ source target next, (addEdge source target).run.run g = (.ok false, next) → next = g) ∧
      (∀ source target next, (addEdge source target).run.run g = (.ok true, next) →
        next.vertices = g.vertices ∧ next.edges = g.edges.push (source, target)) ∧
      ∀ info, (g.addVertex info).vertices = g.vertices.push { info with id := g.vertexCount } ∧
        (g.addVertex info).edges = g.edges := by
  intro g
  have records : g.Records (Ledger.ofHistory operations) :=
    Records.performAll ⟨rfl, rfl⟩ Coherent.empty operations
  have coherent : g.Coherent := Coherent.empty.performAll operations
  have indexed : g.Indexed := Indexed.empty.performAll operations
  refine ⟨records.faithful coherent indexed, ?_, ?_, ?_, ?_⟩
  · intro source target error next answer
    have unchanged : next = g := eq_of_addEdge answer
    exact ⟨unchanged, (congrArg Prod.snd answer).trans unchanged⟩
  · intro source target next answer
    exact eq_of_addEdge answer
  · intro source target next answer
    have added : next = g.appendEdge source target := eq_of_addEdge answer
    rw [added]
    exact ⟨rfl, rfl⟩
  · intro info
    exact ⟨rfl, rfl⟩

end Graph

end SignalPaths
