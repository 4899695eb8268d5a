import SignalPaths.Description
import SignalPaths.Proofs.Computation
import SignalPaths.Proofs.Netlist.Parts

/-!
What a description builds. It builds something exactly if its ids are distinct, its words can be
read and its edges run between ids that it has; then the netlist is put together from what the
records say, with each edge between the places of its two ids.
-/

namespace SignalPaths.Description

open SignalPaths.Graph

variable {naming : Convention} {d : Description} {g h : Graph} {state : Graph × Numbering}
  {numbers : Numbering} {listed : List UInt64} {id : UInt64} {record : VertexRecord}
  {records : List VertexRecord} {infos : List VertexInfo} {edge : EdgeRecord}
  {edges : List EdgeRecord} {links : List (VertexId × VertexId)}

def ids (d : Description) : List UInt64 := d.vertices.map VertexRecord.id

/-- The ends of an edge, by the places of their ids. -/
def Links (listed : List UInt64) (edge : EdgeRecord) (link : VertexId × VertexId) : Prop :=
  listed[link.1]? = some edge.source ∧ listed[link.2]? = some edge.target

/-- The ends of an edge, as the places where their ids stand first. -/
def place (d : Description) (edge : EdgeRecord) : VertexId × VertexId :=
  (d.ids.idxOf edge.source, d.ids.idxOf edge.target)

theorem Links.eq_place {link : VertexId × VertexId} (linked : Links d.ids edge link)
    (distinct : d.ids.Nodup) : link = d.place edge := by
  have found {n : VertexId} {id : UInt64} (known : d.ids[n]? = some id) : n = d.ids.idxOf id := by
    obtain ⟨inside, rfl⟩ := List.getElem?_eq_some_iff.mp known
    exact (distinct.idxOf_getElem n inside).symm
  exact Prod.ext (found linked.1) (found linked.2)

structure Builds (d : Description) (naming : Convention) (infos : List VertexInfo)
    (links : List (VertexId × VertexId)) : Prop where
  distinct : d.ids.Nodup
  read : List.Forall₂ (fun record info => vertexInfo naming record = .ok info) d.vertices infos
  linked : List.Forall₂ (Links d.ids) d.edges links

theorem Builds.inside (builds : d.Builds naming infos links) :
    ∀ link ∈ links, link.1 < infos.length ∧ link.2 < infos.length := by
  intro link member
  obtain ⟨edge, _, left, right⟩ := forall₂_mem_right builds.linked member
  have count : d.ids.length = infos.length := by
    rw [ids, List.length_map, builds.read.length_eq]
  rw [← count]
  exact ⟨(List.getElem?_eq_some_iff.mp left).1, (List.getElem?_eq_some_iff.mp right).1⟩

theorem Builds.vertices (builds : d.Builds naming infos links) :
    (assemble infos links).vertices.toList.map Vertex.toVertexInfo = infos :=
  (records_assemble builds.inside).vertices

theorem Builds.edges_eq (builds : d.Builds naming infos links) :
    (assemble infos links).edges.toList = links.eraseDups :=
  (records_assemble builds.inside).edges

/-- A numbering that finds each id at its place. -/
def Places (listed : List UInt64) (numbers : Numbering) : Prop :=
  ∀ (id : UInt64) (n : VertexId), numbers[id]? = some n ↔ listed[n]? = some id

namespace Places

theorem contains_iff (places : Places listed numbers) :
    numbers.contains id = true ↔ id ∈ listed := by
  rw [Std.TreeMap.contains_iff_mem, Std.TreeMap.mem_iff_isSome_getElem?, Option.isSome_iff_exists,
    List.mem_iff_getElem?]
  exact exists_congr (places id)

theorem getElem?_concat_iff {α : Type} {items : List α} {last item : α} {n : Nat} :
    (items ++ [last])[n]? = some item ↔
      items[n]? = some item ∨ items.length = n ∧ last = item := by
  grind

theorem insert (places : Places listed numbers) (fresh : id ∉ listed) :
    Places (listed ++ [id]) (numbers.insert id listed.length) := by
  intro other n
  rw [Std.TreeMap.getElem?_insert, getElem?_concat_iff, ← places]
  by_cases same : id = other
  · subst same
    have absent : numbers[id]? ≠ some n := by
      rw [Ne, places]
      exact fun found => fresh (List.mem_of_getElem? found)
    simp [absent]
  · simp [same]

theorem numberOf_ok_iff (places : Places listed numbers) {n : VertexId} :
    numberOf numbers id = .ok n ↔ listed[n]? = some id := by
  rw [← places, numberOf]
  cases numbers[id]? with
  | none => simp
  | some m => simp

end Places

theorem addRecord_known (places : Places listed numbers) (known : record.id ∈ listed) :
    addRecord naming (g, numbers) record = .error (.duplicateVertex record.id) := by
  simp [addRecord, places.contains_iff.mpr known]
  rfl

theorem addRecord_fresh (places : Places listed numbers) (fresh : record.id ∉ listed) :
    addRecord naming (g, numbers) record = (vertexInfo naming record).map fun info =>
      (g.addVertex info, numbers.insert record.id g.vertexCount) := by
  have unknown : numbers.contains record.id = false := by
    rw [← Bool.not_eq_true, places.contains_iff]
    exact fresh
  simp only [addRecord, unknown]
  cases vertexInfo naming record <;> rfl

/-- What is there after some records. -/
structure Placed (naming : Convention) (records : List VertexRecord) (infos : List VertexInfo)
    (g : Graph) (numbers : Numbering) : Prop where
  distinct : (records.map VertexRecord.id).Nodup
  read : List.Forall₂ (fun record info => vertexInfo naming record = .ok info) records infos
  graph : g = assemble infos []
  places : Places (records.map VertexRecord.id) numbers

theorem vertexCount_assemble (infos : List VertexInfo) :
    (assemble infos []).vertexCount = infos.length := by
  have records : (assemble infos []).Records ⟨infos, _⟩ := records_assemble (by simp)
  exact records.vertexCount

theorem placed_nil (naming : Convention) : Placed naming [] [] Graph.empty ∅ where
  distinct := List.nodup_nil
  read := .nil
  graph := rfl
  places id n := by simp

namespace Placed

theorem vertexCount (placed : Placed naming records infos g numbers) :
    g.vertexCount = (records.map VertexRecord.id).length := by
  rw [placed.graph, vertexCount_assemble, List.length_map, placed.read.length_eq]

theorem addRecord (placed : Placed naming records infos g numbers)
    (fresh : record.id ∉ records.map VertexRecord.id) {info : VertexInfo}
    (read : vertexInfo naming record = .ok info) :
    Description.addRecord naming (g, numbers) record =
        .ok (g.addVertex info, numbers.insert record.id g.vertexCount) ∧
      Placed naming (records ++ [record]) (infos ++ [info]) (g.addVertex info)
        (numbers.insert record.id g.vertexCount) := by
  refine ⟨?_, ?_, ?_, ?_, ?_⟩
  · rw [addRecord_fresh placed.places fresh, read]
    rfl
  · rw [List.map_append, List.map_singleton, ← List.concat_eq_append]
    exact placed.distinct.concat fresh
  · exact List.rel_append placed.read (.cons read .nil)
  · rw [assemble_concat_vertex, ← placed.graph]
  · rw [List.map_append, List.map_singleton, placed.vertexCount]
    exact placed.places.insert fresh

theorem foldlM_ok (placed : Placed naming records infos g numbers)
    {others : List VertexRecord} {more : List VertexInfo}
    (distinct : ((records ++ others).map VertexRecord.id).Nodup)
    (read : List.Forall₂ (fun record info => vertexInfo naming record = .ok info) others more) :
    ∃ next, others.foldlM (Description.addRecord naming) (g, numbers) = .ok next ∧
      Placed naming (records ++ others) (infos ++ more) next.1 next.2 := by
  induction read generalizing records infos g numbers with
  | nil =>
    rw [List.append_nil, List.append_nil]
    exact ⟨(g, numbers), rfl, placed⟩
  | @cons record info others more first _ ih =>
    have fresh : record.id ∉ records.map VertexRecord.id := by
      rw [List.map_append, List.nodup_append] at distinct
      intro known
      exact distinct.2.2 _ known _ List.mem_cons_self rfl
    obtain ⟨added, placed⟩ := placed.addRecord fresh first
    rw [List.append_cons] at distinct ⊢
    rw [List.append_cons infos, List.foldlM_cons, added]
    exact ih placed distinct

theorem of_foldlM_ok (placed : Placed naming records infos g numbers)
    {others : List VertexRecord} {next : Graph × Numbering}
    (ok : others.foldlM (Description.addRecord naming) (g, numbers) = .ok next) :
    ∃ more, Placed naming (records ++ others) (infos ++ more) next.1 next.2 := by
  induction others generalizing records infos g numbers with
  | nil =>
    cases ok
    refine ⟨[], ?_⟩
    rw [List.append_nil, List.append_nil]
    exact placed
  | cons record others ih =>
    rw [List.foldlM_cons] at ok
    obtain ⟨middle, added, ok⟩ := except_bind_ok ok
    by_cases known : record.id ∈ records.map VertexRecord.id
    · rw [addRecord_known placed.places known] at added
      cases added
    · cases read : vertexInfo naming record with
      | error error =>
        rw [addRecord_fresh placed.places known, read] at added
        cases added
      | ok info =>
        obtain ⟨again, placed⟩ := placed.addRecord known read
        rw [again] at added
        cases added
        obtain ⟨more, placed⟩ := ih placed ok
        refine ⟨info :: more, ?_⟩
        rw [List.append_cons, List.append_cons infos]
        exact placed

end Placed

theorem addEdgeRecord_ok_iff (places : Places listed numbers)
    (count : g.vertexCount = listed.length) :
    addEdgeRecord numbers g edge = .ok h ↔
      ∃ link, Links listed edge link ∧ h = g.perform (.edge link.1 link.2) := by
  have performed {source target : VertexId} (left : listed[source]? = some edge.source)
      (right : listed[target]? = some edge.target) :
      addEdgeRecord numbers g edge = .ok (g.perform (.edge source target)) := by
    have inside : source < g.vertexCount ∧ target < g.vertexCount := by
      rw [count]
      exact ⟨(List.getElem?_eq_some_iff.mp left).1, (List.getElem?_eq_some_iff.mp right).1⟩
    rw [addEdgeRecord, places.numberOf_ok_iff.mpr left, places.numberOf_ok_iff.mpr right,
      Traced.ok_bind, Traced.ok_bind, perform, addEdge_inside inside.1 inside.2]
    cases g.hasEdge source target <;> rfl
  constructor
  · intro ok
    obtain ⟨source, left, rest⟩ := except_bind_ok ok
    obtain ⟨target, right, _⟩ := except_bind_ok rest
    rw [places.numberOf_ok_iff] at left right
    rw [performed left right] at ok
    exact ⟨(source, target), ⟨left, right⟩, (Except.ok.inj ok).symm⟩
  · intro found
    obtain ⟨link, ⟨left, right⟩, same⟩ := found
    rw [same]
    exact performed left right

theorem vertexCount_perform_edge (g : Graph) (source target : VertexId) :
    (g.perform (.edge source target)).vertexCount = g.vertexCount := by
  rcases g.perform_edge_cases source target with same | ⟨_, _, _, added⟩
  · rw [same]
  · rw [added]
    rfl

theorem foldlM_addEdgeRecord_ok_iff (places : Places listed numbers)
    (count : g.vertexCount = listed.length) :
    edges.foldlM (addEdgeRecord numbers) g = .ok h ↔
      ∃ links, List.Forall₂ (Links listed) edges links ∧
        h = g.performAll (links.map fun link => .edge link.1 link.2) := by
  induction edges generalizing g with
  | nil =>
    constructor
    · intro ok
      cases ok
      exact ⟨[], .nil, rfl⟩
    · intro found
      obtain ⟨links, linked, same⟩ := found
      cases linked
      rw [same]
      rfl
  | cons edge edges ih =>
    rw [List.foldlM_cons]
    constructor
    · intro ok
      obtain ⟨next, added, ok⟩ := except_bind_ok ok
      obtain ⟨link, first, rfl⟩ := (addEdgeRecord_ok_iff places count).mp added
      rw [ih (by rw [vertexCount_perform_edge, count])] at ok
      obtain ⟨links, others, same⟩ := ok
      exact ⟨link :: links, .cons first others, same⟩
    · intro found
      obtain ⟨links, linked, same⟩ := found
      obtain ⟨link, others, first, rest, rfl⟩ := List.forall₂_cons_left_iff.mp linked
      rw [(addEdgeRecord_ok_iff places count).mpr ⟨link, first, rfl⟩, Traced.ok_bind,
        ih (by rw [vertexCount_perform_edge, count])]
      exact ⟨others, rest, same⟩

theorem assemble_eq_performAll (infos : List VertexInfo) (links : List (VertexId × VertexId)) :
    assemble infos links =
      (assemble infos []).performAll (links.map fun link => .edge link.1 link.2) := by
  simp [assemble, performAll]

/-- A description builds what its records and the places of its ids say, or nothing. -/
theorem build_ok_iff :
    d.build naming = .ok g ↔
      ∃ infos links, d.Builds naming infos links ∧ g = assemble infos links := by
  constructor
  · intro ok
    obtain ⟨⟨bare, numbers⟩, vertices, ok⟩ := except_bind_ok ok
    obtain ⟨infos, placed⟩ := (placed_nil naming).of_foldlM_ok vertices
    obtain ⟨links, linked, same⟩ :=
      (foldlM_addEdgeRecord_ok_iff placed.places placed.vertexCount).mp ok
    refine ⟨infos, links, ⟨placed.distinct, placed.read, linked⟩, ?_⟩
    rw [same, placed.graph]
    exact (assemble_eq_performAll infos links).symm
  · intro found
    obtain ⟨infos, links, builds, same⟩ := found
    obtain ⟨⟨bare, numbers⟩, vertices, placed⟩ :=
      (placed_nil naming).foldlM_ok builds.distinct builds.read
    rw [build, vertices]
    apply (foldlM_addEdgeRecord_ok_iff placed.places placed.vertexCount).mpr
    refine ⟨links, builds.linked, ?_⟩
    rw [same, placed.graph]
    exact assemble_eq_performAll infos links

end SignalPaths.Description
