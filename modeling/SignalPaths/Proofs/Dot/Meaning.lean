import Mathlib.Logic.Function.Basic
import SignalPaths.Dot.Description
import SignalPaths.Proofs.Computation
import SignalPaths.Proofs.FirstOccurrence

/-!
What the statements of a document say of its nodes: the nodes stand in the order in which they are
first mentioned, a node has the attributes of all statements that declare it, the last one first,
and the edges are the neighbours in the chains.
-/

namespace SignalPaths.Dot

namespace Statement

def mentions : Statement → List String
  | ignored => []
  | node id _ => [id]
  | chain first second others => first :: second :: others

def declares (id : String) : Statement → Bool
  | node other _ => other == id
  | _ => false

def assignments (id : String) : Statement → List (String × String)
  | node other attributes => if other = id then attributes else []
  | _ => []

def neighbours : Statement → List (String × String)
  | chain first second others => (first :: second :: others).zip (second :: others)
  | _ => []

end Statement

namespace Nodes

theorem foldl_link (nodes : Nodes) (pairs : List (String × String)) :
    (pairs.map fun pair => Change.link pair.1 pair.2).foldl apply nodes =
      { nodes with edges := nodes.edges ++ pairs } := by
  induction pairs generalizing nodes with
  | nil => simp
  | cons pair pairs ih =>
    rw [List.map_cons, List.foldl_cons, ih]
    simp [apply]

/-- The nodes hold what was met so far and what is known of it. -/
structure Recorded (nodes : Nodes) (met : List String) (content : String → Node) : Prop where
  order : nodes.order.toList = met.eraseDups
  known : ∀ id, nodes.known[id]? = if id ∈ met then some (content id) else none
  silent : ∀ id, id ∉ met → content id = {}

def contentOf (statements : List Statement) (id : String) : Node where
  attributes := (statements.flatMap (Statement.assignments id)).reverse
  declared := statements.any (Statement.declares id)

namespace Recorded

variable {nodes : Nodes} {met : List String} {content : String → Node}

theorem mem_known_iff (recorded : nodes.Recorded met content) (id : String) :
    id ∈ nodes.known ↔ id ∈ met := by
  rw [Std.TreeMap.mem_iff_isSome_getElem?, recorded.known]
  split <;> simp_all

theorem update (recorded : nodes.Recorded met content) (id : String) (change : Node → Node) :
    (nodes.update id change).Recorded (met ++ [id])
      (Function.update content id (change (content id))) where
  order := by
    rw [eraseDups_append_singleton, ← recorded.order]
    simp only [Nodes.update, Std.TreeMap.contains_iff_mem, recorded.mem_known_iff]
    split <;> simp
  known other := by
    have before : (nodes.known[id]?).getD {} = content id := by
      rw [recorded.known]
      split
      · rfl
      · next fresh => exact (recorded.silent id fresh).symm
    by_cases same : other = id
    · subst same
      simp [Nodes.update, before]
    · have apart : id ≠ other := fun h => same h.symm
      simp [Nodes.update, Std.TreeMap.getElem?_alter, apart, same, recorded.known]
  silent other unmet := by
    simp only [List.mem_append, List.mem_singleton, not_or] at unmet
    rw [Function.update_of_ne unmet.2]
    exact recorded.silent other unmet.1

theorem meet (recorded : nodes.Recorded met content) (id : String) :
    (nodes.apply (.meet id)).Recorded (met ++ [id]) content := by
  have step := recorded.update id fun node => node
  rwa [Function.update_eq_self] at step

theorem meetAll (recorded : nodes.Recorded met content) (ids : List String) :
    ((ids.map Change.meet).foldl apply nodes).Recorded (met ++ ids) content := by
  induction ids generalizing nodes met with
  | nil => simpa using recorded
  | cons id ids ih => simpa using ih (recorded.meet id)

theorem of_eq {others : String → Node} (recorded : nodes.Recorded met content)
    (same : ∀ id, others id = content id) : nodes.Recorded met others :=
  funext same ▸ recorded

theorem addStatement (recorded : nodes.Recorded met content) (statement : Statement) :
    (nodes.addStatement statement).Recorded (met ++ statement.mentions) fun id =>
      ⟨(statement.assignments id).reverse ++ (content id).attributes,
        (content id).declared || statement.declares id⟩ := by
  cases statement with
  | ignored =>
    rw [Statement.mentions, List.append_nil]
    exact recorded.of_eq fun id => by simp [Statement.assignments, Statement.declares]
  | node id attributes =>
    have step := recorded.update id fun node =>
      { attributes := attributes.reverse ++ node.attributes, declared := true }
    refine step.of_eq fun other => ?_
    by_cases same : other = id
    · subst same
      simp [Statement.assignments, Statement.declares]
    · have apart : (id == other) = false := beq_false_of_ne fun h => same h.symm
      have unassigned : ¬ id = other := fun h => same h.symm
      simp [Statement.assignments, Statement.declares, same, apart, unassigned]
  | chain first second others =>
    obtain ⟨order, known, silent⟩ := recorded.meetAll (first :: second :: others)
    have linked : (nodes.addStatement (.chain first second others)).Recorded
        (met ++ first :: second :: others) content := by
      rw [Nodes.addStatement, Statement.changes, List.foldl_append, foldl_link]
      exact ⟨order, known, silent⟩
    exact linked.of_eq fun id => by simp [Statement.assignments, Statement.declares]

end Recorded

theorem ofStatements_append_singleton (statements : List Statement) (statement : Statement) :
    ofStatements (statements ++ [statement]) =
      (ofStatements statements).addStatement statement := by
  simp [ofStatements]

theorem recorded_ofStatements (statements : List Statement) :
    (ofStatements statements).Recorded (statements.flatMap Statement.mentions)
      (contentOf statements) := by
  induction statements using List.reverseRecOn with
  | nil => exact ⟨rfl, by simp [ofStatements], fun _ _ => rfl⟩
  | append_singleton statements statement ih =>
    rw [ofStatements_append_singleton, List.flatMap_append, List.flatMap_singleton]
    exact (ih.addStatement statement).of_eq fun id => by simp [contentOf]

theorem edges_meetAll (nodes : Nodes) (ids : List String) :
    ((ids.map Change.meet).foldl apply nodes).edges = nodes.edges := by
  induction ids generalizing nodes with
  | nil => rfl
  | cons id ids ih => exact ih (nodes.apply (.meet id))

theorem edges_ofStatements (statements : List Statement) :
    (ofStatements statements).edges.toList = statements.flatMap Statement.neighbours := by
  induction statements using List.reverseRecOn with
  | nil => rfl
  | append_singleton statements statement ih =>
    rw [ofStatements_append_singleton, List.flatMap_append, List.flatMap_singleton, ← ih]
    cases statement with
    | ignored => simp [addStatement, Statement.changes, Statement.neighbours]
    | node id attributes =>
      simp [addStatement, Statement.changes, Statement.neighbours, apply, update]
    | chain first second others =>
      rw [addStatement, Statement.changes, List.foldl_append, foldl_link, edges_meetAll,
        Array.toList_appendList, Statement.neighbours]

theorem numberOf_ofList {ids : List String} {numbers : List UInt64} {id : String} {number : UInt64}
    (distinct : ids.Nodup) (enough : ids.length ≤ numbers.length)
    (member : (id, number) ∈ ids.zip numbers) :
    numberOf (.ofList (ids.zip numbers)) id = .ok number := by
  have apart : (ids.zip numbers).Pairwise fun a b => ¬ compare a.1 b.1 = .eq := by
    rw [← List.map_fst_zip enough, List.Nodup, List.pairwise_map] at distinct
    simpa only [Std.LawfulEqCmp.compare_eq_iff_eq] using distinct
  rw [numberOf, Std.TreeMap.getElem?_ofList_of_mem Std.ReflCmp.compare_self apart member]

theorem describe_eq {nodes : Nodes} {records : List VertexRecord} {edges : List EdgeRecord}
    (distinct : nodes.order.toList.Nodup)
    (described : List.Forall₂ (fun id record => nodes.recordOf id = .ok record)
      nodes.order.toList records)
    (linked : List.Forall₂ (fun pair edge =>
      (pair.1, edge.source) ∈ nodes.order.toList.zip (records.map VertexRecord.id) ∧
        (pair.2, edge.target) ∈ nodes.order.toList.zip (records.map VertexRecord.id))
      nodes.edges.toList edges) :
    nodes.describe = .ok { vertices := records, edges } := by
  have enough : nodes.order.toList.length ≤ (records.map VertexRecord.id).length := by
    simp [described.length_eq]
  let numbers := Std.TreeMap.ofList (nodes.order.toList.zip (records.map VertexRecord.id))
  have numbered : nodes.edges.toList.mapM (fun pair => do
      return (⟨← numberOf numbers pair.1, ← numberOf numbers pair.2⟩ : EdgeRecord)) =
        .ok edges := by
    refine mapM_ok_iff.mpr (linked.imp fun pair edge ends => ?_)
    simp only [numbers, numberOf_ofList distinct enough ends.1,
      numberOf_ofList distinct enough ends.2]
    rfl
  simp only [describe, mapM_ok_iff.mpr described]
  simp only [bind, Except.bind, pure, Except.pure] at numbered ⊢
  rw [numbered]

end Nodes

end SignalPaths.Dot
