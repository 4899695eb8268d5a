import SignalPaths.Proofs.Description.Outcome
import SignalPaths.Proofs.Dot.Denotation

/-!
What the reader of a document keeps of its nodes is consistent at every point, whatever it has read
and whether or not it gets to the end: an identifier is kept once in the order and has its node, and
the ends of an edge are kept before the edge is. So nothing that is looked up in the end is missing,
and the edges of a description run between its own vertices.
-/

namespace SignalPaths.Dot

/-- An edge may be kept once both its ends are. -/
def Change.Ready (nodes : Nodes) : Change → Prop
  | link source target => source ∈ nodes.order ∧ target ∈ nodes.order
  | _ => True

namespace Nodes

variable {nodes : Nodes} {id other : String} {change next : Change} {changes : List Change}

/-- What is kept at each point of a run of changes, the first and the last included. -/
def course (nodes : Nodes) (changes : List Change) : List Nodes := changes.scanl apply nodes

theorem course_cons (nodes : Nodes) (change : Change) (changes : List Change) :
    nodes.course (change :: changes) = nodes :: (nodes.apply change).course changes :=
  List.scanl_cons

theorem forall_course_append {holds : Nodes → Prop} {nodes : Nodes} {first second : List Change} :
    (∀ point ∈ nodes.course (first ++ second), holds point) ↔
      (∀ point ∈ nodes.course first, holds point) ∧
        ∀ point ∈ (first.foldl apply nodes).course second, holds point := by
  induction first generalizing nodes with
  | nil =>
    have start : nodes ∈ nodes.course second := by
      cases second with
      | nil => exact List.mem_singleton_self nodes
      | cons change rest =>
        rw [course_cons]
        exact List.mem_cons_self
    constructor
    · intro all
      refine ⟨?_, all⟩
      intro point only
      exact List.mem_singleton.mp only ▸ all nodes start
    · exact And.right
  | cons change rest ih =>
    rw [List.cons_append, course_cons, course_cons, List.forall_mem_cons, List.forall_mem_cons, ih,
      and_assoc]
    rfl

theorem ofStatements_eq_foldl (statements : List Statement) :
    ofStatements statements = (statements.flatMap Statement.changes).foldl apply {} := by
  rw [List.foldl_flatMap]
  rfl

structure Consistent (nodes : Nodes) : Prop where
  distinct : nodes.order.toList.Nodup
  keys : ∀ id, id ∈ nodes.order ↔ id ∈ nodes.known
  linked : ∀ pair ∈ nodes.edges, pair.1 ∈ nodes.order ∧ pair.2 ∈ nodes.order

theorem consistent_empty : ({} : Nodes).Consistent where
  distinct := List.nodup_nil
  keys id := by simp
  linked pair member := by simp at member

theorem mem_known_update (nodes : Nodes) (id : String) (change : Node → Node) (other : String) :
    other ∈ (nodes.update id change).known ↔ other ∈ nodes.known ∨ other = id := by
  rw [update, Std.TreeMap.mem_alter]
  by_cases same : id = other
  · simp [same]
  · simp [same, Ne.symm same]

theorem mem_order_of_mem (nodes : Nodes) (change : Change) (kept : id ∈ nodes.order) :
    id ∈ (nodes.apply change).order := by
  have updated (other : String) (change : Node → Node) :
      id ∈ (nodes.update other change).order := by
    rw [update]
    split
    · exact kept
    · exact Array.mem_push.mpr (.inl kept)
  cases change with
  | meet other => exact updated other _
  | declare other attributes => exact updated other _
  | link source target => exact kept

namespace Consistent

theorem mem_order_update (consistent : nodes.Consistent) (id : String) (change : Node → Node)
    (other : String) :
    other ∈ (nodes.update id change).order ↔ other ∈ nodes.order ∨ other = id := by
  rw [update]
  split
  · rename_i known
    rw [Std.TreeMap.contains_iff_mem, ← consistent.keys] at known
    constructor
    · exact .inl
    · intro either
      exact either.elim (fun kept => kept) fun same => same ▸ known
  · exact Array.mem_push

theorem update (consistent : nodes.Consistent) (id : String) (change : Node → Node) :
    (nodes.update id change).Consistent where
  distinct := by
    rw [Nodes.update]
    split
    · exact consistent.distinct
    · rename_i unknown
      have fresh : id ∉ nodes.order.toList := by
        rw [Array.mem_toList_iff, consistent.keys, ← Std.TreeMap.contains_iff_mem]
        exact unknown
      rw [Array.toList_push, ← List.concat_eq_append]
      exact consistent.distinct.concat fresh
  keys other := by
    rw [consistent.mem_order_update, mem_known_update, consistent.keys]
  linked pair member := by
    obtain ⟨left, right⟩ := consistent.linked pair member
    rw [consistent.mem_order_update, consistent.mem_order_update]
    exact ⟨.inl left, .inl right⟩

theorem apply (consistent : nodes.Consistent) (ready : change.Ready nodes) :
    (nodes.apply change).Consistent := by
  cases change with
  | meet id => exact consistent.update id fun node => node
  | declare id attributes =>
    rw [Nodes.apply]
    exact consistent.update id _
  | link source target =>
    refine ⟨consistent.distinct, consistent.keys, ?_⟩
    intro pair member
    obtain old | rfl := Array.mem_push.mp member
    · exact consistent.linked pair old
    · exact ready

end Consistent

theorem ready_apply (ready : next.Ready nodes) (change : Change) :
    next.Ready (nodes.apply change) := by
  cases next with
  | meet id => trivial
  | declare id attributes => trivial
  | link source target =>
    exact ⟨mem_order_of_mem nodes change ready.1, mem_order_of_mem nodes change ready.2⟩

namespace Consistent

/-- Changes that are ready at first stay ready, whatever comes before them. -/
theorem course (consistent : nodes.Consistent) (ready : ∀ change ∈ changes, change.Ready nodes) :
    ∀ point ∈ nodes.course changes, point.Consistent := by
  induction changes generalizing nodes with
  | nil =>
    intro point only
    exact List.mem_singleton.mp only ▸ consistent
  | cons change changes ih =>
    rw [course_cons, List.forall_mem_cons]
    refine ⟨consistent, ih (consistent.apply (ready change List.mem_cons_self)) ?_⟩
    intro next member
    exact ready_apply (ready next (List.mem_cons_of_mem _ member)) change

end Consistent

theorem mem_order_foldl (changes : List Change) (kept : id ∈ nodes.order) :
    id ∈ (changes.foldl apply nodes).order := by
  induction changes generalizing nodes with
  | nil => exact kept
  | cons change changes ih => exact ih (mem_order_of_mem nodes change kept)

theorem final_mem_course (nodes : Nodes) (changes : List Change) :
    changes.foldl apply nodes ∈ nodes.course changes := by
  induction changes generalizing nodes with
  | nil => exact List.mem_singleton_self nodes
  | cons change changes ih =>
    rw [course_cons]
    exact List.mem_cons_of_mem _ (ih (nodes.apply change))

namespace Consistent

theorem mem_order_of_meet (consistent : nodes.Consistent) {ids : List String} (member : id ∈ ids) :
    id ∈ ((ids.map Change.meet).foldl Nodes.apply nodes).order := by
  induction ids generalizing nodes with
  | nil => cases member
  | cons first ids ih =>
    rw [List.map_cons, List.foldl_cons]
    obtain rfl | later := List.mem_cons.mp member
    · apply mem_order_foldl
      exact (consistent.mem_order_update id _ id).mpr (.inr rfl)
    · exact ih (consistent.apply trivial) later

theorem statement (consistent : nodes.Consistent) (statement : Statement) :
    ∀ point ∈ nodes.course statement.changes, point.Consistent := by
  cases statement with
  | ignored =>
    apply consistent.course
    intro change member
    cases member
  | node id attributes =>
    apply consistent.course
    intro change member
    rw [List.mem_singleton.mp member]
    trivial
  | chain first second others =>
    -- All ends are met before the first edge is kept, so every edge is ready by then.
    have met : ∀ point ∈ nodes.course ((first :: second :: others).map .meet),
        point.Consistent := by
      apply consistent.course
      intro change member
      obtain ⟨id, _, rfl⟩ := List.mem_map.mp member
      trivial
    rw [Statement.changes, forall_course_append]
    refine ⟨met, (met _ (final_mem_course nodes _)).course ?_⟩
    intro change member
    obtain ⟨pair, linked, rfl⟩ := List.mem_map.mp member
    obtain ⟨left, right⟩ := List.of_mem_zip linked
    exact ⟨consistent.mem_order_of_meet left,
      consistent.mem_order_of_meet (List.mem_cons_of_mem first right)⟩

theorem statements (consistent : nodes.Consistent) (said : List Statement) :
    ∀ point ∈ nodes.course (said.flatMap Statement.changes), point.Consistent := by
  induction said generalizing nodes with
  | nil => exact consistent.statement .ignored
  | cons statement said ih =>
    have first := consistent.statement statement
    rw [List.flatMap_cons, forall_course_append]
    exact ⟨first, ih (first _ (final_mem_course nodes _))⟩

end Consistent

theorem consistent_ofStatements (said : List Statement) : (ofStatements said).Consistent := by
  rw [ofStatements_eq_foldl]
  exact consistent_empty.statements said _ (final_mem_course _ _)

namespace Consistent

theorem exists_node (consistent : nodes.Consistent) (member : id ∈ nodes.order) :
    ∃ node, nodes.known[id]? = some node := by
  rw [consistent.keys, Std.TreeMap.mem_iff_isSome_getElem?] at member
  exact Option.isSome_iff_exists.mp member

/-- Once all nodes are described, each of them has a number. -/
theorem exists_number (consistent : nodes.Consistent) {records : List VertexRecord}
    (described : nodes.order.toList.mapM nodes.recordOf = .ok records) (member : id ∈ nodes.order) :
    ∃ number, numberOf (.ofList (nodes.order.toList.zip (records.map VertexRecord.id))) id =
      .ok number := by
  have length : nodes.order.toList.length = (records.map VertexRecord.id).length := by
    rw [List.length_map, (mapM_ok_iff.mp described).length_eq]
  have listed := Array.mem_toList_iff.mpr member
  rw [← List.map_fst_zip (Nat.le_of_eq length)] at listed
  obtain ⟨pair, zipped, rfl⟩ := List.mem_map.mp listed
  exact ⟨pair.2, numberOf_ofList consistent.distinct (Nat.le_of_eq length) zipped⟩

end Consistent

end Nodes

theorem Denotes.linked {said : List Statement} {d : Description} (denotes : Denotes said d) :
    ∀ edge ∈ d.edges, Description.Linked d.ids edge := by
  have numbered {id : String} {number : UInt64} (member : id ∈ mentioned said)
      (known : number? said id = some number) : number ∈ d.ids := by
    obtain ⟨record, held, describes⟩ := forall₂_mem_left denotes.vertices member
    rw [describes.number, Option.some_inj] at known
    exact known ▸ List.mem_map_of_mem held
  intro edge member
  obtain ⟨pair, linked, source, target⟩ := forall₂_mem_right denotes.edges member
  obtain ⟨left, right⟩ := mem_mentioned_of_neighbours linked
  exact ⟨numbered left source, numbered right target⟩

theorem readDescription_ok {text : String} {d : Description} (ok : readDescription text = .ok d) :
    ∃ found said, tokens text = .ok found ∧ statements found = .ok said ∧ Denotes said d := by
  obtain ⟨found, lexed, rest⟩ := except_bind_ok ok
  cases known : tokens text with
  | error e =>
    rw [known] at lexed
    cases lexed
  | ok listed =>
    rw [known] at lexed
    obtain rfl := Except.ok.inj lexed
    cases parsed : statements listed with
    | error e =>
      rw [parsed] at rest
      cases listed with
      | nil => cases rest
      | cons token others => cases rest
    | ok said =>
      rw [readDescription_of_statements known parsed] at ok
      exact ⟨listed, said, rfl, parsed, describe_ok_iff.mp ok⟩

/-- Whatever statements the reader has gone through, what it keeps was consistent at every point,
and nothing that it looks up in the end is missing. So the edges of a description run between its
vertices, and only a vertex can be at fault when it is built. -/
theorem readDescription_consistent :
    (∀ said : List Statement,
      (∀ point ∈ ({} : Nodes).course (said.flatMap Statement.changes), point.Consistent) ∧
      (said.flatMap Statement.changes).foldl Nodes.apply {} = Nodes.ofStatements said) ∧
    (∀ text found said, tokens text = .ok found → statements found = .ok said →
      let nodes := Nodes.ofStatements said
      readDescription text = nodes.describe ∧
      (∀ id ∈ nodes.order, ∃ node, nodes.known[id]? = some node) ∧
      ∀ records, nodes.order.toList.mapM nodes.recordOf = .ok records →
        ∀ pair ∈ nodes.edges, ∀ id ∈ [pair.1, pair.2], ∃ number,
          Nodes.numberOf (.ofList (nodes.order.toList.zip (records.map VertexRecord.id))) id =
            .ok number) ∧
    ∀ text d, readDescription text = .ok d →
      (∀ edge ∈ d.edges, edge.source ∈ d.ids ∧ edge.target ∈ d.ids) ∧
      ∀ naming error, d.build naming = .error error →
        (∃ id, error = .duplicateVertex id) ∨ (∃ word, error = .unknownKind word) ∨
          ∃ word, error = .unknownDirection word := by
  refine ⟨fun said => ⟨?_, ?_⟩, ?_, ?_⟩
  · exact Nodes.consistent_empty.statements said
  · exact (Nodes.ofStatements_eq_foldl said).symm
  · intro text found said lexed parsed nodes
    have consistent : nodes.Consistent := Nodes.consistent_ofStatements said
    refine ⟨readDescription_of_statements lexed parsed, fun id => consistent.exists_node, ?_⟩
    intro records described pair member id chosen
    apply consistent.exists_number described
    obtain ⟨left, right⟩ := consistent.linked pair member
    obtain rfl | rfl : id = pair.1 ∨ id = pair.2 := by simpa using chosen
    · exact left
    · exact right
  · intro text d ok
    obtain ⟨found, said, _, _, denotes⟩ := readDescription_ok ok
    refine ⟨denotes.linked, ?_⟩
    intro naming error failed
    exact Description.build_error_of_linked denotes.linked failed

/-- Both nodes have the same number, and one of them a kind that there is not. -/
def doubledText : String :=
  "digraph \x7b a -> 2 -> a; a [id=2, type=WIRE]; 2 [type=GATE] \x7d"

def doubled : Description :=
  ⟨[⟨2, "WIRE", none, "", ""⟩, ⟨2, "GATE", none, "", ""⟩], [⟨2, 2⟩, ⟨2, 2⟩]⟩

theorem readDescription_consistent_doubled :
    (∃ found said, tokens doubledText = .ok found ∧ statements found = .ok said ∧
      readDescription doubledText = (Nodes.ofStatements said).describe) ∧
    readDescription doubledText = .ok doubled ∧
    (∀ edge ∈ doubled.edges, edge.source ∈ doubled.ids ∧ edge.target ∈ doubled.ids) ∧
    doubled.build Naming.standard = .error (.duplicateVertex 2) ∧
    ((∃ id, LoadError.duplicateVertex 2 = .duplicateVertex id) ∨
      (∃ word, LoadError.duplicateVertex 2 = .unknownKind word) ∨
      ∃ word, LoadError.duplicateVertex 2 = .unknownDirection word) := by
  have ok : readDescription doubledText = .ok doubled := by decide +kernel
  obtain ⟨found, said, lexed, parsed, _⟩ := readDescription_ok ok
  have looked := readDescription_consistent.2.1 doubledText found said lexed parsed
  have built := readDescription_consistent.2.2 doubledText doubled ok
  have failed : doubled.build Naming.standard = .error (.duplicateVertex 2) := by
    apply Description.build_error_iff.mpr
    refine .record [⟨2, "WIRE", none, "", ""⟩] ⟨2, "GATE", none, "", ""⟩ [] rfl ?_ ?_
    · refine ⟨List.nodup_singleton _, ?_⟩
      intro record only
      rw [List.mem_singleton.mp only]
      exact ⟨⟨.wire, rfl⟩, by simp⟩
    · exact .duplicate (List.mem_singleton_self _)
  exact ⟨⟨found, said, lexed, parsed, looked.1⟩, ok, built.1, failed, built.2 _ _ failed⟩

end SignalPaths.Dot
