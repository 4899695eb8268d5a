import SignalPaths.Proofs.Dot.Lexing
import SignalPaths.Proofs.Dot.Meaning
import SignalPaths.Proofs.Netlist.History

/-!
Graphs that are written as DOT read back. The text of a graph spells a document of one node
statement for each vertex and one chain of two for each edge, and these statements describe the
graph.
-/

namespace SignalPaths.Dot

open Grammar

theorem isDigit_of_mem_repr {n : Nat} {c : Char} (member : c ∈ n.repr.toList) :
    c.isDigit = true := by
  rw [Nat.toList_repr] at member
  exact Nat.isDigit_of_mem_toDigits (by omega) (by omega) member

theorem isPlain_repr (n : Nat) : n.repr.toList.all isPlain = true := by
  rw [List.all_eq_true]
  intro c member
  simp [isPlain, Char.isAlphanum, isDigit_of_mem_repr member]

theorem repr_ne_empty (n : Nat) : n.repr ≠ "" := by
  intro empty
  have none : n.repr.toList = [] := by simp [empty]
  rw [Nat.toList_repr] at none
  simp at none

theorem repr_free (n : Nat) : n.repr ∉ reservedWords := by
  intro reserved
  have letters : reservedWords.all (fun word => word.toList.any (!·.isDigit)) = true := by decide
  obtain ⟨c, member, letter⟩ := List.any_eq_true.mp (List.all_eq_true.mp letters _ reserved)
  simp [isDigit_of_mem_repr member] at letter

theorem repr_injective {m n : Nat} (same : m.repr = n.repr) : m = n := by
  have digits : Nat.toDigits 10 m = Nat.toDigits 10 n := by
    rw [← Nat.toList_repr, ← Nat.toList_repr, same]
  rw [← Nat.ofDigitChars_toDigits (b := 10) (n := m) (by omega) (by omega), digits,
    Nat.ofDigitChars_toDigits (by omega) (by omega)]

theorem isPlain_kind (kind : Kind) : kind.text.toList.all isPlain = true := by
  cases kind <;> decide

theorem isPlain_direction (direction : Direction) :
    direction.text.toList.all isPlain = true := by
  cases direction <;> decide

def vertexAttributes (v : Vertex) : List (String × String) :=
  [("id", v.id.repr), ("type", v.kind.text), ("dir", v.direction.text), ("name", v.name),
    ("loc", v.location)]

def vertexStatement (v : Vertex) : Statement := .node v.id.repr (vertexAttributes v)

def edgeStatement (edge : VertexId × VertexId) : Statement := .chain edge.1.repr edge.2.repr []

def vertexSymbols (v : Vertex) : List Symbol :=
  [.identifier v.id.repr, .openBracket,
    .identifier "id", .equals, .identifier v.id.repr, .comma,
    .identifier "type", .equals, .identifier v.kind.text, .comma,
    .identifier "dir", .equals, .identifier v.direction.text, .comma,
    .identifier "name", .equals, .identifier v.name, .comma,
    .identifier "loc", .equals, .identifier v.location, .closeBracket, .semicolon]

def edgeSymbols (edge : VertexId × VertexId) : List Symbol :=
  [.identifier edge.1.repr, .arrow, .identifier edge.2.repr, .semicolon]

theorem lexes_key {text : String} {rest : List Char} {w : List Symbol} (key : String)
    (spelled : text.toList = ',' :: ' ' :: (key.toList ++ ['=']))
    (plain : key.toList.all isPlain = true) (nonempty : key ≠ "") (lexes : Lexes rest w) :
    Lexes (text.toList ++ rest) (.comma :: .identifier key :: .equals :: w) := by
  have equated : Lexes ('=' :: rest) (.equals :: w) := .symbol rfl lexes
  have word := equated.word plain nonempty rfl
  rw [spelled, List.cons_append, List.cons_append, List.append_assoc]
  exact .symbol rfl (word.blank rfl)

theorem lexes_vertexLine {rest : List Char} {w : List Symbol} (v : Vertex) (lexes : Lexes rest w) :
    Lexes ((vertexLine v).toList ++ rest) (vertexSymbols v ++ w) := by
  unfold vertexLine
  simp only [String.toList_append, List.append_assoc]
  -- Piece by piece from the left. A word ends because the fixed text after it does not continue it.
  refine Lexes.blank (Lexes.blank ?_ rfl) rfl
  refine Lexes.word ?_ (isPlain_repr v.id) (repr_ne_empty v.id) rfl
  refine .gap rfl (.symbol rfl (.symbol rfl (.symbol rfl ?_)))
  refine Lexes.word ?_ (isPlain_repr v.id) (repr_ne_empty v.id) rfl
  refine lexes_key "type" rfl (by decide) (by decide) ?_
  refine Lexes.word ?_ (isPlain_kind v.kind) (by cases v.kind <;> decide) rfl
  refine lexes_key "dir" rfl (by decide) (by decide) ?_
  refine Lexes.word ?_ (isPlain_direction v.direction) (by cases v.direction <;> decide) rfl
  refine lexes_key "name" rfl (by decide) (by decide) ?_
  refine Lexes.quoted ?_ v.name
  refine lexes_key "loc" rfl (by decide) (by decide) ?_
  refine Lexes.quoted ?_ v.location
  exact .symbol rfl (.symbol rfl (lexes.blank rfl))

theorem lexes_edgeLine {rest : List Char} {w : List Symbol} (edge : VertexId × VertexId)
    (lexes : Lexes rest w) : Lexes ((edgeLine edge).toList ++ rest) (edgeSymbols edge ++ w) := by
  unfold edgeLine
  simp only [String.toList_append, List.append_assoc]
  refine Lexes.blank (Lexes.blank ?_ rfl) rfl
  refine Lexes.word ?_ (isPlain_repr edge.1) (repr_ne_empty edge.1) rfl
  refine .gap rfl (.symbol rfl (Lexes.blank ?_ rfl))
  refine Lexes.word ?_ (isPlain_repr edge.2) (repr_ne_empty edge.2) rfl
  exact .symbol rfl (lexes.blank rfl)

theorem lexes_join {α : Type} {line : α → String} {spelled : α → List Symbol}
    (each : ∀ {rest w} (x : α), Lexes rest w → Lexes ((line x).toList ++ rest) (spelled x ++ w))
    (xs : List α) {rest : List Char} {w : List Symbol} (lexes : Lexes rest w) :
    Lexes ((String.join (xs.map line)).toList ++ rest) (xs.flatMap spelled ++ w) := by
  rw [String.toList_join, List.flatMap_map]
  induction xs with
  | nil => exact lexes
  | cons x xs ih =>
    rw [List.flatMap_cons, List.flatMap_cons, List.append_assoc, List.append_assoc]
    exact each x ih

def graphSymbols (g : Graph) : List Symbol :=
  g.vertices.toList.flatMap vertexSymbols ++ g.edges.toList.flatMap edgeSymbols

theorem lexes_write (g : Graph) :
    Lexes (write g).toList
      (.identifier "digraph" :: .identifier "netlist" :: .openBrace ::
        (graphSymbols g ++ [.closeBrace])) := by
  unfold write graphSymbols
  simp only [String.toList_append, List.append_assoc]
  have closed : Lexes "\x7d\n".toList [.closeBrace] := .symbol rfl (.gap rfl .nil)
  have linked := lexes_join lexes_edgeLine g.edges.toList closed
  have listed := lexes_join lexes_vertexLine g.vertices.toList linked
  exact .symbol rfl (.gap rfl (.symbol rfl (.gap rfl (.symbol rfl (listed.blank rfl)))))

theorem items_vertex (v : Vertex) : Many Item [[vertexStatement v], []] (vertexSymbols v) :=
  have comma : Optional Separator [.comma] := .inr .comma
  have entries : Many Attribute (vertexAttributes v) _ :=
    .cons (.valued comma) (.cons (.valued comma) (.cons (.valued comma) (.cons (.valued comma)
      (.cons (.valued (.inl rfl)) .nil))))
  have lists : Attributes (vertexAttributes v) _ := .lists (.cons (.brackets entries) .nil)
  have sentence : Sentence (vertexStatement v) _ := .node (repr_free v.id) lists
  .cons (Item.statement sentence) (.cons Item.semicolon .nil)

theorem items_edge (edge : VertexId × VertexId) :
    Many Item [[edgeStatement edge], []] (edgeSymbols edge) :=
  have links : Many Link [edge.2.repr] _ := .cons (.arrow edge.2.repr) .nil
  have sentence : Sentence (edgeStatement edge) _ := .chain (repr_free edge.1) links (.lists .nil)
  .cons (Item.statement sentence) (.cons Item.semicolon .nil)

def written (g : Graph) : List Statement :=
  g.vertices.toList.map vertexStatement ++ g.edges.toList.map edgeStatement

theorem flatten_items {α : Type} (statement : α → Statement) (xs : List α) :
    (xs.flatMap fun x => [[statement x], []]).flatten = xs.map statement := by
  induction xs with
  | nil => rfl
  | cons x xs ih => simp [ih]

theorem document_written (g : Graph) :
    Document (written g) (.identifier "digraph" :: .identifier "netlist" :: .openBrace ::
      (graphSymbols g ++ [.closeBrace])) := by
  have lower : "digraph".toLower = "digraph" := by
    change String.map Char.toLower "digraph" = "digraph"
    rw [← String.toList_inj, String.toList_map]
    rfl
  have heading : Heading [.identifier "digraph", .identifier "netlist"] :=
    .words (.inl rfl) (.spelled lower) (.inr (.identifier "netlist"))
  have vertices := Many.flatMap items_vertex g.vertices.toList
  have edges := Many.flatMap items_edge g.edges.toList
  have document := Document.graph heading (vertices.append edges)
  rwa [List.flatten_append, flatten_items, flatten_items] at document

theorem statements_write (g : Graph) :
    ∃ found, tokens (write g) = .ok found ∧ found ≠ [] ∧ statements found = .ok (written g) := by
  obtain ⟨found, read, spelled⟩ := (lexes_write g).tokens_eq
  refine ⟨found, read, ?_, ?_⟩
  · rintro rfl
    simp at spelled
  · rw [statements_eq_ok_iff, spelled]
    exact document_written g

theorem readUInt64_repr {n : Nat} (small : n < UInt64.size) :
    Text.readUInt64 n.repr = some (UInt64.ofNat n) := by
  have read : Text.readUnsigned n.repr.toList = some n := by
    have digits : Text.readDigits n.repr.toList = some n := by
      rw [Nat.toList_repr]
      exact Text.readDigits_decimal n
    unfold Text.readUnsigned
    split
    · next plus =>
      have signed : '+'.isDigit = true := isDigit_of_mem_repr (n := n) (by simp [plus])
      exact absurd signed (by decide)
    · exact digits
  rw [Text.readUInt64, read]
  exact if_pos small

section Described

variable {g : Graph}

theorem ids_nodup (indexed : g.Indexed) :
    (g.vertices.toList.map fun v => v.id.repr).Nodup := by
  have distinct : (g.vertices.toList.map Vertex.id).Nodup := by
    rw [indexed.map_id]
    exact List.nodup_range
  have numbers := distinct.map (f := Nat.repr) fun _ _ => repr_injective
  rwa [List.map_map] at numbers

theorem mem_ids (indexed : g.Indexed) {id : VertexId} (inside : id < g.vertexCount) :
    ∃ v ∈ g.vertices.toList, v.id = id := by
  have member : id ∈ g.vertices.toList.map Vertex.id := by
    rw [indexed.map_id]
    exact List.mem_range.mpr inside
  simpa using member

theorem order_written (coherent : g.Coherent) (indexed : g.Indexed) :
    (Nodes.ofStatements (written g)).order.toList = g.vertices.toList.map fun v => v.id.repr := by
  have mentioned : (written g).flatMap Statement.mentions =
      (g.vertices.toList.map fun v => v.id.repr) ++
        g.edges.toList.flatMap fun edge => [edge.1.repr, edge.2.repr] := by
    rw [written, List.flatMap_append, List.flatMap_map, List.flatMap_map,
      ← List.flatMap_pure_eq_map]
    rfl
  rw [(Nodes.recorded_ofStatements (written g)).order, mentioned]
  refine eraseDups_append_of_subset (ids_nodup indexed) fun id member => ?_
  obtain ⟨edge, linked, ends⟩ := List.mem_flatMap.mp member
  have inside := coherent.inside edge linked
  obtain ⟨source, held, left⟩ := mem_ids indexed inside.1
  obtain ⟨target, known, right⟩ := mem_ids indexed inside.2
  simp only [List.mem_cons, List.not_mem_nil, or_false, ← left, ← right] at ends
  obtain rfl | rfl := ends
  · exact List.mem_map_of_mem held
  · exact List.mem_map_of_mem known

theorem flatMap_of_key {α β : Type} {key : α → String} {f : α → List β} {xs : List α} {x : α}
    (distinct : (xs.map key).Nodup) (member : x ∈ xs) :
    (xs.flatMap fun y => if key y = key x then f y else []) = f x := by
  induction xs with
  | nil => cases member
  | cons y ys ih =>
    rw [List.map_cons, List.nodup_cons] at distinct
    rw [List.flatMap_cons]
    obtain rfl | later := List.mem_cons.mp member
    · have others : (ys.flatMap fun y => if key y = key x then f y else []) = [] := by
        rw [List.flatMap_eq_nil_iff]
        intro z held
        have other : key z ≠ key x := fun same => distinct.1 (same ▸ List.mem_map_of_mem held)
        exact if_neg other
      rw [if_pos rfl, others, List.append_nil]
    · have other : key y ≠ key x := fun same => distinct.1 (same ▸ List.mem_map_of_mem later)
      rw [if_neg other, List.nil_append]
      exact ih distinct.2 later

theorem content_written (indexed : g.Indexed) {v : Vertex} (member : v ∈ g.vertices.toList) :
    Nodes.contentOf (written g) v.id.repr = ⟨(vertexAttributes v).reverse, true⟩ := by
  have assigned : (written g).flatMap (Statement.assignments v.id.repr) = vertexAttributes v := by
    have linked : g.edges.toList.flatMap (fun edge =>
        (edgeStatement edge).assignments v.id.repr) = [] :=
      List.flatMap_eq_nil_iff.mpr fun _ _ => rfl
    rw [written, List.flatMap_append, List.flatMap_map, List.flatMap_map, linked, List.append_nil]
    exact flatMap_of_key (ids_nodup indexed) member
  have declared : (written g).any (Statement.declares v.id.repr) = true := by
    rw [List.any_eq_true]
    refine ⟨vertexStatement v, ?_, beq_self_eq_true _⟩
    exact List.mem_append_left _ (List.mem_map_of_mem member)
  rw [Nodes.contentOf, assigned, declared]

def recordOfVertex (v : Vertex) : VertexRecord where
  id := UInt64.ofNat v.id
  kind := v.kind.text
  direction := some v.direction.text
  name := v.name
  location := v.location

theorem recordOf_written (indexed : g.Indexed) {v : Vertex} (member : v ∈ g.vertices.toList)
    (small : v.id < UInt64.size) :
    (Nodes.ofStatements (written g)).recordOf v.id.repr = .ok (recordOfVertex v) := by
  have recorded := Nodes.recorded_ofStatements (written g)
  have mentioned : v.id.repr ∈ (written g).flatMap Statement.mentions := by
    refine List.mem_flatMap.mpr ⟨vertexStatement v, ?_, List.mem_singleton_self _⟩
    exact List.mem_append_left _ (List.mem_map_of_mem member)
  have known : (Nodes.ofStatements (written g)).known.getD v.id.repr {} =
      ⟨(vertexAttributes v).reverse, true⟩ := by
    rw [Std.TreeMap.getD_eq_getD_getElem?, recorded.known, if_pos mentioned,
      content_written indexed member]
    rfl
  have number : Nodes.idOf v.id.repr ⟨(vertexAttributes v).reverse, true⟩ =
      .ok (UInt64.ofNat v.id) := by
    have own : Node.attribute? ⟨(vertexAttributes v).reverse, true⟩ "id" = some v.id.repr := rfl
    rw [Nodes.idOf, own]
    simp only [readUInt64_repr small]
  simp only [Nodes.recordOf, known, number]
  rfl

theorem edges_written (g : Graph) :
    (Nodes.ofStatements (written g)).edges.toList =
      g.edges.toList.map fun edge => (edge.1.repr, edge.2.repr) := by
  have listed : g.vertices.toList.flatMap (fun v => (vertexStatement v).neighbours) = [] :=
    List.flatMap_eq_nil_iff.mpr fun _ _ => rfl
  rw [Nodes.edges_ofStatements, written, List.flatMap_append, List.flatMap_map, List.flatMap_map,
    listed, List.nil_append, ← List.flatMap_pure_eq_map]
  rfl

theorem describe_written (coherent : g.Coherent) (indexed : g.Indexed)
    (small : g.vertexCount ≤ UInt64.size) :
    (Nodes.ofStatements (written g)).describe = .ok (Description.ofGraph g) := by
  have order := order_written coherent indexed
  refine Nodes.describe_eq ?_ ?_ ?_
  · rw [order]
    exact ids_nodup indexed
  · rw [order]
    refine List.forall₂_map_left_iff.mpr (List.forall₂_map_right_iff.mpr (List.forall₂_same.mpr ?_))
    intro v member
    exact recordOf_written indexed member (Nat.lt_of_lt_of_le (indexed.id_lt member) small)
  · have numbered {id : VertexId} (inside : id < g.vertexCount) :
        (id.repr, UInt64.ofNat id) ∈ (g.vertices.toList.map fun v => v.id.repr).zip
          ((g.vertices.toList.map recordOfVertex).map VertexRecord.id) := by
      obtain ⟨v, member, rfl⟩ := mem_ids indexed inside
      rw [List.map_map, List.zip_map']
      exact List.mem_map_of_mem member
    rw [order, edges_written]
    refine List.forall₂_map_left_iff.mpr (List.forall₂_map_right_iff.mpr (List.forall₂_same.mpr ?_))
    intro edge linked
    have inside := coherent.inside edge linked
    exact ⟨numbered inside.1, numbered inside.2⟩

end Described

/-- A netlist is read back from its text as it was, whatever its names and locations hold. The bound
is that of the numbers in a description, which have 64 bits. -/
theorem readDescription_write {g : Graph} (netlist : g.IsNetlist)
    (small : g.vertexCount ≤ UInt64.size) :
    readDescription (write g) = .ok (Description.ofGraph g) := by
  obtain ⟨found, read, nonempty, accepted⟩ := statements_write g
  have described := describe_written netlist.coherent netlist.indexed small
  simp [readDescription, read, Except.mapError, nonempty, accepted, described]

/-- Names and locations with everything that is special in the text. -/
def quotedNetlist : Graph :=
  let vertex (name location : String) : Operation :=
    .vertex { kind := .port, direction := .inOut, name, location, isTop := false }
  Graph.empty.performAll [vertex "a \"b\" \\" "//", vertex "\x7d\n]; /* # */" "\\\n",
    vertex "" "é->", .edge 0 1, .edge 1 1, .edge 2 0]

theorem readDescription_write_quoted :
    quotedNetlist.IsNetlist ∧ quotedNetlist.vertexCount ≤ UInt64.size ∧
      readDescription (write quotedNetlist) = .ok (Description.ofGraph quotedNetlist) := by
  have netlist : quotedNetlist.IsNetlist := ⟨_, rfl⟩
  have small : quotedNetlist.vertexCount ≤ UInt64.size := by decide
  exact ⟨netlist, small, readDescription_write netlist small⟩

end SignalPaths.Dot
