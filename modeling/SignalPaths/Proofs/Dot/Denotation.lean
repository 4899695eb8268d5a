import SignalPaths.Proofs.Dot.Lexing
import SignalPaths.Proofs.Dot.Meaning

/-!
What the statements of a document denote, said of the statements as a whole: where they stand and
how the attributes of a node are spread over them makes no difference, except that the last
assignment of an attribute counts. The reader gives this description, or the fault of the first
node that has one.
-/

namespace SignalPaths.Dot

/-- The identifiers of node statements and chains, in the order of their first mention. -/
def mentioned (statements : List Statement) : List String :=
  (statements.flatMap Statement.mentions).eraseDups

def Declared (statements : List Statement) (id : String) : Prop :=
  ∃ attributes, Statement.node id attributes ∈ statements

/-- The value of the last assignment to a key in all node statements of an identifier. -/
def assigned? (statements : List Statement) (id key : String) : Option String :=
  ((statements.flatMap (Statement.assignments id)).filter fun entry => entry.1 == key).getLast?.map
    Prod.snd

def number? (statements : List Statement) (id : String) : Option UInt64 :=
  Text.readUInt64 ((assigned? statements id "id").getD id)

structure Complete (statements : List Statement) (id : String) : Prop where
  declared : Declared statements id
  numbered : ∃ number, number? statements id = some number
  typed : ∃ kind, assigned? statements id "type" = some kind

structure Describes (statements : List Statement) (id : String) (record : VertexRecord) :
    Prop where
  declared : Declared statements id
  number : number? statements id = some record.id
  kind : assigned? statements id "type" = some record.kind
  direction : assigned? statements id "dir" = record.direction
  name : (assigned? statements id "name").getD "" = record.name
  location : (assigned? statements id "loc").getD "" = record.location

/-- What is wrong with a node that is not complete. Of several faults, the one listed first. -/
inductive Fault (statements : List Statement) (id : String) : LoadError → Prop where
  | undeclared (absent : ¬ Declared statements id) : Fault statements id (.unknownVertex id)
  | invalidId {value : String} (declared : Declared statements id)
      (given : assigned? statements id "id" = some value)
      (unreadable : Text.readUInt64 value = none) :
      Fault statements id (.invalidAttribute id "id" value)
  | missingId (declared : Declared statements id) (absent : assigned? statements id "id" = none)
      (unreadable : Text.readUInt64 id = none) : Fault statements id (.missingAttribute id "id")
  | missingType (declared : Declared statements id)
      (numbered : ∃ number, number? statements id = some number)
      (absent : assigned? statements id "type" = none) :
      Fault statements id (.missingAttribute id "type")

structure Denotes (statements : List Statement) (d : Description) : Prop where
  vertices : List.Forall₂ (Describes statements) (mentioned statements) d.vertices
  edges : List.Forall₂
    (fun pair edge => number? statements pair.1 = some edge.source ∧
      number? statements pair.2 = some edge.target)
    (statements.flatMap Statement.neighbours) d.edges

/-- The fault of the first node that is not complete. -/
def FirstFault (statements : List Statement) (error : LoadError) : Prop :=
  ∃ before id after, mentioned statements = before ++ id :: after ∧
    (∀ other ∈ before, Complete statements other) ∧ Fault statements id error

section Records

variable {statements : List Statement} {id key : String}

theorem lookup_reverse (entries : List (String × String)) (key : String) :
    entries.reverse.lookup key =
      (entries.filter fun entry => entry.1 == key).getLast?.map Prod.snd := by
  induction entries using List.reverseRecOn with
  | nil => rfl
  | append_singleton entries entry ih =>
    rw [List.reverse_append, List.reverse_singleton, List.singleton_append, List.lookup_cons,
      List.filter_append]
    by_cases same : entry.1 = key
    · simp [same]
    · have other : (key == entry.1) = false := beq_false_of_ne fun h => same h.symm
      simp [other, same, ih]

theorem attribute?_contentOf (statements : List Statement) (id key : String) :
    (Nodes.contentOf statements id).attribute? key = assigned? statements id key :=
  lookup_reverse _ key

theorem declared_contentOf :
    (Nodes.contentOf statements id).declared = true ↔ Declared statements id := by
  simp only [Nodes.contentOf, List.any_eq_true, Declared]
  constructor
  · intro found
    obtain ⟨statement, member, declares⟩ := found
    cases statement with
    | node other attributes =>
      obtain rfl : other = id := by simpa [Statement.declares] using declares
      exact ⟨attributes, member⟩
    | ignored => cases declares
    | chain => cases declares
  · intro declared
    obtain ⟨attributes, member⟩ := declared
    exact ⟨_, member, beq_self_eq_true id⟩

theorem known_ofStatements (statements : List Statement) (id : String) :
    (Nodes.ofStatements statements).known.getD id {} = Nodes.contentOf statements id := by
  have recorded := Nodes.recorded_ofStatements statements
  rw [Std.TreeMap.getD_eq_getD_getElem?, recorded.known]
  split
  · rfl
  · next unmet => exact (recorded.silent id unmet).symm

theorem idOf_contentOf (statements : List Statement) (id : String) :
    Nodes.idOf id (Nodes.contentOf statements id) =
      match number? statements id with
      | some number => .ok number
      | none => match assigned? statements id "id" with
        | some value => .error (.invalidAttribute id "id" value)
        | none => .error (.missingAttribute id "id") := by
  rw [Nodes.idOf, attribute?_contentOf, number?]
  cases assigned? statements id "id" with
  | none => rfl
  | some value => rfl

theorem recordOf_undeclared (absent : ¬ Declared statements id) :
    (Nodes.ofStatements statements).recordOf id = .error (.unknownVertex id) := by
  rw [← declared_contentOf, Bool.not_eq_true] at absent
  simp [Nodes.recordOf, known_ofStatements, absent]
  rfl

theorem recordOf_declared (declared : Declared statements id) :
    (Nodes.ofStatements statements).recordOf id = (do
      let number ← Nodes.idOf id (Nodes.contentOf statements id)
      match assigned? statements id "type" with
      | none => throw (.missingAttribute id "type")
      | some kind => return {
          id := number, kind, direction := assigned? statements id "dir",
          name := (assigned? statements id "name").getD "",
          location := (assigned? statements id "loc").getD "" }) := by
  rw [← declared_contentOf] at declared
  simp only [Nodes.recordOf, known_ofStatements, declared, attribute?_contentOf]
  rfl

theorem recordOf_describes {record : VertexRecord} (describes : Describes statements id record) :
    (Nodes.ofStatements statements).recordOf id = .ok record := by
  rw [recordOf_declared describes.declared, idOf_contentOf, describes.number, describes.kind,
    describes.direction, describes.name, describes.location]
  rfl

theorem recordOf_fault {error : LoadError} (fault : Fault statements id error) :
    (Nodes.ofStatements statements).recordOf id = .error error := by
  cases fault with
  | undeclared absent => exact recordOf_undeclared absent
  | invalidId declared given unreadable =>
    have unnumbered : number? statements id = none := by rw [number?, given]; exact unreadable
    rw [recordOf_declared declared, idOf_contentOf, unnumbered, given]
    rfl
  | missingId declared absent unreadable =>
    have unnumbered : number? statements id = none := by rw [number?, absent]; exact unreadable
    rw [recordOf_declared declared, idOf_contentOf, unnumbered, absent]
    rfl
  | missingType declared numbered absent =>
    obtain ⟨number, numbered⟩ := numbered
    rw [recordOf_declared declared, idOf_contentOf, numbered, absent]
    rfl

theorem Complete.describes (complete : Complete statements id) :
    ∃ record, Describes statements id record := by
  obtain ⟨declared, ⟨number, numbered⟩, ⟨kind, typed⟩⟩ := complete
  exact ⟨⟨number, kind, _, _, _⟩, declared, numbered, typed, rfl, rfl, rfl⟩

theorem Describes.complete {record : VertexRecord} (describes : Describes statements id record) :
    Complete statements id :=
  ⟨describes.declared, ⟨_, describes.number⟩, ⟨_, describes.kind⟩⟩

theorem complete_or_fault (statements : List Statement) (id : String) :
    Complete statements id ∨ ∃ error, Fault statements id error := by
  by_cases declared : Declared statements id
  · cases numbered : number? statements id with
    | none =>
      cases given : assigned? statements id "id" with
      | none =>
        rw [number?, given] at numbered
        exact .inr ⟨_, .missingId declared given numbered⟩
      | some value =>
        rw [number?, given] at numbered
        exact .inr ⟨_, .invalidId declared given numbered⟩
    | some number =>
      cases typed : assigned? statements id "type" with
      | none => exact .inr ⟨_, .missingType declared ⟨number, numbered⟩ typed⟩
      | some kind => exact .inl ⟨declared, ⟨number, numbered⟩, ⟨kind, typed⟩⟩
  · exact .inr ⟨_, .undeclared declared⟩

theorem recordOf_ok_iff {record : VertexRecord} :
    (Nodes.ofStatements statements).recordOf id = .ok record ↔
      Describes statements id record := by
  constructor
  · intro ok
    obtain complete | ⟨error, fault⟩ := complete_or_fault statements id
    · obtain ⟨other, describes⟩ := complete.describes
      rw [recordOf_describes describes] at ok
      exact Except.ok.inj ok ▸ describes
    · rw [recordOf_fault fault] at ok
      cases ok
  · exact recordOf_describes

theorem recordOf_error_iff {error : LoadError} :
    (Nodes.ofStatements statements).recordOf id = .error error ↔ Fault statements id error := by
  constructor
  · intro failed
    obtain complete | ⟨other, fault⟩ := complete_or_fault statements id
    · obtain ⟨record, describes⟩ := complete.describes
      rw [recordOf_describes describes] at failed
      cases failed
    · rw [recordOf_fault fault] at failed
      exact Except.error.inj failed ▸ fault
  · exact recordOf_fault

end Records

section Descriptions

variable {statements : List Statement} {d : Description} {records : List VertexRecord}
  {error : LoadError}

theorem mem_mentioned_of_neighbours {pair : String × String}
    (linked : pair ∈ statements.flatMap Statement.neighbours) :
    pair.1 ∈ mentioned statements ∧ pair.2 ∈ mentioned statements := by
  simp only [mentioned, List.mem_eraseDups, List.mem_flatMap] at linked ⊢
  obtain ⟨statement, member, linked⟩ := linked
  cases statement with
  | ignored => cases linked
  | node => cases linked
  | chain first second others =>
    obtain ⟨left, right⟩ := List.of_mem_zip linked
    exact ⟨⟨_, member, left⟩, ⟨_, member, List.mem_cons_of_mem first right⟩⟩

theorem order_ofStatements (statements : List Statement) :
    (Nodes.ofStatements statements).order.toList = mentioned statements :=
  (Nodes.recorded_ofStatements statements).order

theorem mem_zip_numbers {id : String} {number : UInt64}
    (described : List.Forall₂ (Describes statements) (mentioned statements) records)
    (member : id ∈ mentioned statements) (numbered : number? statements id = some number) :
    (id, number) ∈ (mentioned statements).zip (records.map VertexRecord.id) := by
  have left : ((mentioned statements).zip records).map Prod.fst = mentioned statements :=
    List.map_fst_zip (Nat.le_of_eq described.length_eq)
  rw [← left] at member
  obtain ⟨pair, zipped, rfl⟩ := List.mem_map.mp member
  have describes := List.forall₂_zip described zipped
  rw [describes.number, Option.some_inj] at numbered
  rw [List.zip_map_right, ← numbered]
  exact List.mem_map.mpr ⟨pair, zipped, rfl⟩

theorem describe_of_denotes (denotes : Denotes statements d) :
    (Nodes.ofStatements statements).describe = .ok d := by
  apply Nodes.describe_eq
  · rw [order_ofStatements]
    exact nodup_eraseDups _
  · rw [order_ofStatements]
    exact denotes.vertices.imp fun _ _ => recordOf_describes
  · rw [order_ofStatements, Nodes.edges_ofStatements, List.forall₂_iff_zip]
    refine ⟨denotes.edges.length_eq, ?_⟩
    intro pair edge zipped
    obtain ⟨left, right⟩ := mem_mentioned_of_neighbours (List.of_mem_zip zipped).1
    obtain ⟨source, target⟩ := List.forall₂_zip denotes.edges zipped
    exact ⟨mem_zip_numbers denotes.vertices left source,
      mem_zip_numbers denotes.vertices right target⟩

/-- Where all nodes are described, the edges between them are too. -/
theorem denotes_of_described
    (described : List.Forall₂ (Describes statements) (mentioned statements) records) :
    ∃ edges, Denotes statements ⟨records, edges⟩ := by
  have numbered {id : String} (member : id ∈ mentioned statements) :
      ∃ number, number? statements id = some number := by
    obtain ⟨record, _, describes⟩ := forall₂_mem_left described member
    exact ⟨record.id, describes.number⟩
  have each : ∀ pair ∈ statements.flatMap Statement.neighbours, ∃ edge : EdgeRecord,
      number? statements pair.1 = some edge.source ∧
        number? statements pair.2 = some edge.target := by
    intro pair linked
    obtain ⟨left, right⟩ := mem_mentioned_of_neighbours linked
    obtain ⟨source, first⟩ := numbered left
    obtain ⟨target, second⟩ := numbered right
    exact ⟨⟨source, target⟩, first, second⟩
  obtain ⟨edges, linked⟩ := exists_forall₂ each
  exact ⟨edges, described, linked⟩

theorem exists_denotes_iff :
    (∃ d, Denotes statements d) ↔ ∀ id ∈ mentioned statements, Complete statements id := by
  constructor
  · intro found id member
    obtain ⟨d, denotes⟩ := found
    obtain ⟨record, _, describes⟩ := forall₂_mem_left denotes.vertices member
    exact describes.complete
  · intro complete
    obtain ⟨records, described⟩ := exists_forall₂ fun id member => (complete id member).describes
    obtain ⟨edges, denotes⟩ := denotes_of_described described
    exact ⟨_, denotes⟩

theorem describe_of_firstFault (first : FirstFault statements error) :
    (Nodes.ofStatements statements).describe = .error error := by
  obtain ⟨before, id, after, split, fine, fault⟩ := first
  have failed : (mentioned statements).mapM (Nodes.ofStatements statements).recordOf =
      .error error := by
    apply mapM_error_iff.mpr
    refine ⟨before, id, after, split, ?_, recordOf_fault fault⟩
    intro other member
    obtain ⟨record, describes⟩ := (fine other member).describes
    exact ⟨record, recordOf_describes describes⟩
  rw [Nodes.describe, order_ofStatements, failed]
  rfl

theorem denotes_or_firstFault (statements : List Statement) :
    (∃ d, Denotes statements d) ∨ ∃ error, FirstFault statements error := by
  cases found : (mentioned statements).mapM (Nodes.ofStatements statements).recordOf with
  | ok records =>
    have described := (mapM_ok_iff.mp found).imp fun _ _ => recordOf_ok_iff.mp
    obtain ⟨edges, denotes⟩ := denotes_of_described described
    exact .inl ⟨_, denotes⟩
  | error error =>
    obtain ⟨before, id, after, split, fine, failed⟩ := mapM_error_iff.mp found
    refine .inr ⟨error, before, id, after, split, ?_, recordOf_error_iff.mp failed⟩
    intro other member
    obtain ⟨record, ok⟩ := fine other member
    exact (recordOf_ok_iff.mp ok).complete

theorem describe_ok_iff :
    (Nodes.ofStatements statements).describe = .ok d ↔ Denotes statements d := by
  constructor
  · intro ok
    obtain ⟨other, denotes⟩ | ⟨error, first⟩ := denotes_or_firstFault statements
    · rw [describe_of_denotes denotes] at ok
      exact Except.ok.inj ok ▸ denotes
    · rw [describe_of_firstFault first] at ok
      cases ok
  · exact describe_of_denotes

theorem describe_error_iff :
    (Nodes.ofStatements statements).describe = .error error ↔ FirstFault statements error := by
  constructor
  · intro failed
    obtain ⟨d, denotes⟩ | ⟨other, first⟩ := denotes_or_firstFault statements
    · rw [describe_of_denotes denotes] at failed
      cases failed
    · rw [describe_of_firstFault first] at failed
      exact Except.error.inj failed ▸ first
  · exact describe_of_firstFault

end Descriptions

/-- The statements that are not dropped. -/
def significant (statements : List Statement) : List Statement :=
  statements.filter fun statement => statement != .ignored

theorem ofStatements_significant (statements : List Statement) :
    Nodes.ofStatements (significant statements) = Nodes.ofStatements statements := by
  rw [Nodes.ofStatements, significant, List.foldl_filter, Nodes.ofStatements]
  congr 1
  funext nodes statement
  cases statement <;> rfl

theorem readDescription_of_statements {text : String} {found : List Token}
    {said : List Statement} (lexed : tokens text = .ok found) (parsed : statements found = .ok said) :
    readDescription text = (Nodes.ofStatements said).describe := by
  have nonempty : found ≠ [] := by
    intro empty
    rw [empty] at parsed
    cases parsed
  simp [readDescription, lexed, parsed, nonempty]

/-- A text that is a document denotes a description exactly if all its nodes are complete, and is
refused for its first incomplete node otherwise. Whatever else it holds makes no difference. -/
theorem readDescription_denotes {text : String} {found : List Token} {said : List Statement}
    (lexed : tokens text = .ok found) (parsed : statements found = .ok said) :
    Grammar.Document said (symbols found) ∧
    ((∃ d, readDescription text = .ok d) ↔ ∀ id ∈ mentioned said, Complete said id) ∧
    (∀ d, readDescription text = .ok d ↔ Denotes said d) ∧
    (∀ error, readDescription text = .error error ↔ FirstFault said error) ∧
    ∀ other found' said', tokens other = .ok found' → statements found' = .ok said' →
      significant said' = significant said → readDescription other = readDescription text := by
  have answer := readDescription_of_statements lexed parsed
  refine ⟨(statements_eq_ok_iff found said).mp parsed, ?_, ?_, ?_, ?_⟩
  · rw [answer, ← exists_denotes_iff]
    exact exists_congr fun _ => describe_ok_iff
  · intro d
    rw [answer]
    exact describe_ok_iff
  · intro error
    rw [answer]
    exact describe_error_iff
  · intro other found' said' lexed' parsed' same
    rw [answer, readDescription_of_statements lexed' parsed', ← ofStatements_significant, same,
      ofStatements_significant]

/-- One node is used before it is declared, and declared twice. -/
def spreadText : String :=
  "digraph \x7b a -> 2; node [x]; a [id=1, type=VAR]; 2 [type=WIRE, dir=IN];\n" ++
    "a [type=PORT] [name=\"q\"] \x7d"

def spreadStatements : List Statement :=
  [.chain "a" "2" [], .ignored, .node "a" [("id", "1"), ("type", "VAR")],
    .node "2" [("type", "WIRE"), ("dir", "IN")], .node "a" [("type", "PORT"), ("name", "q")]]

theorem readDescription_denotes_spread :
    ∃ found, tokens spreadText = .ok found ∧ statements found = .ok spreadStatements ∧
      readDescription spreadText =
        .ok ⟨[⟨1, "PORT", none, "q", ""⟩, ⟨2, "WIRE", some "IN", "", ""⟩], [⟨1, 2⟩]⟩ := by
  have spelled : tokens spreadText >>= statements = .ok spreadStatements := by decide +kernel
  obtain ⟨found, lexed, parsed⟩ := except_bind_ok spelled
  refine ⟨found, lexed, parsed, ((readDescription_denotes lexed parsed).2.2.1 _).mpr ?_⟩
  have first : Describes spreadStatements "a" ⟨1, "PORT", none, "q", ""⟩ :=
    ⟨⟨[("id", "1"), ("type", "VAR")], by decide⟩, by decide, by decide, by decide, by decide, by decide⟩
  have second : Describes spreadStatements "2" ⟨2, "WIRE", some "IN", "", ""⟩ :=
    ⟨⟨[("type", "WIRE"), ("dir", "IN")], by decide⟩, by decide, by decide, by decide, by decide, by decide⟩
  have order : mentioned spreadStatements = ["a", "2"] := by decide
  constructor
  · rw [order]
    exact .cons first (.cons second .nil)
  · exact .cons ⟨first.number, second.number⟩ .nil

end SignalPaths.Dot
