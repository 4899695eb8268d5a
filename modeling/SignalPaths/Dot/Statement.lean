import SignalPaths.Dot.Token

/-!
Statements of DOT, read from tokens by recursive descent. One directed graph is read: node
statements with attribute lists, and chains of edges. Attributes of the graph and default
attributes are read and dropped. Errors are placed on the line of the first token that was not
read, or of the last token where none is left.
-/

namespace SignalPaths.Dot

inductive Statement where
  | ignored
  | node (id : String) (attributes : List (String × String))
  | chain (first second : String) (others : List String)
  deriving DecidableEq, Repr

namespace Statement

variable {α : Type}

/-- A syntax error at the first of the tokens that remain; `last` is the line of the last token of
all. -/
def fail (last : Nat) (tokens : List Token) (cause : SyntaxCause) : Except SyntaxError α :=
  .error ⟨(tokens.head?.map Token.line).getD last, cause⟩

def identifier (last : Nat) : List Token → Except SyntaxError (String × List Token)
  | ⟨.identifier text, _⟩ :: rest => .ok (text, rest)
  | rest => fail last rest .expectedIdentifier

def skipSeparator : List Token → List Token
  | ⟨.comma, _⟩ :: rest => rest
  | ⟨.semicolon, _⟩ :: rest => rest
  | rest => rest

theorem length_skipSeparator_le (tokens : List Token) :
    (skipSeparator tokens).length ≤ tokens.length := by
  unfold skipSeparator
  split <;> simp

/-- Reads attribute lists as long as they follow each other. The flag says whether a list is open,
and the first list holds the attributes read so far, the last one first. An attribute without a
value is true. -/
def attributes (last : Nat) : Bool → List (String × String) → List Token →
    Except SyntaxError (List (String × String) × List Token)
  | false, read, ⟨.openBracket, _⟩ :: rest => attributes last true read rest
  | false, read, rest => .ok (read.reverse, rest)
  | true, read, ⟨.closeBracket, _⟩ :: rest => attributes last false read rest
  | true, read, ⟨.identifier key, _⟩ :: ⟨.equals, _⟩ :: ⟨.identifier value, _⟩ :: rest =>
    attributes last true ((key, value) :: read) (skipSeparator rest)
  | true, _, ⟨.identifier _, _⟩ :: ⟨.equals, _⟩ :: rest => fail last rest .expectedIdentifier
  | true, read, ⟨.identifier key, _⟩ :: rest =>
    attributes last true ((key, "true") :: read) (skipSeparator rest)
  | true, _, rest => fail last rest .expectedIdentifier
termination_by _ _ tokens => tokens.length
decreasing_by
  · simp
  · simp
  · have := length_skipSeparator_le rest
    simp only [List.length_cons]
    omega
  · have := length_skipSeparator_le rest
    simp only [List.length_cons]
    omega

/-- Reads the rest of a chain of edges. -/
def links (last : Nat) (read : List String) :
    List Token → Except SyntaxError (List String × List Token)
  | ⟨.arrow, _⟩ :: ⟨.identifier id, _⟩ :: rest => links last (id :: read) rest
  | ⟨.arrow, _⟩ :: rest => fail last rest .expectedIdentifier
  | rest => .ok (read.reverse, rest)

/-- Reads what follows the first identifier of a statement. -/
def continued (last : Nat) (first : String) (tokens : List Token) :
    Except SyntaxError (Statement × List Token) :=
  if first = "graph" ∨ first = "node" ∨ first = "edge" then do
    let (_, rest) ← attributes last false [] tokens
    return (ignored, rest)
  else if first = "subgraph" then
    fail last tokens .subgraph
  else
    match tokens with
    | ⟨.equals, _⟩ :: rest => do
      let (_, rest) ← identifier last rest
      return (ignored, rest)
    | ⟨.arrow, _⟩ :: rest => do
      let (second, rest) ← identifier last rest
      let (others, rest) ← links last [] rest
      let (_, rest) ← attributes last false [] rest
      return (chain first second others, rest)
    | rest => do
      let (read, rest) ← attributes last false [] rest
      return (node first read, rest)

def read (last : Nat) : List Token → Except SyntaxError (Statement × List Token)
  | ⟨.identifier first, _⟩ :: rest => continued last first rest
  | rest => fail last rest .expectedIdentifier

theorem length_of_identifier {last : Nat} {tokens rest : List Token} {text : String}
    (ok : identifier last tokens = .ok (text, rest)) : rest.length < tokens.length := by
  unfold identifier at ok
  split at ok
  · cases ok; simp
  · simp [fail] at ok

theorem length_of_attributes {last : Nat} {inside : Bool} {read found : List (String × String)}
    {tokens rest : List Token} (ok : attributes last inside read tokens = .ok (found, rest)) :
    rest.length ≤ tokens.length := by
  fun_induction attributes last inside read tokens with
  | case1 => rename_i ih; have := ih ok; simp only [List.length_cons]; omega
  | case2 => cases ok; simp
  | case3 => rename_i ih; have := ih ok; simp only [List.length_cons]; omega
  | case4 =>
    rename_i after ih
    have := ih ok
    have := length_skipSeparator_le after
    simp only [List.length_cons]
    omega
  | case5 => simp [fail] at ok
  | case6 =>
    rename_i after _ _ ih
    have := ih ok
    have := length_skipSeparator_le after
    simp only [List.length_cons]
    omega
  | case7 => simp [fail] at ok

theorem length_of_links {last : Nat} {read found : List String} {tokens rest : List Token}
    (ok : links last read tokens = .ok (found, rest)) : rest.length ≤ tokens.length := by
  fun_induction links last read tokens with
  | case1 _ _ _ _ _ ih => have := ih ok; simp only [List.length_cons]; omega
  | case2 => simp [fail] at ok
  | case3 => cases ok; simp

end Statement

end SignalPaths.Dot
