import SignalPaths.Dot.Statement

/-!
Whole DOT documents: the heading of a directed graph and the statements between its braces.
-/

namespace SignalPaths.Dot

namespace Statement

theorem length_of_continued {last : Nat} {first : String} {tokens rest : List Token}
    {statement : Statement} (ok : continued last first tokens = .ok (statement, rest)) :
    rest.length ≤ tokens.length := by
  unfold continued at ok
  split at ok
  · obtain ⟨_, listed, ok⟩ := except_bind_ok ok
    cases ok
    exact length_of_attributes listed
  split at ok
  · simp [fail] at ok
  split at ok
  · obtain ⟨_, valued, ok⟩ := except_bind_ok ok
    cases ok
    have := length_of_identifier valued
    simp only [List.length_cons]
    omega
  · obtain ⟨_, second, ok⟩ := except_bind_ok ok
    obtain ⟨_, linked, ok⟩ := except_bind_ok ok
    obtain ⟨_, listed, ok⟩ := except_bind_ok ok
    cases ok
    have := length_of_identifier second
    have := length_of_links linked
    have := length_of_attributes listed
    simp only [List.length_cons]
    omega
  · obtain ⟨_, listed, ok⟩ := except_bind_ok ok
    cases ok
    exact length_of_attributes listed

theorem length_of_read {last : Nat} {tokens rest : List Token} {statement : Statement}
    (ok : read last tokens = .ok (statement, rest)) : rest.length < tokens.length := by
  unfold read at ok
  split at ok
  · exact Nat.lt_succ_of_le (length_of_continued ok)
  · simp [fail] at ok

end Statement

open Statement

/-- Reads statements up to the closing brace, with which the document ends. `found` holds those read
so far, the last one first. -/
def body (last : Nat) (found : List Statement) (tokens : List Token) :
    Except SyntaxError (List Statement) :=
  match tokens with
  | [] => fail last [] .unterminatedGraph
  | ⟨.closeBrace, _⟩ :: rest =>
    if rest.isEmpty then .ok found.reverse else fail last rest .trailingContent
  | ⟨.semicolon, _⟩ :: rest => body last found rest
  | token :: others =>
    match _ : Statement.read last (token :: others) with
    | .ok (statement, rest) => body last (statement :: found) rest
    | .error error => .error error
termination_by tokens.length
decreasing_by
  · simp
  · exact length_of_read ‹_›

def openBrace (last : Nat) : List Token → Except SyntaxError (List Token)
  | ⟨.openBrace, _⟩ :: rest => .ok rest
  | rest => fail last rest .expectedOpeningBrace

/-- Skips the name of the graph, if it has one. -/
def skipName : List Token → List Token
  | ⟨.identifier _, _⟩ :: rest => rest
  | rest => rest

def isWord (word text : String) : Bool := text.toLower == word

/-- Reads the heading, in which the case of letters does not count. A heading of another word is
reported on the first line. -/
def heading (last : Nat) (tokens : List Token) : Except SyntaxError (List Token) := do
  let (first, rest) ← identifier last tokens
  let (word, rest) ← if isWord "strict" first then identifier last rest else pure (first, rest)
  if isWord "digraph" word then
    openBrace last (skipName rest)
  else
    .error ⟨1, .expectedDigraph word⟩

/-- The statements of a document, given by its tokens. -/
def statements (tokens : List Token) : Except SyntaxError (List Statement) := do
  let last := (tokens.getLast?.map Token.line).getD 1
  body last [] (← heading last tokens)

end SignalPaths.Dot
