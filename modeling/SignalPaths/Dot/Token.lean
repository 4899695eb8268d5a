import SignalPaths.Dot.Quoted
import SignalPaths.Error
import SignalPaths.Text
import SignalPaths.Text.Word

/-!
Tokens of DOT. Blanks and comments stand between tokens. A comment runs from `//` or `#` to the end
of the line, or from `/*` to the next `*/`. A bare identifier is a run of word characters and dots
that may start with a minus sign. Each token knows the line it starts on.
-/

namespace SignalPaths.Dot

inductive Symbol where
  | identifier (text : String)
  | arrow
  | openBrace | closeBrace | openBracket | closeBracket
  | semicolon | comma | equals
  deriving DecidableEq, Repr

structure Token where
  symbol : Symbol
  line : Nat
  deriving DecidableEq, Repr

def isIdentifierChar (c : Char) : Bool := Text.isWord c || c == '.'

def punctuation? : Char → Option Symbol
  | '\x7b' => some .openBrace
  | '\x7d' => some .closeBrace
  | '[' => some .openBracket
  | ']' => some .closeBracket
  | ';' => some .semicolon
  | ',' => some .comma
  | '=' => some .equals
  | _ => none

/-- The text after a block comment, and the line breaks inside the comment. -/
def closeComment (newlines : Nat) : List Char → Option (Nat × List Char)
  | [] => none
  | '*' :: '/' :: rest => some (newlines, rest)
  | c :: rest => closeComment (if c = '\n' then newlines + 1 else newlines) rest

/-- What stands at the front of a text: a gap between tokens, a token, or a fault. The number is
that of the line breaks it holds. -/
inductive Lexeme where
  | gap (newlines : Nat) (rest : List Char)
  | symbol (symbol : Symbol) (newlines : Nat) (rest : List Char)
  | fault (cause : SyntaxCause)

def bareIdentifier (start rest : List Char) : Lexeme :=
  .symbol (.identifier (String.ofList (start ++ rest.takeWhile isIdentifierChar))) 0
    (rest.dropWhile isIdentifierChar)

def lexeme (c : Char) (rest : List Char) : Lexeme :=
  if Text.isBlank c then
    .gap ((c :: rest.takeWhile Text.isBlank).count '\n') (rest.dropWhile Text.isBlank)
  else
    match punctuation? c with
    | some symbol => .symbol symbol 0 rest
    | none =>
      match c, rest with
      | '#', rest => .gap 0 (rest.dropWhile (· != '\n'))
      | '/', '/' :: rest => .gap 0 (rest.dropWhile (· != '\n'))
      | '/', '*' :: rest =>
        match closeComment 0 rest with
        | some (newlines, rest) => .gap newlines rest
        | none => .fault (.unexpectedCharacter '/')
      | '"', rest =>
        match closeQuote [] rest with
        | some (body, rest) =>
          .symbol (.identifier (String.ofList (unescape body))) (body.count '\n') rest
        | none => .fault (.unexpectedCharacter '"')
      | '-', '>' :: rest => .symbol .arrow 0 rest
      | '-', '-' :: _ => .fault .undirectedEdge
      | '-', d :: rest =>
        if isIdentifierChar d then bareIdentifier ['-', d] rest
        else .fault (.unexpectedCharacter '-')
      | c, rest =>
        if isIdentifierChar c then bareIdentifier [c] rest
        else .fault (.unexpectedCharacter c)

/-- The text after a lexeme; a fault has none. -/
def Lexeme.rest : Lexeme → List Char
  | gap _ rest => rest
  | symbol _ _ rest => rest
  | fault _ => []

theorem length_dropWhile_le (test : Char → Bool) (cs : List Char) :
    (cs.dropWhile test).length ≤ cs.length :=
  (List.dropWhile_sublist test).length_le

theorem length_of_closeComment {newlines count : Nat} {cs rest : List Char}
    (closed : closeComment newlines cs = some (count, rest)) : rest.length ≤ cs.length := by
  fun_induction closeComment newlines cs with
  | case1 => simp at closed
  | case2 => simp at closed; simp [closed.2]; omega
  | case3 _ _ _ _ ih => have := ih closed; simp only [List.length_cons]; omega

theorem length_rest_lexeme (c : Char) (rest : List Char) :
    (lexeme c rest).rest.length ≤ rest.length := by
  have line := length_dropWhile_le (· != '\n')
  have word := length_dropWhile_le isIdentifierChar
  unfold lexeme
  split
  · exact length_dropWhile_le _ _
  split
  · exact Nat.le_refl _
  split
  · exact line _
  · exact Nat.le_trans (line _) (by simp)
  · split
    · next closed => exact Nat.le_trans (length_of_closeComment closed) (by simp)
    · simp [Lexeme.rest]
  · split
    · next closed => exact Nat.le_of_lt (length_of_closeQuote closed)
    · simp [Lexeme.rest]
  · simp [Lexeme.rest]
  · simp [Lexeme.rest]
  · split
    · exact Nat.le_trans (word _) (by simp)
    · simp [Lexeme.rest]
  · split
    · exact word _
    · simp [Lexeme.rest]

/-- Reads tokens from a text whose first character is on the given line. `read` holds those read
so far, the last one first. -/
def scan (line : Nat) (read : List Token) (cs : List Char) : Except SyntaxError (List Token) :=
  match cs with
  | [] => .ok read.reverse
  | c :: after =>
    match _ : lexeme c after with
    | .gap newlines rest => scan (line + newlines) read rest
    | .symbol symbol newlines rest => scan (line + newlines) (⟨symbol, line⟩ :: read) rest
    | .fault cause => .error ⟨line, cause⟩
termination_by cs.length
decreasing_by
  all_goals
    have shorter := length_rest_lexeme c after
    rw [‹lexeme c after = _›] at shorter
    exact Nat.lt_succ_of_le shorter

def tokens (text : String) : Except SyntaxError (List Token) := scan 1 [] text.toList

end SignalPaths.Dot
