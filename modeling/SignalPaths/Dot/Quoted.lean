/-!
Quoted identifiers of DOT. A quote and a backslash are written with a backslash before them.
Reading undoes that, joins lines at a backslash that ends a line, and keeps every other backslash.
A quoted identifier ends at the first quote that no backslash takes with it.
-/

namespace SignalPaths.Dot

def escapeChar (c : Char) : List Char :=
  if c = '"' ∨ c = '\\' then ['\\', c] else [c]

def escape (s : List Char) : List Char := s.flatMap escapeChar

def quote (s : String) : String := "\"" ++ String.ofList (escape s.toList) ++ "\""

def unescape : List Char → List Char
  | '\\' :: '"' :: rest => '"' :: unescape rest
  | '\\' :: '\\' :: rest => '\\' :: unescape rest
  | '\\' :: '\n' :: rest => unescape rest
  | c :: rest => c :: unescape rest
  | [] => []

/-- Splits the text after an opening quote at the closing one. `body` holds what was read so far,
last character first. A backslash takes the next character with it, unless that is a line break:
then there is no closing quote. -/
def closeQuote (body : List Char) : List Char → Option (List Char × List Char)
  | [] => none
  | '"' :: rest => some (body.reverse, rest)
  | '\\' :: '\n' :: _ => none
  | '\\' :: c :: rest => closeQuote (c :: '\\' :: body) rest
  | ['\\'] => none
  | c :: rest => closeQuote (c :: body) rest

theorem length_of_closeQuote {body cs inner rest : List Char}
    (closed : closeQuote body cs = some (inner, rest)) : rest.length < cs.length := by
  fun_induction closeQuote body cs with
  | case1 => simp at closed
  | case2 => simp at closed; simp [closed.2]
  | case3 => simp at closed
  | case4 _ _ _ _ ih => have := ih closed; simp only [List.length_cons]; omega
  | case5 => simp at closed
  | case6 _ _ _ _ _ _ _ ih => have := ih closed; simp only [List.length_cons]; omega

end SignalPaths.Dot
