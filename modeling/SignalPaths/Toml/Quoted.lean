import SignalPaths.Text

/-!
The four kinds of TOML strings. Each reader takes the text after the opening quotes and gives what
the string says and the text after it. In strings over several lines every line break counts as
one line feed, the one after the opening quotes is dropped, and up to two quotes may stand right
before the closing ones.
-/

namespace SignalPaths.Toml

/-- Characters that may stand in comments and strings: all but controls, and the tab. -/
def isPlain (c : Char) : Bool := c == '\t' || (0x20 ≤ c.toNat && c.toNat != 0x7f)

def isBlank (c : Char) : Bool := c == ' ' || c == '\t'

/-- The text after a line break, if there is one at the front. -/
def afterNewline? : List Char → Option (List Char)
  | '\n' :: rest => some rest
  | '\r' :: '\n' :: rest => some rest
  | _ => none

/-- The character that an escape stands for, read after its backslash. -/
def escape? : List Char → Option (Char × List Char)
  | 'b' :: rest => some ('\x08', rest)
  | 't' :: rest => some ('\t', rest)
  | 'n' :: rest => some ('\n', rest)
  | 'f' :: rest => some ('\x0c', rest)
  | 'r' :: rest => some ('\r', rest)
  | '"' :: rest => some ('"', rest)
  | '\\' :: rest => some ('\\', rest)
  | 'u' :: a :: b :: c :: d :: rest =>
    ((Text.readHex [a, b, c, d]).bind Text.charOf?).map fun c => (c, rest)
  | 'U' :: a :: b :: c :: d :: e :: f :: g :: h :: rest =>
    ((Text.readHex [a, b, c, d, e, f, g, h]).bind Text.charOf?).map fun c => (c, rest)
  | _ => none

theorem length_of_escape {cs rest : List Char} {c : Char} (read : escape? cs = some (c, rest)) :
    rest.length < cs.length := by
  unfold escape? at read
  split at read
  case h_8 =>
    obtain ⟨_, _, same⟩ := Option.map_eq_some_iff.mp read
    cases same
    simp only [List.length_cons]
    omega
  case h_9 =>
    obtain ⟨_, _, same⟩ := Option.map_eq_some_iff.mp read
    cases same
    simp only [List.length_cons]
    omega
  case h_10 => cases read
  all_goals
    cases read
    simp

/-- A string in double quotes on one line. -/
def basic (read : List Char) (cs : List Char) : Option (String × List Char) :=
  match cs with
  | [] => none
  | '"' :: rest => some (String.ofList read.reverse, rest)
  | '\\' :: after =>
    match _ : escape? after with
    | some (c, rest) => basic (c :: read) rest
    | none => none
  | c :: rest => if isPlain c then basic (c :: read) rest else none
termination_by cs.length
decreasing_by
  · exact Nat.lt_succ_of_lt (length_of_escape ‹_›)
  · simp

/-- A string in single quotes on one line. -/
def literal (read : List Char) : List Char → Option (String × List Char)
  | [] => none
  | '\x27' :: rest => some (String.ofList read.reverse, rest)
  | c :: rest => if isPlain c then literal (c :: read) rest else none

/-- Closing quotes of a string over several lines, with the quotes before them that belong to the
string, and the text after them. -/
def closing (quote : Char) (cs : List Char) : Option (List Char × List Char) :=
  if [quote, quote, quote].isPrefixOf cs then
    let rest := cs.drop 3
    let extra := (rest.take 2).takeWhile (· == quote)
    some (extra, rest.drop extra.length)
  else none

/-- Skips blanks and line breaks. -/
def skipSpace : List Char → List Char
  | ' ' :: rest => skipSpace rest
  | '\t' :: rest => skipSpace rest
  | '\n' :: rest => skipSpace rest
  | '\r' :: '\n' :: rest => skipSpace rest
  | rest => rest

theorem length_skipSpace_le (cs : List Char) : (skipSpace cs).length ≤ cs.length := by
  fun_induction skipSpace cs with
  | case1 _ ih => simp only [List.length_cons]; omega
  | case2 _ ih => simp only [List.length_cons]; omega
  | case3 _ ih => simp only [List.length_cons]; omega
  | case4 _ ih => simp only [List.length_cons]; omega
  | case5 => exact Nat.le_refl _

/-- Whether nothing but blanks is left on the line. -/
def endsLine (cs : List Char) : Bool := (afterNewline? (cs.dropWhile isBlank)).isSome

/-- A string in double quotes over several lines. A backslash at the end of a line takes all blanks
and line breaks after it away. -/
def multiBasic (read : List Char) (cs : List Char) : Option (String × List Char) :=
  match closing '"' cs with
  | some (extra, rest) => some (String.ofList (read.reverse ++ extra), rest)
  | none =>
    match cs with
    | [] => none
    | '\\' :: after =>
      if endsLine after then multiBasic read (skipSpace after)
      else
        match _ : escape? after with
        | some (c, rest) => multiBasic (c :: read) rest
        | none => none
    | '\n' :: rest => multiBasic ('\n' :: read) rest
    | '\r' :: '\n' :: rest => multiBasic ('\n' :: read) rest
    | c :: rest => if isPlain c then multiBasic (c :: read) rest else none
termination_by cs.length
decreasing_by
  · exact Nat.lt_succ_of_le (length_skipSpace_le after)
  · exact Nat.lt_succ_of_lt (length_of_escape ‹_›)
  · simp
  · simp only [List.length_cons]
    omega
  · simp

/-- A string in single quotes over several lines. -/
def multiLiteral (read : List Char) (cs : List Char) : Option (String × List Char) :=
  match closing '\x27' cs with
  | some (extra, rest) => some (String.ofList (read.reverse ++ extra), rest)
  | none =>
    match cs with
    | [] => none
    | '\n' :: rest => multiLiteral ('\n' :: read) rest
    | '\r' :: '\n' :: rest => multiLiteral ('\n' :: read) rest
    | c :: rest => if isPlain c then multiLiteral (c :: read) rest else none

def skipNewline (cs : List Char) : List Char := (afterNewline? cs).getD cs

/-- Reads a string of any kind. -/
def quoted : List Char → Option (String × List Char)
  | '"' :: '"' :: '"' :: rest => multiBasic [] (skipNewline rest)
  | '\x27' :: '\x27' :: '\x27' :: rest => multiLiteral [] (skipNewline rest)
  | '"' :: rest => basic [] rest
  | '\x27' :: rest => literal [] rest
  | _ => none

/-- Reads a string that stands on one line. -/
def quotedLine : List Char → Option (String × List Char)
  | '"' :: rest => basic [] rest
  | '\x27' :: rest => literal [] rest
  | _ => none

end SignalPaths.Toml
