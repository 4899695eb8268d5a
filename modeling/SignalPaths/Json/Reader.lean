import SignalPaths.Json.Value
import SignalPaths.Text

/-!
The JSON reader, strict about the grammar of JSON. Values may be nested to any depth. The
functions take the text that is left and give the text after what they read.
-/

namespace SignalPaths.Json

def isBlank (c : Char) : Bool := c == ' ' || c == '\t' || c == '\n' || c == '\r'

def skipBlank (cs : List Char) : List Char := cs.dropWhile isBlank

def simpleEscape? : Char → Option Char
  | '"' => some '"'
  | '\\' => some '\\'
  | '/' => some '/'
  | 'b' => some '\x08'
  | 'f' => some '\x0c'
  | 'n' => some '\n'
  | 'r' => some '\r'
  | 't' => some '\t'
  | _ => none

/-- The number of a high surrogate and a low one together. -/
def pair? (high low : Nat) : Option Nat :=
  if 0xd800 ≤ high ∧ high < 0xdc00 ∧ 0xdc00 ≤ low ∧ low < 0xe000 then
    some (0x10000 + (high - 0xd800) * 0x400 + (low - 0xdc00))
  else none

/-- The code point of four hexadecimal digits and, where these are a high surrogate, of a second
escape that follows them; with it, the text after what was used. -/
def escapedCode (first : Nat) (rest : List Char) : Nat × List Char :=
  match rest with
  | '\\' :: 'u' :: e :: f :: g :: h :: after =>
    match (Text.readHex [e, f, g, h]).bind (pair? first) with
    | some code => (code, after)
    | none => (first, rest)
  | _ => (first, rest)

theorem length_escapedCode_le (first : Nat) (rest : List Char) :
    (escapedCode first rest).2.length ≤ rest.length := by
  unfold escapedCode
  split
  · split
    · simp only [List.length_cons]
      omega
    · exact Nat.le_refl _
  · exact Nat.le_refl _

/-- Reads a string after its opening quote. `read` holds the characters so far, last one first; it
is none once there was an unpaired surrogate. -/
def stringBody (read : Option (List Char)) (cs : List Char) :
    Option (Option String × List Char) :=
  match cs with
  | [] => none
  | '"' :: rest => some (read.map fun text => String.ofList text.reverse, rest)
  | '\\' :: 'u' :: a :: b :: c :: d :: rest =>
    match Text.readHex [a, b, c, d] with
    | some first =>
      stringBody
        (read.bind fun text => (Text.charOf? (escapedCode first rest).1).map (· :: text))
        (escapedCode first rest).2
    | none => none
  | '\\' :: c :: rest =>
    match simpleEscape? c with
    | some escaped => stringBody (read.map (escaped :: ·)) rest
    | none => none
  | c :: rest =>
    if c.toNat < 0x20 || c == '\\' then none else stringBody (read.map (c :: ·)) rest
termination_by cs.length
decreasing_by
  · have := length_escapedCode_le first rest
    simp only [List.length_cons]
    omega
  · simp only [List.length_cons]
    omega
  · simp

def digits (cs : List Char) : Option (List Char × List Char) :=
  match cs.takeWhile Char.isDigit with
  | [] => none
  | run => some (run, cs.dropWhile Char.isDigit)

/-- A zero stands alone; every other number starts with another digit. -/
def wholePart : List Char → Option (List Char × List Char)
  | '0' :: rest => if (rest.head?.map Char.isDigit).getD false then none else some (['0'], rest)
  | cs => digits cs

def fraction : List Char → Option (List Char × List Char)
  | '.' :: rest => (digits rest).map fun (run, rest) => ('.' :: run, rest)
  | cs => some ([], cs)

def exponentSign : List Char → List Char × List Char
  | '+' :: rest => (['+'], rest)
  | '-' :: rest => (['-'], rest)
  | cs => ([], cs)

def exponent : List Char → Option (List Char × List Char)
  | c :: rest =>
    if c = 'e' ∨ c = 'E' then
      let (sign, rest) := exponentSign rest
      (digits rest).map fun (run, rest) => (c :: sign ++ run, rest)
    else some ([], c :: rest)
  | [] => some ([], [])

def unsignedNumber (sign cs : List Char) : Option (Json × List Char) := do
  let (whole, rest) ← wholePart cs
  let (part, rest) ← fraction rest
  let (power, rest) ← exponent rest
  return (number (String.ofList (sign ++ whole ++ part ++ power)), rest)

def numberLiteral : List Char → Option (Json × List Char)
  | '-' :: rest => unsignedNumber ['-'] rest
  | cs => unsignedNumber [] cs

mutual

/-- Reads a value. Every call that a value makes needs less fuel, and none needs more than there is
text. -/
def value : (fuel : Nat) → List Char → Option (Json × List Char)
  | 0, _ => none
  | fuel + 1, cs =>
    match skipBlank cs with
    | 'n' :: 'u' :: 'l' :: 'l' :: rest => some (null, rest)
    | 't' :: 'r' :: 'u' :: 'e' :: rest => some (bool true, rest)
    | 'f' :: 'a' :: 'l' :: 's' :: 'e' :: rest => some (bool false, rest)
    | '"' :: rest => (stringBody (some []) rest).map fun (text, rest) => (string text, rest)
    | '[' :: rest =>
      match skipBlank rest with
      | ']' :: rest => some (array [], rest)
      | rest => elements fuel [] rest
    | '\x7b' :: rest =>
      match skipBlank rest with
      | '\x7d' :: rest => some (object [], rest)
      | rest => members fuel [] rest
    | rest => numberLiteral rest

/-- Reads the items of an array up to its end. -/
def elements : (fuel : Nat) → List Json → List Char → Option (Json × List Char)
  | 0, _, _ => none
  | fuel + 1, read, cs =>
    match value fuel cs with
    | some (item, rest) =>
      match skipBlank rest with
      | ',' :: rest => elements fuel (item :: read) rest
      | ']' :: rest => some (array (item :: read).reverse, rest)
      | _ => none
    | none => none

/-- Reads the members of an object up to its end. -/
def members : (fuel : Nat) → List (Option String × Json) → List Char → Option (Json × List Char)
  | 0, _, _ => none
  | fuel + 1, read, cs =>
    match skipBlank cs with
    | '"' :: rest =>
      match stringBody (some []) rest with
      | some (key, rest) =>
        match skipBlank rest with
        | ':' :: rest =>
          match value fuel rest with
          | some (item, rest) =>
            match skipBlank rest with
            | ',' :: rest => members fuel ((key, item) :: read) rest
            | '\x7d' :: rest => some (object ((key, item) :: read).reverse, rest)
            | _ => none
          | none => none
        | _ => none
      | none => none
    | _ => none

end

/-- Reads a text that holds one value and blanks around it. -/
def read (text : String) : Option Json :=
  let cs := text.toList
  match value (2 * cs.length + 2) cs with
  | some (json, rest) => if (skipBlank rest).isEmpty then some json else none
  | none => none

end SignalPaths.Json
