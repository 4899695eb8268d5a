import SignalPaths.Toml.Quoted
import SignalPaths.Toml.Scalar

/-!
The reader of TOML documents. Arrays and inline tables may be nested up to a limit, which also
bounds the length of dotted keys. A byte order mark before the document is skipped.
-/

namespace SignalPaths.Toml

/-- One more than the deepest nesting that is read. -/
def nestingLimit : Nat := 80

def skipBlank (cs : List Char) : List Char := cs.dropWhile isBlank

/-- Skips the rest of a line on which nothing is left but a comment. The text may end there. -/
def afterLine? (cs : List Char) : Option (List Char) :=
  let rest := skipBlank cs
  let rest := if rest.head? = some '#' then rest.dropWhile isPlain else rest
  if rest.isEmpty then some [] else afterNewline? rest

/-- Skips blanks, line breaks and comments. The flag says whether a comment is open; it ends with
its line. -/
def skipGap : (comment : Bool) → List Char → Option (List Char)
  | comment, [] => if comment then none else some []
  | _, '\n' :: rest => skipGap false rest
  | _, '\r' :: '\n' :: rest => skipGap false rest
  | true, c :: rest => if isPlain c then skipGap true rest else none
  | false, '#' :: rest => skipGap true rest
  | false, c :: rest =>
    if isBlank c then skipGap false rest else if c = '\r' then none else some (c :: rest)

def isBareKeyChar (c : Char) : Bool := c.isAlphanum || c == '_' || c == '-'

def simpleKey (cs : List Char) : Option (String × List Char) :=
  match cs with
  | '"' :: _ => quotedLine cs
  | '\x27' :: _ => quotedLine cs
  | _ =>
    match cs.takeWhile isBareKeyChar with
    | [] => none
    | run => some (String.ofList run, cs.dropWhile isBareKeyChar)

/-- Reads a dotted key of at most `limit` parts, with the blanks around each part. -/
def dottedKey : (limit : Nat) → List Char → Option (List String × String × List Char)
  | 0, _ => none
  | limit + 1, cs =>
    match simpleKey (skipBlank cs) with
    | none => none
    | some (part, rest) =>
      match skipBlank rest with
      | '.' :: rest =>
        (dottedKey limit rest).map fun (path, key, rest) => (part :: path, key, rest)
      | rest => some ([], part, rest)

def keyPath (cs : List Char) : Option (List String × String × List Char) :=
  dottedKey (nestingLimit - 1) cs

/-- Reads the items of an array up to its closing bracket. -/
def arrayItems (value : List Char → Option (Item × List Char)) :
    (fuel : Nat) → List Item → List Char → Option (Item × List Char)
  | 0, _, _ => none
  | fuel + 1, read, cs =>
    match skipGap false cs with
    | some (']' :: rest) => some (.array read.reverse, rest)
    | some cs =>
      match value cs with
      | some (item, rest) =>
        match skipGap false rest with
        | some (',' :: rest) => arrayItems value fuel (item :: read) rest
        | some (']' :: rest) => some (.array (item :: read).reverse, rest)
        | _ => none
      | none => none
    | none => none

/-- Reads the pairs of an inline table up to its closing brace. -/
def inlinePairs (value : List Char → Option (Item × List Char)) :
    (fuel : Nat) → List (List String × String × Item) → List Char → Option (Item × List Char)
  | 0, _, _ => none
  | fuel + 1, read, cs =>
    match keyPath cs with
    | some (path, key, '=' :: rest) =>
      match value (skipBlank rest) with
      | some (item, rest) =>
        let read := (path, key, item) :: read
        match skipBlank rest with
        | ',' :: rest => inlinePairs value fuel read rest
        | '\x7d' :: rest =>
          (Entries.ofPairs read.reverse).map fun entries => (.table .inline entries, rest)
        | _ => none
      | none => none
    | _ => none

def inlineTable (value : List Char → Option (Item × List Char)) (cs : List Char) :
    Option (Item × List Char) :=
  match skipBlank cs with
  | '\x7d' :: rest => some (.table .inline [], rest)
  | _ => inlinePairs value (cs.length + 1) [] cs

/-- A value that holds no other values. -/
def flatValue (cs : List Char) : Option (Item × List Char) :=
  match cs with
  | '"' :: _ => (quoted cs).map fun (text, rest) => (.string text, rest)
  | '\x27' :: _ => (quoted cs).map fun (text, rest) => (.string text, rest)
  | _ => scalar cs

/-- Reads a value in which others may be nested to the given depth. -/
def value : (depth : Nat) → List Char → Option (Item × List Char)
  | 0, cs => flatValue cs
  | depth + 1, '[' :: rest => arrayItems (value depth) (rest.length + 1) [] rest
  | depth + 1, '\x7b' :: rest => inlineTable (value depth) rest
  | _ + 1, cs => flatValue cs

/-- Reads a line with something on it. -/
def line (cs : List Char) : Option (Line × List Char) :=
  match cs with
  | '[' :: '[' :: rest =>
    match keyPath rest with
    | some (path, key, ']' :: ']' :: rest) =>
      (afterLine? rest).map fun rest => (.header (.element path key), rest)
    | _ => none
  | '[' :: rest =>
    match keyPath rest with
    | some (path, key, ']' :: rest) =>
      (afterLine? rest).map fun rest => (.header (.table path key), rest)
    | _ => none
  | cs =>
    match keyPath cs with
    | some (path, key, '=' :: rest) =>
      match value (nestingLimit - 1) (skipBlank rest) with
      | some (item, rest) => (afterLine? rest).map fun rest => (.entry path key item, rest)
      | none => none
    | _ => none

/-- Reads lines to the end of the text. Each takes some of it, so that its length is fuel enough. -/
def lines : (fuel : Nat) → List Line → List Char → Option (List Line)
  | 0, _, _ => none
  | fuel + 1, read, cs =>
    match skipBlank cs with
    | [] => some read.reverse
    | c :: rest =>
      if c = '#' ∨ c = '\n' ∨ c = '\r' then
        (afterLine? (c :: rest)).bind (lines fuel read)
      else
        match line (c :: rest) with
        | some (found, rest) => lines fuel (found :: read) rest
        | none => none

def skipByteOrderMark : List Char → List Char
  | '\ufeff' :: rest => rest
  | cs => cs

def read (text : String) : Option Entries :=
  let cs := skipByteOrderMark text.toList
  (lines (cs.length + 1) [] cs).bind ofLines

end SignalPaths.Toml
