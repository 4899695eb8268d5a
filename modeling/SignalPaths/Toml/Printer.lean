/-!
TOML as it is written: a string in the plainest style that fits it, and an array of two items or
more with one item on a line.
-/

namespace SignalPaths.Toml

/-- The styles of strings: in double or single quotes, on one line or over several. -/
inductive Style where
  | basic | literal | multiBasic | multiLiteral
  deriving DecidableEq, Repr

def isControl (c : Char) : Bool := c.toNat < 0x20 || c.toNat == 0x7f

/-- Controls that have to be escaped wherever they stand. -/
def isHardControl (c : Char) : Bool := isControl c && c != '\t' && c != '\n'

/-- The length of the longest run of a character. The numbers are those of the run at hand and of
the longest one so far. -/
def longestRun (c : Char) (current longest : Nat) : List Char → Nat
  | [] => max current longest
  | d :: rest =>
    if d = c then longestRun c (current + 1) longest rest
    else longestRun c 0 (max current longest) rest

def style (cs : List Char) : Style :=
  let hard := cs.any isHardControl
  let lines := cs.contains '\n'
  let backslash := cs.contains '\\'
  let single := longestRun '\x27' 0 0 cs
  let double := longestRun '"' 0 0 cs
  if !hard && !backslash && !lines && double == 0 then .basic
  else if !hard && !lines && single == 0 then .literal
  else if !hard && !backslash && double ≤ 2 then .multiBasic
  else if !hard && single ≤ 2 then .multiLiteral
  else if lines then .multiBasic
  else .basic

def upperHexDigit (n : Nat) : Char :=
  if n < 10 then Char.ofNat ('0'.toNat + n) else Char.ofNat ('A'.toNat + (n - 10))

/-- A character as it stands in double quotes, quotes and line feeds apart. -/
def escapeChar (c : Char) : List Char :=
  if c = '\x08' then ['\\', 'b']
  else if c = '\t' then ['\\', 't']
  else if c = '\x0c' then ['\\', 'f']
  else if c = '\r' then ['\\', 'r']
  else if c = '\\' then ['\\', '\\']
  else if isControl c then
    ['\\', 'u', '0', '0', upperHexDigit (c.toNat / 16), upperHexDigit (c.toNat % 16)]
  else [c]

def basicChar (c : Char) : List Char :=
  if c = '"' then ['\\', '"'] else if c = '\n' then ['\\', 'n'] else escapeChar c

/-- The body of a string over several lines. Every third quote of a run is escaped; the number is
that of the quotes before the text that were not. -/
def multiBody (quotes : Nat) : List Char → List Char
  | [] => []
  | c :: rest =>
    if c = '"' then
      if quotes = 2 then '\\' :: '"' :: multiBody 0 rest else '"' :: multiBody (quotes + 1) rest
    else if c = '\n' then '\n' :: multiBody 0 rest
    else escapeChar c ++ multiBody 0 rest

/-- A string over several lines starts on a line of its own. -/
def opening (cs : List Char) : List Char := if cs.contains '\n' then ['\n'] else []

def writeString (text : String) : List Char :=
  let cs := text.toList
  match style cs with
  | .basic => '"' :: cs.flatMap basicChar ++ ['"']
  | .literal => '\x27' :: cs ++ ['\x27']
  | .multiBasic => ['"', '"', '"'] ++ opening cs ++ multiBody 0 cs ++ ['"', '"', '"']
  | .multiLiteral => ['\x27', '\x27', '\x27'] ++ opening cs ++ cs ++ ['\x27', '\x27', '\x27']

def writeBool (b : Bool) : List Char := (if b then "true" else "false").toList

def writeStrings : List String → List Char
  | [] => ['[', ']']
  | [text] => '[' :: writeString text ++ [']']
  | texts =>
    ['[', '\n'] ++ texts.flatMap (fun text => "    ".toList ++ writeString text ++ [',', '\n']) ++
      [']']

def writeEntry (key : String) (value : List Char) : List Char :=
  key.toList ++ [' ', '=', ' '] ++ value ++ ['\n']

def writeTable (name : String) (entries : List (String × List Char)) : List Char :=
  '[' :: name.toList ++ [']', '\n'] ++ entries.flatMap fun entry => writeEntry entry.1 entry.2

/-- Tables with one blank line between them. -/
def writeTables (tables : List (List Char)) : List Char := List.intercalate ['\n'] tables

end SignalPaths.Toml
