/-!
JSON as it is written: one item or member on a line, indented by two blanks for each level. Empty
arrays stand on one line. Characters above the controls are written as they are, quote and backslash
apart.
-/

namespace SignalPaths.Json

def hexDigit (n : Nat) : Char :=
  if n < 10 then Char.ofNat ('0'.toNat + n) else Char.ofNat ('a'.toNat + (n - 10))

def escapeChar (c : Char) : List Char :=
  if c = '"' then ['\\', '"']
  else if c = '\\' then ['\\', '\\']
  else if c = '\x08' then ['\\', 'b']
  else if c = '\x0c' then ['\\', 'f']
  else if c = '\n' then ['\\', 'n']
  else if c = '\r' then ['\\', 'r']
  else if c = '\t' then ['\\', 't']
  else if c.toNat < 0x20 then
    ['\\', 'u', '0', '0', hexDigit (c.toNat / 16), hexDigit (c.toNat % 16)]
  else [c]

def quote (s : String) : List Char := '"' :: s.toList.flatMap escapeChar ++ ['"']

def newline (indent : Nat) : List Char := '\n' :: List.replicate indent ' '

/-- Lays out items between two brackets, which stand at the given indentation. -/
def block (opening closing : Char) (indent : Nat) (items : List (List Char)) : List Char :=
  match items with
  | [] => [opening, closing]
  | items =>
    opening :: newline (indent + 2) ++
      List.intercalate (',' :: newline (indent + 2)) items ++ newline indent ++ [closing]

def arrayBlock (indent : Nat) (items : List (List Char)) : List Char := block '[' ']' indent items

def objectBlock (indent : Nat) (members : List (String × List Char)) : List Char :=
  block '\x7b' '\x7d' indent (members.map fun (key, value) => quote key ++ [':', ' '] ++ value)

end SignalPaths.Json
