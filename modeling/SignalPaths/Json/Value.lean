/-!
JSON values as they are read. Numbers keep their literal. A string with an unpaired surrogate
escape has no text, and neither has such a key.
-/

namespace SignalPaths

inductive Json where
  | null
  | bool (b : Bool)
  | number (literal : String)
  | string (text : Option String)
  | array (items : List Json)
  | object (members : List (Option String × Json))

namespace Json

/-- The values of a key. Keys may be repeated. -/
def valuesOf (members : List (Option String × Json)) (key : String) : List Json :=
  members.filterMap fun member => if member.1 = some key then some member.2 else none

/-- The value of a key that may be left out but not repeated. -/
def member? (members : List (Option String × Json)) (key : String) : Option (Option Json) :=
  match valuesOf members key with
  | [] => some none
  | [value] => some (some value)
  | _ => none

/-- Reads a record: an object, whose other members are skipped, or an array of the values in order,
of which the last ones may be left out. A value that is left out is `none`. -/
def fields (keys : List String) : Json → Option (List (Option Json))
  | object members =>
    if members.all fun member => member.1.isSome then keys.mapM (member? members) else none
  | array items =>
    if items.length ≤ keys.length then
      some (items.map some ++ List.replicate (keys.length - items.length) none)
    else none
  | _ => none

def string? : Json → Option String
  | string text => text
  | _ => none

def items? : Json → Option (List Json)
  | array items => some items
  | _ => none

end Json

end SignalPaths
