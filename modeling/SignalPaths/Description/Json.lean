import SignalPaths.Description
import SignalPaths.Json.Layout
import SignalPaths.Json.Reader
import SignalPaths.Text

/-!
Graph descriptions in JSON. A direction may be null or left out, a name or a location left out;
ids are integer literals below 2^64.
-/

namespace SignalPaths

namespace Json

def id? : Json → Option UInt64
  | number literal =>
    match Text.readDigits literal.toList with
    | some n => if n < UInt64.size then some (UInt64.ofNat n) else none
    | none => none
  | _ => none

/-- A word that may be null or left out. -/
def word? : Option Json → Option (Option String)
  | none => some none
  | some null => some none
  | some json => json.string?.map some

/-- A text that is empty where it is left out. -/
def textOrEmpty? : Option Json → Option String
  | none => some ""
  | some json => json.string?

end Json

namespace Description

def vertexKeys : List String := ["id", "type", "dir", "name", "loc"]

def edgeKeys : List String := ["src", "dst"]

def graphKeys : List String := ["vertices", "edges"]

def vertexOfJson? (json : Json) : Option VertexRecord := do
  match ← json.fields vertexKeys with
  | [some id, some kind, direction, name, location] =>
    return {
      id := ← id.id?, kind := ← kind.string?, direction := ← Json.word? direction,
      name := ← Json.textOrEmpty? name, location := ← Json.textOrEmpty? location }
  | _ => none

def edgeOfJson? (json : Json) : Option EdgeRecord := do
  match ← json.fields edgeKeys with
  | [some source, some target] => return ⟨← source.id?, ← target.id?⟩
  | _ => none

def ofJson? (json : Json) : Option Description := do
  match ← json.fields graphKeys with
  | [some vertices, edges] =>
    let vertices ← (← vertices.items?).mapM vertexOfJson?
    let edges ←
      match edges with
      | none => pure []
      | some edges => (← edges.items?).mapM edgeOfJson?
    return { vertices, edges }
  | _ => none

def readJson (text : String) : Except LoadError Description :=
  match (Json.read text).bind ofJson? with
  | some description => .ok description
  | none => .error .invalidJson

def idText (id : UInt64) : List Char := Text.decimal id.toNat

def vertexJson (record : VertexRecord) : List Char :=
  Json.objectBlock 4 <|
    [("id", idText record.id), ("type", Json.quote record.kind)] ++
    (record.direction.toList.map fun word => ("dir", Json.quote word)) ++
    [("name", Json.quote record.name), ("loc", Json.quote record.location)]

def edgeJson (record : EdgeRecord) : List Char :=
  Json.objectBlock 4 [("src", idText record.source), ("dst", idText record.target)]

def toJson (d : Description) : String :=
  String.ofList <| Json.objectBlock 0
    [("vertices", Json.arrayBlock 2 (d.vertices.map vertexJson)),
      ("edges", Json.arrayBlock 2 (d.edges.map edgeJson))]

end Description

end SignalPaths
