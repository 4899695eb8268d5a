import SignalPaths.Description.Json
import SignalPaths.Proofs.Json

/-!
Graph descriptions written as JSON and read again. What is written spells a value with the fields of
the description, and from such a value the description is read, whatever its texts and ids are.
-/

namespace SignalPaths.Description

open Json

def idValue (id : UInt64) : Json := number (String.ofList (idText id))

def textValue (text : String) : Json := string (some text)

/-- The value of an object with the given fields. -/
def objectValue (fields : List (String × Json)) : Json :=
  object (fields.map fun field => (some field.1, field.2))

def vertexValue (record : VertexRecord) : Json :=
  objectValue <|
    [("id", idValue record.id), ("type", textValue record.kind)] ++
    (record.direction.toList.map fun word => ("dir", textValue word)) ++
    [("name", textValue record.name), ("loc", textValue record.location)]

def edgeValue (record : EdgeRecord) : Json :=
  objectValue [("src", idValue record.source), ("dst", idValue record.target)]

def jsonValue (d : Description) : Json :=
  objectValue
    [("vertices", array (d.vertices.map vertexValue)), ("edges", array (d.edges.map edgeValue))]

section Writing

theorem spells_id (id : UInt64) : Spells (idText id) (idValue id) := .decimal id.toNat

theorem spells_text (text : String) : Spells (quote text) (textValue text) := .quoted text

theorem spells_vertex (record : VertexRecord) : Spells (vertexJson record) (vertexValue record) := by
  apply Spells.objectBlock
  cases record.direction with
  | none => simp [spells_id, spells_text]
  | some word => simp [spells_id, spells_text]

theorem spells_edge (record : EdgeRecord) : Spells (edgeJson record) (edgeValue record) := by
  apply Spells.objectBlock
  simp [spells_id]

theorem spells_map {α : Type} {text : α → List Char} {json : α → Json}
    (each : ∀ a, Spells (text a) (json a)) (items : List α) (indent : Nat) :
    Spells (arrayBlock indent (items.map text)) (array (items.map json)) := by
  apply Spells.arrayBlock
  rw [List.forall₂_map_left_iff, List.forall₂_map_right_iff]
  exact List.forall₂_same.mpr fun a _ => each a

theorem read_toJson (d : Description) : Json.read d.toJson = some d.jsonValue := by
  apply Spells.read_eq
  apply Spells.objectBlock
  simp [spells_map spells_vertex, spells_map spells_edge]

end Writing

section Reading

theorem id?_idValue (id : UInt64) : (idValue id).id? = some id := by
  have small : id.toNat < UInt64.size := id.toNat_lt_size
  simp [idValue, Json.id?, idText, Text.readDigits_decimal, small]

theorem fields_objectValue (keys : List String) (fields : List (String × Json)) :
    (objectValue fields).fields keys =
      keys.mapM (member? (fields.map fun field => (some field.1, field.2))) := by
  simp [objectValue, Json.fields]

theorem vertexOfJson?_vertexValue (record : VertexRecord) :
    vertexOfJson? (vertexValue record) = some record := by
  obtain ⟨id, kind, direction, name, location⟩ := record
  cases direction with
  | none =>
    simp [vertexOfJson?, vertexValue, fields_objectValue, vertexKeys, member?, valuesOf, id?_idValue,
      textValue, string?, word?, textOrEmpty?]
  | some word =>
    simp [vertexOfJson?, vertexValue, fields_objectValue, vertexKeys, member?, valuesOf, id?_idValue,
      textValue, string?, word?, textOrEmpty?]

theorem edgeOfJson?_edgeValue (record : EdgeRecord) :
    edgeOfJson? (edgeValue record) = some record := by
  simp [edgeOfJson?, edgeValue, fields_objectValue, edgeKeys, member?, valuesOf, id?_idValue]

theorem mapM_map_some {α : Type} {json : α → Json} {read : Json → Option α}
    (each : ∀ a, read (json a) = some a) (items : List α) :
    (items.map json).mapM read = some items := by
  induction items with
  | nil => rfl
  | cons a items ih => simp [each, ih]

theorem ofJson?_jsonValue (d : Description) : ofJson? d.jsonValue = some d := by
  simp [ofJson?, jsonValue, fields_objectValue, graphKeys, member?, valuesOf, items?,
    mapM_map_some vertexOfJson?_vertexValue, mapM_map_some edgeOfJson?_edgeValue]

end Reading

/-- What is written for a description is the JSON of its fields, in which a direction that is not set
is left out, and every description is read back from it. -/
theorem readJson_toJson (d : Description) :
    Json.read d.toJson = some d.jsonValue ∧ readJson d.toJson = .ok d := by
  refine ⟨read_toJson d, ?_⟩
  rw [readJson, read_toJson, Option.bind_some, ofJson?_jsonValue]

end SignalPaths.Description
