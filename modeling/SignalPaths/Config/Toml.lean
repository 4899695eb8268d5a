import SignalPaths.Config
import SignalPaths.Text
import SignalPaths.Toml.Printer
import SignalPaths.Toml.Reader

/-!
Configurations as TOML. There is one table for each part of the library. A table may also be given
as an array of its values in order; missing values are unset, and what is not known is ignored.
-/

namespace SignalPaths

namespace Toml.Item

/-- The values of a table in the order of the keys. A date is a table without any known key. -/
def values (keys : List String) : Item → Option (List (Option Item))
  | table _ entries => some (keys.map fun key => entries.lookup key)
  | array items => some ((List.range keys.length).map fun i => items[i]?)
  | tables elements =>
    some ((List.range keys.length).map fun i => elements[i]?.map (table .explicit))
  | dateTime => some (keys.map fun _ => none)
  | _ => none

def string? : Item → Option String
  | string text => some text
  | _ => none

def boolean? : Item → Option Bool
  | boolean b => some b
  | _ => none

def count? : Item → Option UInt64
  | integer (.ofNat n) => some (UInt64.ofNat n)
  | _ => none

def strings? : Item → Option (List String)
  | array items => items.mapM string?
  | _ => none

end Toml.Item

namespace Config

/-- The values of a part of the configuration, all of them unset if the part is missing. -/
def part? (document : Toml.Entries) (name : String) (keys : List String) :
    Option (List (Option Toml.Item)) :=
  match document.lookup name with
  | some item => item.values keys
  | none => some (keys.map fun _ => none)

/-- Reads a value that may be unset. -/
def optional? {α : Type} (read : Toml.Item → Option α) : Option Toml.Item → Option (Option α)
  | some item => (read item).map some
  | none => some none

def loadKeys : List String := ["format", "check_registers"]

def searchKeys : List String := ["all_paths"]

def namingKeys : List String := ["top_prefix", "ignore_markers"]

def fanOutKeys : List String := ["min_degree"]

def ofToml? (document : Toml.Entries) : Option Config := do
  match ← part? document "load" loadKeys, ← part? document "search" searchKeys,
    ← part? document "naming" namingKeys, ← part? document "fan_out" fanOutKeys with
  | [format, checkRegisters], [allPaths], [topPrefix, ignoreMarkers], [minDegree] =>
    return {
      format := ← optional? Toml.Item.string? format
      checkRegisters := ← optional? Toml.Item.boolean? checkRegisters
      allPaths := ← optional? Toml.Item.boolean? allPaths
      topPrefix := ← optional? Toml.Item.string? topPrefix
      ignoreMarkers := (← optional? Toml.Item.strings? ignoreMarkers).getD []
      minDegree := ← optional? Toml.Item.count? minDegree }
  | _, _, _, _ => none

/-- Reads a configuration without checking its values. -/
def parse? (text : String) : Option Config := (Toml.read text).bind ofToml?

/-- Reads a configuration and checks its values. -/
def readToml (text : String) : Except ConfigError Config :=
  match parse? text with
  | none => .error (.unparsable "<string>" unspecifiedDetail)
  | some c => do
    c.validate
    return c

/-- An entry that is left out where the value is unset. -/
def entry {α : Type} (key : String) (write : α → List Char) (value : Option α) :
    List (String × List Char) :=
  value.toList.map fun value => (key, write value)

/-- Writes a configuration. TOML has no integers from 2^63 on. -/
def toToml (c : Config) : Except ConfigError String :=
  if c.minDegree.any fun n => Toml.integerBound ≤ n.toNat then
    .error (.unparsable "<serialization>" unspecifiedDetail)
  else
    .ok <| String.ofList <| Toml.writeTables
      [Toml.writeTable "load"
        (entry "format" Toml.writeString c.format ++
          entry "check_registers" Toml.writeBool c.checkRegisters),
      Toml.writeTable "search" (entry "all_paths" Toml.writeBool c.allPaths),
      Toml.writeTable "naming"
        (entry "top_prefix" Toml.writeString c.topPrefix ++
          [("ignore_markers", Toml.writeStrings c.ignoreMarkers)]),
      Toml.writeTable "fan_out"
        (entry "min_degree" (fun n : UInt64 => Text.decimal n.toNat) c.minDegree)]

end Config

end SignalPaths
