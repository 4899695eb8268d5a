import SignalPaths.Config
import SignalPaths.Description.Json
import SignalPaths.Dot.Description
import SignalPaths.Traced

/-!
Loading graphs from files and texts. The format has a name; where none is set, the path of a file
decides. Registers are checked after a graph is built, unless the check is switched off.
-/

namespace SignalPaths

inductive Format where
  | dot | json
  deriving DecidableEq, Repr

namespace Format

/-- The case of letters in a name does not count. The error belongs to no line of a file. -/
def ofName (name : String) : Except LoadError Format :=
  let lower := name.toLower
  if lower = "dot" ∨ lower = "gv" ∨ lower = "graphviz" then .ok .dot
  else if lower = "json" then .ok .json
  else .error (.invalid ⟨0, .unknownFormat name⟩)

/-- A file is taken for DOT unless its extension says JSON. -/
def ofPath (path : FilePath) : Format :=
  match path.extension? with
  | some extension =>
    if extension.map (fun byte => (Char.ofUInt8 byte).toLower) = "json".toList then .json else .dot
  | none => .dot

end Format

structure Loader where
  format : Option Format := none
  naming : Naming := .standard
  checkRegisters : Bool := true
  deriving DecidableEq, Repr

structure Loaded where
  graph : Graph
  warnings : List RegisterWarning

/-- The structural check, with an event for each warning. -/
def Graph.checkRegisters {ε : Type} (g : Graph) : Traced ε (List RegisterWarning) := do
  .tellAll (g.registerWarnings.map .registerWarning)
  return g.registerWarnings

def Format.readDescription (format : Format) (text : String) : Except LoadError Description :=
  match format with
  | dot => Dot.readDescription text
  | json => Description.readJson text

namespace Loader

def ofConfig (c : Config) : Except LoadError Loader := do
  let format ← c.format.mapM Format.ofName
  return { format, naming := c.naming, checkRegisters := c.effectiveCheckRegisters }

def loadDescription (loader : Loader) (d : Description) : Traced LoadError Loaded := do
  let graph ← .ofExcept (d.build loader.naming)
  let warnings ← if loader.checkRegisters then graph.checkRegisters else pure []
  .tell (.graphLoaded graph.vertexCount graph.edgeCount warnings.length)
  return { graph, warnings }

def loadText (loader : Loader) (format : Format) (text : String) : Traced LoadError Loaded := do
  let description ← .ofExcept (format.readDescription text)
  loader.loadDescription description

def loadFile (loader : Loader) (path : FilePath) (file : File) : Traced LoadError Loaded := do
  .tell (.readingFile path)
  let text ← .ofExcept (file.readText.mapError (.unreadable path))
  loader.loadText (loader.format.getD (.ofPath path)) text

end Loader

end SignalPaths
