import SignalPaths.Error
import SignalPaths.Netlist.Names

/-!
Configurations. Every field may be unset, and an empty list of markers counts as unset. One
configuration lies over another: its fields win where they are set.
-/

namespace SignalPaths

structure Config where
  format : Option String := none
  checkRegisters : Option Bool := none
  allPaths : Option Bool := none
  topPrefix : Option String := none
  ignoreMarkers : List String := []
  minDegree : Option UInt64 := none
  deriving DecidableEq, Repr

namespace Config

def effectiveCheckRegisters (c : Config) : Bool := c.checkRegisters.getD true

def effectiveAllPaths (c : Config) : Bool := c.allPaths.getD false

def effectiveMinDegree (c : Config) : Nat := (c.minDegree.map UInt64.toNat).getD 0

/-- The naming convention of a configuration. -/
def naming (c : Config) : Naming where
  topPrefix := c.topPrefix.getD Naming.defaultTopPrefix
  ignoreMarkers :=
    if c.ignoreMarkers.isEmpty then Naming.defaultIgnoreMarkers else c.ignoreMarkers

def onTopOf (upper lower : Config) : Config where
  format := upper.format <|> lower.format
  checkRegisters := upper.checkRegisters <|> lower.checkRegisters
  allPaths := upper.allPaths <|> lower.allPaths
  topPrefix := upper.topPrefix <|> lower.topPrefix
  ignoreMarkers :=
    if upper.ignoreMarkers.isEmpty then lower.ignoreMarkers else upper.ignoreMarkers
  minDegree := upper.minDegree <|> lower.minDegree

def formats : List String := ["dot", "json"]

def checkFormat (c : Config) : Except ConfigError Unit :=
  match c.format with
  | some format => if format ∈ formats then .ok () else .error (.unknownFormat format)
  | none => .ok ()

def checkTopPrefix (c : Config) : Except ConfigError Unit :=
  match c.topPrefix with
  | some top =>
    if Naming.separator ∈ top.toList then .error .compoundTopPrefix else .ok ()
  | none => .ok ()

def checkMarkers (c : Config) : Except ConfigError Unit :=
  if "" ∈ c.ignoreMarkers then .error .emptyMarker else .ok ()

def validate (c : Config) : Except ConfigError Unit := do
  c.checkFormat
  c.checkTopPrefix
  c.checkMarkers

end Config

end SignalPaths
