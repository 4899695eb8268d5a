import SignalPaths.Config.Toml
import SignalPaths.Traced

/-!
Layered configuration. From the bottom up the layers are the user's file, the project's file, the
environment and the command line. Only the outcome is checked, so that a value that a higher layer
replaces may be wrong. A user's file that cannot be read is passed over.
-/

namespace SignalPaths

/-- Values of the command line. -/
structure Overrides where
  format : Option String := none
  allPaths : Option Bool := none
  topPrefix : Option String := none
  minDegree : Option UInt64 := none
  deriving DecidableEq, Repr

def Overrides.toConfig (o : Overrides) : Config :=
  { format := o.format, allPaths := o.allPaths, topPrefix := o.topPrefix, minDegree := o.minDegree }

/-- Environment variables and their values, which need not be text. -/
abbrev Environment := List (String × ByteArray)

namespace Environment

def text? (env : Environment) (name : String) : Option String :=
  (env.lookup name).bind String.fromUTF8?

/-- A truth value is spelled in one way only. -/
def bool? (env : Environment) (name : String) : Option Bool :=
  match env.text? name with
  | some "true" => some true
  | some "false" => some false
  | _ => none

def count? (env : Environment) (name : String) : Option UInt64 :=
  (env.text? name).bind Text.readUInt64

/-- The configuration that the variables set. A variable that cannot be read sets nothing. -/
def config (env : Environment) : Config where
  format := env.text? "NETPATHS_LOAD_FORMAT"
  checkRegisters := env.bool? "NETPATHS_LOAD_CHECK_REGISTERS"
  allPaths := env.bool? "NETPATHS_SEARCH_ALL_PATHS"
  topPrefix := env.text? "NETPATHS_NAMING_TOP_PREFIX"
  minDegree := env.count? "NETPATHS_FAN_OUT_MIN_DEGREE"

/-- The home directory. The first variable that is set decides, whatever its bytes are. -/
def home? (env : Environment) : Option FilePath :=
  (env.lookup "HOME" <|> env.lookup "USERPROFILE").map .ofBytes

end Environment

namespace Config

def userFile (home : FilePath) : FilePath := (home.join ".netpaths").join "config.toml"

def projectFile (root : FilePath) : FilePath := root.join "netpaths.toml"

def ofUserFile (path : FilePath) (file : File) : Traced ConfigError Config :=
  if file.isPresent then
    match file.readText with
    | .error _ => do
      .tell (.userConfigIgnored (.fileNotFound path.display))
      return {}
    | .ok text =>
      match parse? text with
      | some c => return c
      | none => .fail (.unparsable path.display "invalid TOML in user config")
  else return {}

def ofProjectFile (path : FilePath) (file : File) : Except ConfigError Config :=
  if file.isPresent then
    match file.readText with
    | .error _ => .error (.fileNotFound path.display)
    | .ok text =>
      match parse? text with
      | some c => .ok c
      | none => .error (.unparsable path.display unspecifiedDetail)
  else .ok {}

/-- The configuration for a project, out of all layers. -/
def load (files : FilePath → File) (env : Environment) (root : FilePath) (overrides : Overrides) :
    Traced ConfigError Config := do
  let user ←
    match env.home? with
    | some home => ofUserFile (userFile home) (files (userFile home))
    | none => pure {}
  let project ← .ofExcept (ofProjectFile (projectFile root) (files (projectFile root)))
  let config := overrides.toConfig.onTopOf (env.config.onTopOf (project.onTopOf user))
  .ofExcept config.validate
  return config

end Config

end SignalPaths
