/-
  LispLink.Config
  ────────────────────────────────
  **HOW TO REACH A LISP IMAGE.**

  A configuration is built from layers: the defaults, then what a file says,
  then what the environment says.  A layer says something or nothing about each
  field on its own:

      load file env  =  defaults, overlaid by the file, overlaid by the environment
-/
import LispLink.Json.Reading
import LispLink.Number.Numeral
import LispLink.Source.Designator
import LispLink.Text.Utf8

namespace LispLink

open Number

/-- How to reach a Lisp image, and how to work with it. -/
structure Config where
  host : String
  port : UInt16
  /-- How long a request waits for its answer, in seconds. -/
  timeoutSecs : UInt64
  defaultPackage : String
  /-- How often to try to connect. -/
  connectAttempts : UInt32
  deriving DecidableEq, Repr

/-- What one source says about a configuration. -/
structure ConfigLayer where
  host : Option String
  port : Option UInt16
  timeoutSecs : Option UInt64
  defaultPackage : Option String
  connectAttempts : Option UInt32
  deriving DecidableEq, Repr

/-- Why there is no configuration. -/
inductive ConfigError where
  /-- The file cannot be read, or is no text. -/
  | unreadable
  /-- The file is not strict JSON, or not of the right shape. -/
  | invalid
  deriving DecidableEq, Repr

namespace ConfigLayer

/-- A source that says nothing. -/
def silent : ConfigLayer := ⟨none, none, none, none, none⟩

/-! ## §1. Files. -/

/-- A field that may be missing but must have the right type if it is there. -/
def optional (read : JsonText → Option α) : Option JsonText → Option (Option α)
  | none => some none
  | some j => (read j).map some

/-- A port in a file. -/
def port? (j : JsonText) : Option UInt16 := (j.natBelow? UInt16.size).map UInt16.ofNat

/-- A number of seconds in a file. -/
def seconds? (j : JsonText) : Option UInt64 := (j.natBelow? UInt64.size).map UInt64.ofNat

/-- A number of attempts in a file. -/
def attempts? (j : JsonText) : Option UInt32 := (j.natBelow? UInt32.size).map UInt32.ofNat

/-- The layer of the five fields, each as a file gives it or not at all. -/
def ofFields? (host port timeoutSecs defaultPackage connectAttempts : Option JsonText) :
    Option ConfigLayer := do
  let host ← optional JsonText.text? host
  let port ← optional port? port
  let timeoutSecs ← optional seconds? timeoutSecs
  let defaultPackage ← optional JsonText.text? defaultPackage
  let connectAttempts ← optional attempts? connectAttempts
  pure ⟨host, port, timeoutSecs, defaultPackage, connectAttempts⟩

/-- The names of the fields, in their order. -/
def fieldNames : List String :=
  ["host", "port", "timeout_secs", "default_package", "connect_attempts"]

/-- The members of an object with their names resolved. -/
def namedMembers? (members : List (List Char × JsonText)) : Option (List (String × JsonText)) :=
  members.mapM fun (key, j) => (JsonText.contents key).map fun cs => (String.ofList cs, j)

/-- The layer of a JSON value: an object in which no field occurs twice and
other names mean nothing, or an array of the fields in order, which may stop
early. -/
def ofJson? : JsonText → Option ConfigLayer
  | .object members => do
    let members ← namedMembers? members
    if fieldNames.any fun name => 1 < (members.filter (·.1 = name)).length then none
    else
      let field := fun name => members.lookup name
      ofFields? (field "host") (field "port") (field "timeout_secs") (field "default_package")
        (field "connect_attempts")
  | .array items =>
    if fieldNames.length < items.length then none
    else ofFields? items[0]? items[1]? items[2]? items[3]? items[4]?
  | _ => none

/-- The layer of a file, which is there with its bytes or cannot be read. -/
def ofFile (file : Option (List UInt8)) : Except ConfigError ConfigLayer :=
  match file.bind Text.ofUtf8? with
  | none => .error .unreadable
  | some text =>
    match (JsonText.parse? text).bind ofJson? with
    | none => .error .invalid
    | some layer => .ok layer

/-! ## §2. The environment. -/

/-- The variables of the environment that say something. -/
def variableNames : List String :=
  ["SWANK_HOST", "SWANK_PORT", "SWANK_TIMEOUT_SECS", "SWANK_PACKAGE"]

/-- The layer of the environment.  A number that is none, or out of range, says
nothing. -/
def ofEnvironment (env : String → Option String) : ConfigLayer where
  host := env "SWANK_HOST"
  port := (env "SWANK_PORT").bind fun t => (natBelow? UInt16.size t).map UInt16.ofNat
  timeoutSecs :=
    (env "SWANK_TIMEOUT_SECS").bind fun t => (natBelow? UInt64.size t).map UInt64.ofNat
  defaultPackage := env "SWANK_PACKAGE"
  connectAttempts := none

end ConfigLayer

namespace Config

/-- The configuration that nobody says anything about. -/
def defaults : Config := ⟨"127.0.0.1", 4005, 30, Source.defaultPackage, 1⟩

/-! ## §3. Layering. -/

/-- A configuration with everything replaced that a layer speaks of. -/
def overlay (c : Config) (l : ConfigLayer) : Config where
  host := l.host.getD c.host
  port := l.port.getD c.port
  timeoutSecs := l.timeoutSecs.getD c.timeoutSecs
  defaultPackage := l.defaultPackage.getD c.defaultPackage
  connectAttempts := l.connectAttempts.getD c.connectAttempts

/-- The configuration from a file. -/
def ofFile (file : Option (List UInt8)) : Except ConfigError Config :=
  (ConfigLayer.ofFile file).map defaults.overlay

/-- The configuration from a file that is asked for, and the environment. -/
def loadFrom (file : Option (List UInt8)) (env : String → Option String) :
    Except ConfigError Config :=
  (ofFile file).map (·.overlay (.ofEnvironment env))

/-- The configuration from the user's own file, if there is one, and the
environment. -/
def load (userFile : Option (List UInt8)) (env : String → Option String) :
    Except ConfigError Config :=
  match userFile with
  | none => .ok (defaults.overlay (.ofEnvironment env))
  | some bytes => loadFrom (some bytes) env

/-- Where the user's own file is, below the directory for such files. -/
def userPath : String := "lisp-editor-core/config.json"

/-- The directory for the files of a user: the one that the environment names,
if its path is absolute, and else a place in the user's home. -/
def userDirectory? (env : String → Option String) : Option String :=
  match (env "XDG_CONFIG_HOME").filter (·.startsWith "/") with
  | some directory => some directory
  | none => ((env "HOME").filter (· ≠ "")).map (· ++ "/.config")

/-- The address of the image. -/
def address (c : Config) : String := c.host ++ ":" ++ Nat.repr c.port.toNat

/-- How long a request waits for its answer, in milliseconds. -/
def timeoutMillis (c : Config) : Nat := c.timeoutSecs.toNat * 1000

end Config

end LispLink
