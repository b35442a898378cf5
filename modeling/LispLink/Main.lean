/-
  LispLink.Main
  ────────────────────────────────
  **THE PROGRAM.**

  The arguments make a plan.  Carrying it out reads files and the environment,
  talks to the image, prints, and ends with the exit code of the outcome.
-/
import LispLink.Cli.Run
import LispLink.Session.Live

namespace LispLink.Cli

open Session

/-! ## §1. Files and the environment. -/

/-- The bytes of a file, if it can be read. -/
def fileBytes? (path : String) : IO (Option (List UInt8)) := do
  try return some (← IO.FS.readBinFile path).toList catch _ => return none

/-- The variables of the environment that a configuration depends on. -/
def environment : IO (String → Option String) := do
  let found ← ConfigLayer.variableNames.filterMapM fun name =>
    return (← IO.getEnv name).map (name, ·)
  return fun name => found.lookup name

/-- The path of the user's own configuration file. -/
def userFile? : IO (Option String) := do
  let places ← ["XDG_CONFIG_HOME", "HOME"].filterMapM fun name =>
    return (← IO.getEnv name).map (name, ·)
  return (Config.userDirectory? fun name => places.lookup name).map (· ++ "/" ++ Config.userPath)

/-- The configuration from the user's own file and the environment.  A file that
is there but cannot be read is an error. -/
def userConfiguration : IO (Except ConfigError Config) := do
  let env ← environment
  match ← userFile? with
  | none => return Config.load none env
  | some path =>
    try return Config.load (some (← IO.FS.readBinFile path).toList) env
    catch
      | .noFileOrDirectory .. => return Config.load none env
      | _ => return .error .unreadable

/-- The configuration for a question. -/
def configuration : Option String → IO (Except ConfigError Config)
  | none => userConfiguration
  | some path => return Config.loadFrom (← fileBytes? path) (← environment)

/-! ## §2. Carrying a plan out. -/

/-- Fail with a complaint. -/
def fail (complaint : String) : IO Outcome := do
  IO.eprintln complaint
  return .failure

/-- Ask a question of the image that a configuration names. -/
def Question.askLive (q : Question) (c : Config) : IO Outcome := Std.Async.Async.block do
  match ← Live.connect c with
  | .error e => fail ("Failed to connect to SWANK at " ++ c.address ++ ": " ++ e.message)
  | .ok l =>
    let l := { l with session := q.prepare l.session }
    let (answer, l) ← l.ask (q.commandIn l.session)
    l.close
    if let .error e := answer then IO.eprintln e.message
    return q.finish answer

/-- Carry a plan out in the world. -/
def Plan.perform : Plan → IO Outcome
  | .finish o => return o
  | .report file print => do
    let outcome := reportOn print (← fileBytes? file)
    if outcome = .failure then fail ("Failed to read " ++ file) else return outcome
  | .ask config q => do
    match ← configuration config with
    | .error .unreadable => fail "Failed to read config file"
    | .error .invalid => fail "Invalid config file"
    | .ok c => q.askLive c

end LispLink.Cli

open LispLink.Cli in
/-- Run the program. -/
def main (args : List String) : IO UInt32 := do
  let directory ← IO.currentDir
  let outcome ← ((Request.ofArguments args).plan directory.toString).perform
  if outcome = .misuse then IO.eprint (helpPage none).text
  IO.print outcome.stdout
  return outcome.exitCode.toUInt32
