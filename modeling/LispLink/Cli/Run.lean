/-
  LispLink.Cli.Run
  ────────────────────────────────
  **RUNNING A COMMAND LINE.**

  What a command line does depends on its surroundings: the files, the
  environment, and the image that listens.  A plan says which of them it needs;
  carrying a plan out against given surroundings gives what is printed, the
  exit code, and what the image received.
-/
import LispLink.Cli.Help
import LispLink.Cli.Report
import LispLink.Session.Connect

namespace LispLink.Cli

open Package Session Source

/-! ## §1. Outcomes. -/

/-- How a run ends. -/
structure Outcome where
  exitCode : Nat
  stdout : String
  deriving DecidableEq, Repr

namespace Outcome

/-- Success, with something to print. -/
def success (text : String) : Outcome := ⟨0, text⟩

/-- The task failed. -/
def failure : Outcome := ⟨1, ""⟩

/-- The arguments make no sense. -/
def misuse : Outcome := ⟨2, ""⟩

end Outcome

/-! ## §2. Plans. -/

/-- A question to the image: the package to ask in, if one is given, and for
every default package the command and what to print of its answer. -/
structure Question where
  package : Option String
  Answer : Type
  command : String → Command Answer
  print : Answer → String

/-- What a command line is going to do. -/
inductive Plan where
  | finish (o : Outcome)
  /-- Report on the text of a file. -/
  | report (file : String) (print : String → String)
  /-- Ask the image, with the configuration of that file or the user's own. -/
  | ask (config : Option String) (q : Question)

/-- The question that evaluates an expression. -/
def evalQuestion (expression : String) (package : Option String) : Question :=
  ⟨package, String, fun _ => .eval expression, (· ++ "\n")⟩

/-- The question that completes a prefix. -/
def completeQuestion (stem : String) (package : Option String) : Question :=
  ⟨package, Reply.Completions, fun p => .completions p stem,
    fun c => reportText (completionsReport c)⟩

/-- What a request is going to do, in a working directory. -/
def Request.plan (directory : String) : Request → Plan
  | .misuse => .finish .misuse
  | .version => .finish (.success versionText)
  | .help topic => .finish (.success (helpPage topic).text)
  | .run _ (.tokenize file resolved) =>
    .report file fun text => reportText (tokensReport text resolved)
  | .run _ (.packages file line) =>
    .report file fun text => reportText (packagesReport text (.ofPath directory file) line)
  | .run config (.eval e package) => .ask config (evalQuestion e package)
  | .run config (.complete stem package) => .ask config (completeQuestion stem package)

/-! ## §3. Steps of a plan. -/

/-- The report on a file with the given bytes, which cannot be read if it is
missing or no text. -/
def reportOn (print : String → String) (file : Option (List UInt8)) : Outcome :=
  match file.bind Text.ofUtf8? with
  | none => .failure
  | some text => .success (print text)

/-- The session in which a question is asked. -/
def Question.prepare (q : Question) (s : Session) : Session :=
  match q.package with
  | none => s
  | some p => { s with package := packageName p }

/-- The command of a question in a session. -/
def Question.commandIn (q : Question) (s : Session) : Command q.Answer := q.command s.package

/-- What is printed of the answer to a question. -/
def Question.finish (q : Question) (answer : Except Session.Error q.Answer) : Outcome :=
  match answer with
  | .ok a => .success (q.print a)
  | .error _ => .failure

/-! ## §4. Carrying a plan out. -/

/-- What a run can see. -/
structure Surroundings where
  directory : String
  /-- The bytes of a file, if it can be read. -/
  fileBytes : String → Option (List UInt8)
  /-- The user's own configuration file, if there is one. -/
  userConfig : Option (List UInt8)
  env : String → Option String
  /-- The image at an address. -/
  listener : String → Nat → Listener

/-- A run: how it ends, and the payloads that the image received on each
connection. -/
structure Run where
  outcome : Outcome
  received : List (List String)

/-- The configuration for a question. -/
def Surroundings.config (w : Surroundings) : Option String → Except ConfigError Config
  | none => Config.load w.userConfig w.env
  | some path => Config.loadFrom (w.fileBytes path) w.env

/-- Ask a question over a connection that was opened. -/
def Question.ask (q : Question) (connected : Connected) : Run :=
  match connected.result with
  | .error _ => ⟨.failure, connected.refused⟩
  | .ok (s, script) =>
    let s := q.prepare s
    let (answer, s) := s.callLive (q.commandIn s) (script 1)
    ⟨q.finish answer, connected.refused ++ [s.sent]⟩

/-- Carry a plan out. -/
def Plan.carryOut (w : Surroundings) : Plan → Run
  | .finish o => ⟨o, []⟩
  | .report file print => ⟨reportOn print (w.fileBytes file), []⟩
  | .ask config q =>
    match w.config config with
    | .error _ => ⟨.failure, []⟩
    | .ok c => q.ask (connectWith c (w.listener c.host c.port.toNat))

/-- Run a command line. -/
def run (w : Surroundings) (args : List String) : Run :=
  ((Request.ofArguments args).plan w.directory).carryOut w

end LispLink.Cli
