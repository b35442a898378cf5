/-
  LispLink.Cli.Arguments
  ────────────────────────────────
  **THE COMMAND LINE.**

  A command line is a task with its options.  Arguments are read from left to
  right and the first thing that decides ends the reading: a mistake, or the
  wish to see the help or the version.  What is missing is noticed at the end.
A value in an argument of its own is looked at only when its level goes on, and
what stands behind the name of a task is another level: the help on a task is
shown whatever the option in front of the task was given.
-/
import LispLink.Number.Numeral

namespace LispLink.Cli

open Number

/-! ## §1. Tasks. -/

/-- The tasks by name. -/
inductive TaskName where
  | tokenize
  | packages
  | eval
  | complete
  /-- Showing help. -/
  | help
  deriving DecidableEq, Repr

/-- What to do. -/
inductive Task where
  /-- Print the tokens of a file, with resolved kinds or without. -/
  | tokenize (file : String) (resolved : Bool)
  /-- Print the packages of a file, and the names visible on a line. -/
  | packages (file : String) (line : Nat)
  /-- Evaluate an expression, in a package if one is given. -/
  | eval (expression : String) (package : Option String)
  /-- Complete a prefix, in a package if one is given. -/
  | complete (stem : String) (package : Option String)
  deriving DecidableEq, Repr

/-- What the arguments ask for. -/
inductive Request where
  /-- A task, with the configuration file that is to be used. -/
  | run (config : Option String) (task : Task)
  /-- The help, on everything or on one task. -/
  | help (topic : Option TaskName)
  | version
  /-- Arguments that make no sense. -/
  | misuse
  deriving DecidableEq, Repr

/-- The name of a task on the command line. -/
def TaskName.text : TaskName → String
  | tokenize => "tokenize"
  | packages => "packages"
  | eval => "eval"
  | complete => "complete"
  | help => "help"

/-- The task of that name. -/
def TaskName.ofText? (s : String) : Option TaskName :=
  [tokenize, packages, eval, complete, help].find? (·.text = s)

/-! ## §2. Options. -/

/-- The options. -/
inductive Opt where
  | config
  | resolved
  | line
  | package
  | help
  | version
  deriving DecidableEq, Repr

namespace Opt

/-- The long name, without its hyphens. -/
def long : Opt → String
  | config => "config"
  | resolved => "resolved"
  | line => "line"
  | package => "package"
  | help => "help"
  | version => "version"

/-- The one-letter name. -/
def short? : Opt → Option Char
  | package => some 'p'
  | help => some 'h'
  | version => some 'V'
  | _ => none

/-- Whether a value follows. -/
def takesValue : Opt → Bool
  | config | line | package => true
  | resolved | help | version => false

/-- The options that may be given in front of the task, and behind its name. -/
def allowed : Option TaskName → List Opt
  | none => [config, help, version]
  | some .tokenize => [resolved, config, help]
  | some .packages => [line, config, help]
  | some .eval | some .complete => [package, config, help]
  | some .help => []

/-- Whether the text can be the value of the option. -/
def accepts : Opt → String → Bool
  | config, v => v ≠ ""
  | line, v => (natBelow? UInt64.size v).isSome
  | _, _ => true

end Opt

/-! ## §3. Reading. -/

/-- What has been read at one level, in front of the task or behind its
name. -/
structure Level where
  task : Option TaskName
  /-- The options with their values. -/
  options : List (Opt × String) := []
  /-- The option that took the argument before as its value, not looked at
  yet. -/
  held : Option (Opt × String) := none
  /-- The other arguments, last first. -/
  operands : List String := []

namespace Level

/-- Whether the operand can stand here: a task takes one, which is not empty if
it is a file. -/
def acceptsOperand (l : Level) (v : String) : Bool :=
  l.operands.isEmpty &&
    match l.task with
    | some .tokenize | some .packages => v ≠ ""
    | some .eval | some .complete => true
    | _ => false

/-- Add an option that may be given once. -/
def addOption (l : Level) (o : Opt) (v : String) : Option Level :=
  if (l.options.lookup o).isSome || !o.accepts v then none
  else some { l with options := (o, v) :: l.options }

/-- Look at the value that is held and add its option. -/
def settle (l : Level) : Option Level :=
  match l.held with
  | none => some l
  | some (o, v) => { l with held := none }.addOption o v

/-- The value of an option. -/
def value? (l : Level) (o : Opt) : Option String := l.options.lookup o

end Level

/-- An argument by its form. -/
inductive Form where
  /-- Two hyphens alone: everything behind is an operand. -/
  | dashes
  /-- Two hyphens and a name, perhaps with a value behind an equals sign. -/
  | long (name : String) (value : Option String)
  /-- A hyphen and letters. -/
  | short (letters : List Char)
  | operand
  deriving DecidableEq, Repr

/-- The form of an argument; a hyphen alone is an operand. -/
def Form.of (arg : String) : Form :=
  match arg.toList with
  | ['-', '-'] => .dashes
  | '-' :: '-' :: cs =>
    match cs.dropWhile (· ≠ '=') with
    | [] => .long (String.ofList cs) none
    | _ :: v => .long (String.ofList (cs.takeWhile (· ≠ '='))) (some (String.ofList v))
  | '-' :: c :: cs => .short (c :: cs)
  | _ => .operand

/-- What a group of letters comes to. -/
inductive Letters where
  | decided (r : Request)
  /-- All letters are read. -/
  | done (l : Level)
  /-- The value of the option is in the next argument. -/
  | awaiting (l : Level) (o : Opt)

/-- Read a group of letters: switches, and an option that takes the rest as its
value. -/
def readLetters (l : Level) : List Char → Letters
  | [] => .done l
  | c :: cs =>
    match (Opt.allowed l.task).find? (·.short? = some c) with
    | none => .decided .misuse
    | some .help => .decided (.help l.task)
    | some .version => .decided .version
    | some o =>
      if o.takesValue then
        match cs with
        | [] => .awaiting l o
        | '=' :: v | v =>
          match l.addOption o (String.ofList v) with
          | some l => .done l
          | none => .decided .misuse
      else
        match l.addOption o "" with
        | some l => readLetters l cs
        | none => .decided .misuse

/-- The task that the arguments of a task make, if nothing is missing. -/
def Level.task? (l : Level) : Option Task :=
  match l.task, l.operands with
  | some .tokenize, [file] => some (.tokenize file (l.value? .resolved).isSome)
  | some .packages, [file] =>
    some (.packages file (((l.value? .line).bind (natBelow? UInt64.size)).getD 0))
  | some .eval, [e] => some (.eval e (l.value? .package))
  | some .complete, [stem] => some (.complete stem (l.value? .package))
  | _, _ => none

/-- What the arguments of a task ask for at their end. -/
def Level.request (l : Level) : Request :=
  match l.settle with
  | none => .misuse
  | some l =>
    match l.task? with
    | some t => .run (l.value? .config) t
    | none => .misuse

/-- What is asked for by a task behind the options of the level.  A configuration
file named behind the task goes before one named in front. -/
def Level.enclose (l : Level) : Request → Request
  | .run config task =>
    match l.settle with
    | some l => .run (config.or (l.value? .config)) task
    | none => .misuse
  | r => r

@[simp] theorem Level.enclose_help (l : Level) (topic : Option TaskName) :
    l.enclose (.help topic) = .help topic := rfl

@[simp] theorem Level.enclose_misuse (l : Level) : l.enclose .misuse = .misuse := rfl

/-- Read the operands behind two hyphens. -/
def readOperands (l : Level) : List String → Option Level
  | [] => some l
  | v :: vs =>
    if l.acceptsOperand v then readOperands { l with operands := v :: l.operands } vs else none

/-- What the words behind `help` ask for. -/
def helpRequest : List String → Request
  | [] => .help none
  | [name] =>
    match TaskName.ofText? name with
    | some t => .help (some t)
    | none => .misuse
  | _ => .misuse

/-- Read the arguments of a level. -/
def readLevel (l : Level) : List String → Request
  | [] => l.request
  | arg :: args =>
    match l.task, TaskName.ofText? arg with
    | none, some .help => helpRequest args
    | none, some t => l.enclose (readLevel { task := some t } args)
    | _, _ =>
      match l.settle with
      | none => .misuse
      | some l =>
        match Form.of arg with
        | .dashes => ((readOperands l args).map Level.request).getD .misuse
        | .operand =>
          if l.acceptsOperand arg then readLevel { l with operands := arg :: l.operands } args
          else .misuse
        | .long name value =>
          match (Opt.allowed l.task).find? (·.long = name), value with
          | none, _ => .misuse
          | some .help, none => .help l.task
          | some .version, none => .version
          | some o, some v =>
            if o.takesValue then
              match l.addOption o v with
              | some l => readLevel l args
              | none => .misuse
            else .misuse
          | some o, none =>
            if o.takesValue then awaited l o args
            else
              match l.addOption o "" with
              | some l => readLevel l args
              | none => .misuse
        | .short letters =>
          match readLetters l letters with
          | .decided r => r
          | .done l => readLevel l args
          | .awaiting l o => awaited l o args
where
  /-- Take the value of an option from the next argument, which must look like
  none itself. -/
  awaited (l : Level) (o : Opt) : List String → Request
    | [] => .misuse
    | v :: args =>
      if Form.of v = .operand then readLevel { l with held := some (o, v) } args else .misuse

/-- What a command line asks for. -/
def Request.ofArguments (args : List String) : Request := readLevel { task := none } args

end LispLink.Cli
