/-
  LispLink.Cli.Help
  ────────────────────────────────
  **WHAT THE COMMAND LINE SAYS ABOUT ITSELF.**

  The help on everything and on each task is one layout: what it is about, how
  it is used, and tables whose second columns are aligned.
-/
import LispLink.Cli.Arguments

namespace LispLink.Cli

/-- The name of the program. -/
def programName : String := "lisp-swank"

/-- The line that tells the version. -/
def versionText : String := programName ++ " 0.2.0\n"

/-- A table: a title and rows of two columns. -/
structure HelpTable where
  title : String
  rows : List (String × String)

/-- A help text: what it is about, how the thing is used, and its tables. -/
structure HelpPage where
  about : String
  usage : String
  tables : List HelpTable

namespace HelpPage

/-- The lines of a table, with two blanks behind the widest first column. -/
def tableLines (t : HelpTable) : List String :=
  let width := (t.rows.map (·.1.length)).foldl max 0
  (t.title ++ ":") :: t.rows.map fun (name, about) =>
    "  " ++ name ++ String.ofList (List.replicate (width + 2 - name.length) ' ') ++ about

/-- The text of a page. -/
def text (p : HelpPage) : String :=
  let lines := [p.about, "", "Usage: " ++ programName ++ p.usage]
    ++ p.tables.flatMap fun t => "" :: tableLines t
  String.join (lines.map (· ++ "\n"))

end HelpPage

/-- What a task is about. -/
def TaskName.about : TaskName → String
  | tokenize => "Print the token stream of a file as JSON"
  | packages => "Print package ranges and visible names for a file"
  | eval => "Evaluate an expression on the SWANK server"
  | complete => "Complete a symbol prefix on the SWANK server"
  | help => "Print this message or the help of the given subcommand(s)"

/-- The rows of the options: name and value, and what the option is about. -/
def Opt.helpRow : Opt → String × String
  | config => ("    --config <CONFIG>", "Config file to use instead of the user config")
  | resolved => ("    --resolved", "Run the full reader and report resolved kinds")
  | line => ("    --line <LINE>", "Line to list visible names for [default: 0]")
  | package => ("-p, --package <PACKAGE>", "")
  | help => ("-h, --help", "Print help")
  | version => ("-V, --version", "Print version")

/-- The table of some options. -/
def optionTable (os : List Opt) : HelpTable := ⟨"Options", os.map Opt.helpRow⟩

/-- The page of a task that takes one operand. -/
def taskPage (t : TaskName) (operand : String) (os : List Opt) : HelpPage :=
  { about := t.about
    usage := " " ++ t.text ++ " [OPTIONS] " ++ operand
    tables := [⟨"Arguments", [(operand, "")]⟩, optionTable os] }

/-- The help on everything or on one task. -/
def helpPage : Option TaskName → HelpPage
  | none =>
    { about := "Lisp reader and SWANK client"
      usage := " [OPTIONS] <COMMAND>"
      tables :=
        [⟨"Commands", [.tokenize, .packages, .eval, .complete, .help].map fun t =>
            (TaskName.text t, t.about)⟩,
          optionTable [.config, .help, .version]] }
  | some .tokenize => taskPage .tokenize "<FILE>" [.config, .resolved, .help]
  | some .packages => taskPage .packages "<FILE>" [.config, .line, .help]
  | some .eval => taskPage .eval "<EXPR>" [.config, .package, .help]
  | some .complete => taskPage .complete "<PREFIX>" [.config, .package, .help]
  | some .help =>
    { about := TaskName.help.about
      usage := " help [COMMAND]..."
      tables := [⟨"Arguments", [("[COMMAND]...", "Print help for the subcommand(s)")]⟩] }

end LispLink.Cli
