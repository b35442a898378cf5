/-
  LispLink.Cli.Report
  ────────────────────────────────
  **WHAT THE TASKS PRINT.**

  Reports are indented JSON followed by a line feed.
-/
import LispLink.Json.Basic
import LispLink.Package.Table
import LispLink.Reply.Info
import LispLink.Source.Paint

namespace LispLink.Cli

open Package Reply Source

/-- The text of a report. -/
def reportText (j : Json) : String := j.pretty ++ "\n"

/-- A place in a text. -/
def placeJson (p : Position) : Json := .object [("line", .int p.line), ("col", .int p.col)]

/-- A painted stretch of text. -/
def spanJson (s : Span) : Json :=
  .object
    [("start", placeJson s.start), ("end", placeJson s.stop), ("kind", .str s.kind.name),
      ("quoted", .bool s.taint.quoted), ("backquoted", .bool s.taint.backquoted)]

/-- The tokens of a text, painted with or without reading it. -/
def tokensReport (text : String) (resolved : Bool) : Json :=
  .array ((if resolved then paint text else quickPaint text).map spanJson)

/-- The last line that is reported for a range that never ends. -/
def lastLine : Nat := 0xffffffffffffffff

/-- The lines of a package. -/
def rangeJson : Option LineRange → Json
  | none => .null
  | some r => .object [("start", .int r.first), ("end", .int (r.last.getD lastLine))]

/-- A package as one file shows it. -/
def packageJson (t : Table) (file : FileId) (name : String) : Json :=
  .object
    [("name", .str name), ("range", rangeJson (t.range? file name)),
      ("uses", .strs (t.uses name)), ("exports", .strs (t.exports name)),
      ("defined", .strs (t.defined name))]

/-- The packages of a file, and what is visible on a line of it. -/
def packagesReport (text : String) (file : FileId) (line : Nat) : Json :=
  let t := Table.empty.update file (parse text)
  .object
    [("file", .str file.text), ("line", .int line), ("active", .str (t.resolve file line)),
      ("packages", .array (t.packages.map (packageJson t file))),
      ("visible", .strs (t.visible file line))]

/-- The completions of a prefix. -/
def completionsReport (c : Completions) : Json :=
  .object [("candidates", .strs c.candidates), ("common_prefix", .str c.common)]

end LispLink.Cli
