import LispLink.Cli.Arguments
import LispLink.Cli.Help
import LispLink.Cli.Report
import LispLink.Cli.Run
import LispLink.Config
import LispLink.Json.Basic
import LispLink.Json.Reading
import LispLink.Main
import LispLink.Number.Digits
import LispLink.Number.Double
import LispLink.Number.FloatText
import LispLink.Number.Numeral
import LispLink.Number.Shortest
import LispLink.Package.FileFacts
import LispLink.Package.FileId
import LispLink.Package.LineRange
import LispLink.Package.Names
import LispLink.Package.Table
import LispLink.Reply.Compilation
import LispLink.Reply.Debugger
import LispLink.Reply.Info
import LispLink.Session.Basic
import LispLink.Session.Command
import LispLink.Session.Connect
import LispLink.Session.Error
import LispLink.Session.Live
import LispLink.Session.Notice
import LispLink.Source.Designator
import LispLink.Source.Kind
import LispLink.Source.Lexeme
import LispLink.Source.Paint
import LispLink.Source.Position
import LispLink.Source.Reading
import LispLink.Source.Recognition
import LispLink.Source.Sexp
import LispLink.Source.Token
import LispLink.Source.Vocabulary
import LispLink.Text.AsciiCase
import LispLink.Text.Blank
import LispLink.Text.CaseRun
import LispLink.Text.Letter
import LispLink.Text.Lower
import LispLink.Text.Quoted
import LispLink.Text.ScalarSet
import LispLink.Text.Upper
import LispLink.Text.Utf8
import LispLink.Value.Basic
import LispLink.Value.Reading
import LispLink.Value.ToJson
import LispLink.Value.Written
import LispLink.Wire.Frame
import LispLink.Wire.FrameReader
import LispLink.Wire.Incoming
import LispLink.Wire.Request
import LispLink.Proofs.Source.Lexing
import LispLink.Proofs.Source.Lossless
import LispLink.Proofs.Source.Restart
import LispLink.Proofs.Source.Steps
import LispLink.Proofs.Source.Flags
import LispLink.Proofs.Source.Taints
import LispLink.Proofs.Source.Composition
import LispLink.Proofs.Source.Delimited
import LispLink.Proofs.Source.Datum
import LispLink.Proofs.Source.Depth
import LispLink.Proofs.Source.Spelling
import LispLink.Proofs.Value.Atoms
import LispLink.Proofs.Value.RoundTrip
import LispLink.Proofs.Value.Literals
import LispLink.Proofs.Package.Ranges
import LispLink.Proofs.Package.Resolution
import LispLink.Proofs.Package.Registry
import LispLink.Proofs.Package.Latest
import LispLink.Proofs.Package.Ownership
import LispLink.Proofs.Package.Visibility
import LispLink.Proofs.Package.Casing
import LispLink.Proofs.Session.Runs
import LispLink.Proofs.Session.Fragmentation
import LispLink.Proofs.Session.Correlation
import LispLink.Proofs.Session.Ending
import LispLink.Proofs.Session.Interleaving
import LispLink.Proofs.Session.Stranding
import LispLink.Proofs.Session.Requests
import LispLink.Proofs.Session.Notices
import LispLink.Proofs.Session.Outbound
import LispLink.Proofs.Value.Normal
import LispLink.Proofs.Wire.Messages
import LispLink.Proofs.Wire.Replies
import LispLink.Proofs.Wire.RoundTrip
import LispLink.Proofs.Wire.Accounts
import LispLink.Proofs.Wire.Layout
import LispLink.Proofs.Value.Lookup
import LispLink.Proofs.Session.Failures
import LispLink.Proofs.Source.Copies
import LispLink.Proofs.Json.Grammar
import LispLink.Proofs.Config.Layers
