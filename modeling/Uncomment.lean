import Uncomment.Main
import Uncomment.Settings.Json
import Uncomment.Proofs.Text.Blank
import Uncomment.Proofs.Text.Cut
import Uncomment.Proofs.Text.Lines
import Uncomment.Proofs.Layout
import Uncomment.Proofs.Language.Spelling
import Uncomment.Proofs.Comment.Line
import Uncomment.Proofs.Comment.Block
import Uncomment.Proofs.Comment.Reading
import Uncomment.Proofs.Strip.Basic
import Uncomment.Proofs.Comment.Settled
import Uncomment.Proofs.Strip.Stability
import Uncomment.Proofs.Strip.Line
import Uncomment.Proofs.Strip.Counters
import Uncomment.Proofs.Text.Utf8
import Uncomment.Proofs.File.Tree
import Uncomment.Proofs.File.Storage
import Uncomment.Proofs.Run
import Uncomment.Proofs.Settings.Layering
import Uncomment.Proofs.Settings.Validity
import Uncomment.Proofs.Strip.LineEndings
import Uncomment.Proofs.Strip.Canonical
import Uncomment.Proofs.Settings.Variables
import Uncomment.Proofs.CommandLine.Execute
import Uncomment.Proofs.Comment.Docstring
import Uncomment.Proofs.Strip.BlankLines
import Uncomment.Proofs.Comment.QuoteParity
import Uncomment.Proofs.Strip.LiteralLines
import Uncomment.Proofs.Comment.Dissection
import Uncomment.Proofs.Strip.OpenDocstring
import Uncomment.Proofs.File.History
import Uncomment.Proofs.Settings.Template
import Uncomment.Proofs.Toml.Quote
import Uncomment.Proofs.Toml.Document
import Uncomment.Proofs.Settings.QuotedVariable
import Uncomment.Proofs.Comment.Token
import Uncomment.Proofs.Strip.Stretches
import Uncomment.Proofs.Demo
import Uncomment.Proofs.Language.Resolution
