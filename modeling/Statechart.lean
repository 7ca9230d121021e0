import Statechart.Text.Bytes
import Statechart.Text.Casing
import Statechart.Text.Quoted
import Statechart.Diagnostic.Context
import Statechart.Diagnostic.Indentation
import Statechart.Token.Basic
import Statechart.Token.Cursor
import Statechart.Token.Lexeme
import Statechart.Token.Lexer
import Statechart.Chart.Basic
import Statechart.Chart.Assembly
import Statechart.Diagnostic.Mismatch
import Statechart.Rule.Basic
import Statechart.Grammar.Basic
import Statechart.Chart.Record
import Statechart.Doc.Json
import Statechart.Grammar.Reading
import Statechart.Grammar.Phrase
import Statechart.Doc.Format
import Statechart.Number.Binary64
import Statechart.Number.Shortest
import Statechart.Toml.Moment
import Statechart.Toml.Value
import Statechart.Toml.Scalar
import Statechart.Toml.Document
import Statechart.Files.Path
import Statechart.Files.Disk
import Statechart.Settings
import Statechart.Release
import Statechart.Number.Whole
import Statechart.Command.Switch
import Statechart.Command.Request
import Statechart.Command.Table
import Statechart.Command.World
import Statechart.Command.Run
import Statechart.Command.Places
import Statechart.Main
import Statechart.Proofs.Rule.Matches
import Statechart.Proofs.Rule.Spans
import Statechart.Proofs.Grammar.Derivation
import Statechart.Proofs.Grammar.Lines
import Statechart.Proofs.Grammar.Sound
import Statechart.Proofs.Grammar.Complete
import Statechart.Proofs.Grammar.Ambiguity
import Statechart.Proofs.Grammar.Recognition
import Statechart.Proofs.Text.Lines
import Statechart.Proofs.Token.Movement
import Statechart.Proofs.Token.Line
import Statechart.Proofs.Token.LineByLine
import Statechart.Proofs.Token.Calls
import Statechart.Proofs.Chart.Printing
import Statechart.Proofs.Token.Words
import Statechart.Proofs.Token.Segment
import Statechart.Proofs.Chart.Reassembly
import Statechart.Proofs.Chart.RoundTrip
import Statechart.Proofs.Token.Coverage
import Statechart.Proofs.Grammar.Outcome
import Statechart.Proofs.Keyed
import Statechart.Proofs.Chart.Shape
import Statechart.Proofs.Grammar.Viable
import Statechart.Proofs.Grammar.Located
import Statechart.Proofs.Grammar.Likeness
import Statechart.Proofs.Token.Row
import Statechart.Proofs.Token.Outline
import Statechart.Proofs.Grammar.Outermost
import Statechart.Proofs.Token.Comment
import Statechart.Proofs.Grammar.Inert
import Statechart.Proofs.Token.Widths
import Statechart.Proofs.Grammar.Leftmost
import Statechart.Proofs.Grammar.Nesting
import Statechart.Proofs.Chart.Enclosed
import Statechart.Proofs.Token.Returns
import Statechart.Proofs.Chart.Joined
import Statechart.Proofs.Grammar.Decided
import Statechart.Proofs.Token.Names
import Statechart.Proofs.Chart.Named
import Statechart.Proofs.Doc.JsonReader
import Statechart.Proofs.Doc.JsonPieces
import Statechart.Proofs.Doc.JsonRoundTrip
import Statechart.Proofs.Chart.Rebuilt
import Statechart.Proofs.Grammar.Ending
import Statechart.Proofs.Grammar.Contract
import Statechart.Proofs.Chart.Declared
import Statechart.Proofs.Command.Traceless
import Statechart.Proofs.Rule.Told
import Statechart.Proofs.Chart.Announced
import Statechart.Proofs.Chart.Remarked
import Statechart.Proofs.Diagnostic.Excerpt
import Statechart.Proofs.Grammar.Closest
import Statechart.Proofs.Chart.Lookup
import Statechart.Proofs.Settings
import Statechart.Proofs.Doc.YamlTypes
import Statechart.Proofs.Doc.YamlReader
import Statechart.Proofs.Doc.LastLine
import Statechart.Proofs.Doc.YamlBlocks
import Statechart.Proofs.Doc.YamlPieces
import Statechart.Proofs.Doc.YamlRoundTrip
import Statechart.Proofs.Doc.YamlWriter
import Statechart.Proofs.Chart.Worded
import Statechart.Proofs.Chart.Merged
import Statechart.Proofs.Command.Kept
