import ChartScript.CommandLine.Commands
import ChartScript.CommandLine.Options
import ChartScript.Config.Basic
import ChartScript.Config.File
import ChartScript.Config.Setting
import ChartScript.Config.Yaml.Reader
import ChartScript.Config.Yaml.Scalar
import ChartScript.Config.Yaml.Token
import ChartScript.Config.Yaml.Writer
import ChartScript.Conformance
import ChartScript.Data.Canonical
import ChartScript.Data.Datum
import ChartScript.Data.Json
import ChartScript.Eval.Evaluate
import ChartScript.Eval.Method
import ChartScript.Eval.Resolve
import ChartScript.Eval.Session
import ChartScript.Grammar.Exchange
import ChartScript.Grammar.Reader
import ChartScript.Grammar.Tree
import ChartScript.Grammar.Word
import ChartScript.Host.Call
import ChartScript.Host.Compare
import ChartScript.Host.Environment
import ChartScript.Host.Mathematics
import ChartScript.Host.Name
import ChartScript.Host.Signature
import ChartScript.Host.Source
import ChartScript.Host.Technical
import ChartScript.Main
import ChartScript.Number.Digits
import ChartScript.Number.Exact
import ChartScript.Number.Fixed
import ChartScript.Number.Layout
import ChartScript.Number.Numeral
import ChartScript.Number.Total
import ChartScript.Proofs.Agreement
import ChartScript.Proofs.Arguments
import ChartScript.Proofs.Arithmetic
import ChartScript.Proofs.Arrangement
import ChartScript.Proofs.Calls
import ChartScript.Proofs.Canonicity
import ChartScript.Proofs.Characters
import ChartScript.Proofs.Clamping
import ChartScript.Proofs.Closing
import ChartScript.Proofs.Completeness
import ChartScript.Proofs.Conformity
import ChartScript.Proofs.Congruence
import ChartScript.Proofs.Decimals
import ChartScript.Proofs.Delimiting
import ChartScript.Proofs.Descent
import ChartScript.Proofs.Description
import ChartScript.Proofs.Dictionaries
import ChartScript.Proofs.Effects
import ChartScript.Proofs.Escaping
import ChartScript.Proofs.Evaluation
import ChartScript.Proofs.Failures
import ChartScript.Proofs.Fills
import ChartScript.Proofs.FloatTexts
import ChartScript.Proofs.Forwarding
import ChartScript.Proofs.Growth
import ChartScript.Proofs.Hiding
import ChartScript.Proofs.Integers
import ChartScript.Proofs.Layers
import ChartScript.Proofs.Ledgers
import ChartScript.Proofs.Legible
import ChartScript.Proofs.Lengths
import ChartScript.Proofs.Lens
import ChartScript.Proofs.Lexing
import ChartScript.Proofs.LineForms
import ChartScript.Proofs.Lines
import ChartScript.Proofs.Literals
import ChartScript.Proofs.LongSums
import ChartScript.Proofs.Markers
import ChartScript.Proofs.Meaning
import ChartScript.Proofs.Metering
import ChartScript.Proofs.Numerals
import ChartScript.Proofs.OrderForms
import ChartScript.Proofs.Outputs
import ChartScript.Proofs.Overflow
import ChartScript.Proofs.Packing
import ChartScript.Proofs.Reading
import ChartScript.Proofs.Rebuilding
import ChartScript.Proofs.Recall
import ChartScript.Proofs.Rendering
import ChartScript.Proofs.Replay
import ChartScript.Proofs.RoundTrip
import ChartScript.Proofs.Rounding
import ChartScript.Proofs.Seams
import ChartScript.Proofs.Settling
import ChartScript.Proofs.Shortest
import ChartScript.Proofs.Simulation
import ChartScript.Proofs.Soundness
import ChartScript.Proofs.Spelling
import ChartScript.Proofs.Stability
import ChartScript.Proofs.StarRuns
import ChartScript.Proofs.Statements
import ChartScript.Proofs.Storing
import ChartScript.Proofs.Stretches
import ChartScript.Proofs.Surplus
import ChartScript.Proofs.Units
import ChartScript.Series.Basic
import ChartScript.Series.Indicator
import ChartScript.Series.Sliding
import ChartScript.Series.Text
import ChartScript.Series.Window
import ChartScript.Storage.Basic
import ChartScript.Strategy.Engine
import ChartScript.Strategy.Record
import ChartScript.Syntax.Escape
import ChartScript.Syntax.Exchange
import ChartScript.Syntax.Expression
import ChartScript.Syntax.Nesting
import ChartScript.Syntax.Node
import ChartScript.Syntax.Render
import ChartScript.Syntax.Source
import ChartScript.Syntax.Star
import ChartScript.Syntax.Token
import ChartScript.Syntax.Unit
import ChartScript.Text.Blank
import ChartScript.Text.Crc32
import ChartScript.Text.Digit
import ChartScript.Text.Hex
import ChartScript.Text.Letter
import ChartScript.Text.Quoted
import ChartScript.Text.Ranges
import ChartScript.Text.Split
import ChartScript.Text.Visible
import ChartScript.Value.Basic
import ChartScript.Value.Block
import ChartScript.Value.Fault
import ChartScript.Value.Grid
import ChartScript.Value.GridText
import ChartScript.Value.Method
import ChartScript.Value.Num
import ChartScript.Value.Number
import ChartScript.Value.Operator
import ChartScript.Value.Selector
import ChartScript.Value.Shown
import ChartScript.Value.Subscript
