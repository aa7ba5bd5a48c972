import Storybook.Animation.Easing
import Storybook.Animation.Engine
import Storybook.Animation.Node
import Storybook.Animation.Procedural
import Storybook.CommandLine.Arguments
import Storybook.CommandLine.Execute
import Storybook.Eval.Environment
import Storybook.Eval.Evaluate
import Storybook.Json.Basic
import Storybook.Json.Layout
import Storybook.Json.Reader
import Storybook.Json.Record
import Storybook.Json.Sorted
import Storybook.Json.Writer
import Storybook.Main
import Storybook.Number.Dyadic
import Storybook.Number.Notation
import Storybook.Number.Reading
import Storybook.Number.Shortest
import Storybook.Proofs.Animation.Arrival
import Storybook.Proofs.Animation.Base
import Storybook.Proofs.Animation.Calls
import Storybook.Proofs.Animation.Idle
import Storybook.Proofs.Animation.Lasting
import Storybook.Proofs.Animation.Node
import Storybook.Proofs.Animation.Stage
import Storybook.Proofs.Animation.Timing
import Storybook.Proofs.Animation.Track
import Storybook.Proofs.Animation.Visiting
import Storybook.Proofs.Eval.Chance
import Storybook.Proofs.Eval.Literal
import Storybook.Proofs.Eval.Mentions
import Storybook.Proofs.Eval.Range
import Storybook.Proofs.Eval.Reading
import Storybook.Proofs.Json.Record
import Storybook.Proofs.Number.Finite
import Storybook.Proofs.Number.Order
import Storybook.Proofs.Number.Rounding
import Storybook.Proofs.Random.Draw
import Storybook.Proofs.Random.Uniform
import Storybook.Proofs.Script.Alone
import Storybook.Proofs.Script.Assembled
import Storybook.Proofs.Script.Behind
import Storybook.Proofs.Script.BehindTree
import Storybook.Proofs.Script.Clause
import Storybook.Proofs.Script.Closed
import Storybook.Proofs.Script.Coupled
import Storybook.Proofs.Script.Faults
import Storybook.Proofs.Script.Level
import Storybook.Proofs.Script.Naming
import Storybook.Proofs.Script.Nesting
import Storybook.Proofs.Script.Numbering
import Storybook.Proofs.Script.Numbers
import Storybook.Proofs.Script.Occurring
import Storybook.Proofs.Script.Operand
import Storybook.Proofs.Script.Order
import Storybook.Proofs.Script.Outcome
import Storybook.Proofs.Script.Place
import Storybook.Proofs.Script.Preamble
import Storybook.Proofs.Script.Printing
import Storybook.Proofs.Script.Quotation
import Storybook.Proofs.Script.Reading
import Storybook.Proofs.Script.Reserved
import Storybook.Proofs.Script.Retrieval
import Storybook.Proofs.Script.Site
import Storybook.Proofs.Script.Spelling
import Storybook.Proofs.Script.Splitting
import Storybook.Proofs.Script.Story
import Storybook.Proofs.Script.Surface
import Storybook.Proofs.Script.Token
import Storybook.Proofs.Script.TreeNumbers
import Storybook.Proofs.Script.Verdict
import Storybook.Proofs.Script.WellFormed
import Storybook.Proofs.Script.Word
import Storybook.Proofs.Script.Written
import Storybook.Proofs.Script.WrittenTree
import Storybook.Proofs.Script.Yield
import Storybook.Proofs.Session.History
import Storybook.Proofs.Session.Loading
import Storybook.Proofs.Session.PageOrder
import Storybook.Proofs.Session.Published
import Storybook.Proofs.Session.Reload
import Storybook.Proofs.Session.Request
import Storybook.Proofs.Session.Scenery
import Storybook.Proofs.Session.Skipping
import Storybook.Proofs.Session.Stored
import Storybook.Proofs.Session.Trail
import Storybook.Proofs.Story.Finite
import Storybook.Proofs.Story.Null
import Storybook.Proofs.Story.Occurrences
import Storybook.Proofs.Story.Parts
import Storybook.Proofs.Story.Places
import Storybook.Proofs.Story.RoundTrip
import Storybook.Proofs.Story.Search
import Storybook.Proofs.Value.Comparison
import Storybook.Random.Cipher
import Storybook.Random.Draw
import Storybook.Random.Source
import Storybook.Script.Assembly
import Storybook.Script.Compile
import Storybook.Script.Cursor
import Storybook.Script.Expression
import Storybook.Script.Grammar
import Storybook.Script.Identity
import Storybook.Script.Literal
import Storybook.Script.Placeholder
import Storybook.Script.Rule
import Storybook.Script.Tree
import Storybook.Session.Basic
import Storybook.Session.Event
import Storybook.Session.Navigation
import Storybook.Session.Snapshot
import Storybook.Settings
import Storybook.Story.Basic
import Storybook.Story.Decoding
import Storybook.Story.Encoding
import Storybook.Story.Expression
import Storybook.Story.Traversal
import Storybook.Table
import Storybook.Text.Blank
import Storybook.Text.Letter
import Storybook.Text.Name
import Storybook.Text.Numeral
import Storybook.Text.Ranges
import Storybook.Value.Basic
import Storybook.Value.Operators
