import DisplayFilter.Command.Arguments
import DisplayFilter.Command.Config
import DisplayFilter.Command.Run
import DisplayFilter.Command.Threshold
import DisplayFilter.Description.Chinese
import DisplayFilter.Description.Dictionary
import DisplayFilter.Description.English
import DisplayFilter.Description.Labels
import DisplayFilter.Description.Phrasebook
import DisplayFilter.Document.Calendar
import DisplayFilter.Document.Display
import DisplayFilter.Document.File
import DisplayFilter.Document.Json
import DisplayFilter.Document.Merge
import DisplayFilter.Document.Path
import DisplayFilter.Document.Reader
import DisplayFilter.Document.Table
import DisplayFilter.Document.Value
import DisplayFilter.Document.Yaml.Cursor
import DisplayFilter.Document.Yaml.Node
import DisplayFilter.Document.Yaml.Quoted
import DisplayFilter.Document.Yaml.Reader
import DisplayFilter.Document.Yaml.Scalar
import DisplayFilter.Document.Yaml.Token
import DisplayFilter.Expression.Notes
import DisplayFilter.Expression.Parser
import DisplayFilter.Expression.Printer
import DisplayFilter.Expression.Scanner
import DisplayFilter.Expression.Token
import DisplayFilter.Filter.Argument
import DisplayFilter.Filter.Error
import DisplayFilter.Filter.Logic
import DisplayFilter.Filter.Node
import DisplayFilter.Filter.Operator
import DisplayFilter.Filter.Record
import DisplayFilter.Log
import DisplayFilter.Main
import DisplayFilter.Numeric.Binary64
import DisplayFilter.Numeric.Shortest
import DisplayFilter.Proofs.Command.Configuration
import DisplayFilter.Proofs.Command.Labels
import DisplayFilter.Proofs.Description.Loading
import DisplayFilter.Proofs.Document.Merge
import DisplayFilter.Proofs.Document.Reading
import DisplayFilter.Proofs.Document.Section
import DisplayFilter.Proofs.Document.Table
import DisplayFilter.Proofs.Expression.Bare
import DisplayFilter.Proofs.Expression.Block
import DisplayFilter.Proofs.Expression.Canonical
import DisplayFilter.Proofs.Expression.Clause
import DisplayFilter.Proofs.Expression.Connective
import DisplayFilter.Proofs.Expression.Convergence
import DisplayFilter.Proofs.Expression.Cursor
import DisplayFilter.Proofs.Expression.Descent
import DisplayFilter.Proofs.Expression.Gap
import DisplayFilter.Proofs.Expression.Lexeme
import DisplayFilter.Proofs.Expression.LineFeed
import DisplayFilter.Proofs.Expression.Matching
import DisplayFilter.Proofs.Expression.Munch
import DisplayFilter.Proofs.Expression.Negation
import DisplayFilter.Proofs.Expression.Numbering
import DisplayFilter.Proofs.Expression.Offset
import DisplayFilter.Proofs.Expression.Quotation
import DisplayFilter.Proofs.Expression.RoundTrip
import DisplayFilter.Proofs.Expression.Spacing
import DisplayFilter.Proofs.Expression.Spelling
import DisplayFilter.Proofs.Expression.Step
import DisplayFilter.Proofs.Expression.Unambiguous
import DisplayFilter.Proofs.Filter.Map
import DisplayFilter.Proofs.Filter.Walk
import DisplayFilter.Proofs.Outcome
import DisplayFilter.Proofs.Text.Literal
import DisplayFilter.Proofs.Text.Utf8
import DisplayFilter.Proofs.Tree.Addition
import DisplayFilter.Proofs.Tree.Change
import DisplayFilter.Proofs.Tree.Commute
import DisplayFilter.Proofs.Tree.Lineage
import DisplayFilter.Proofs.Tree.Load
import DisplayFilter.Proofs.Tree.Outline
import DisplayFilter.Proofs.Tree.Patch
import DisplayFilter.Proofs.Tree.Place
import DisplayFilter.Proofs.Tree.Prune
import DisplayFilter.Proofs.Tree.Reload
import DisplayFilter.Proofs.Tree.Script
import DisplayFilter.Proofs.Tree.Session
import DisplayFilter.Proofs.Tree.Update
import DisplayFilter.Proofs.Tree.Valid
import DisplayFilter.Text.Blank
import DisplayFilter.Text.Digit
import DisplayFilter.Text.Letters
import DisplayFilter.Text.Literal
import DisplayFilter.Text.Parts
import DisplayFilter.Text.Printable
import DisplayFilter.Text.Utf8
import DisplayFilter.Tree.Basic
import DisplayFilter.Tree.Edit
import DisplayFilter.Tree.Outline
import DisplayFilter.Tree.Patch
