import Inlay.Directive.Command
import Inlay.Directive.Kind
import Inlay.Directive.Parenthesis
import Inlay.Double.Basic
import Inlay.Double.Decimal
import Inlay.Double.Shortest
import Inlay.Extraction.Basic
import Inlay.Extraction.Error
import Inlay.Injection.Basic
import Inlay.Injection.Renderer
import Inlay.Json.Fault
import Inlay.Json.Number
import Inlay.Json.Quoted
import Inlay.Json.Reader
import Inlay.Json.Scanned
import Inlay.Matcher.Basic
import Inlay.Matcher.Occurrence
import Inlay.Scope.Event
import Inlay.Scope.Walk
import Inlay.Session.Basic
import Inlay.Session.Sink
import Inlay.Settings.Basic
import Inlay.Settings.Numeral
import Inlay.Settings.Sources
import Inlay.Template.Basic
import Inlay.Template.Fault
import Inlay.Template.Layout
import Inlay.Template.Placeholder
import Inlay.Text.Basic
import Inlay.Text.CodePoint
import Inlay.Text.LowerCase
import Inlay.Text.Numeral
import Inlay.Text.Position
import Inlay.Text.Printable
import Inlay.Text.Quoted
import Inlay.Text.Space
import Inlay.Value.Basic
import Inlay.Value.Display
import Inlay.Value.Update
import Inlay.Proofs.Basic
import Inlay.Proofs.Directive.Argument
import Inlay.Proofs.Directive.ArgumentList
import Inlay.Proofs.Directive.Closing
import Inlay.Proofs.Directive.Grammar
import Inlay.Proofs.Directive.Literal
import Inlay.Proofs.Directive.Parenthesis
import Inlay.Proofs.Directive.Short
import Inlay.Proofs.Extraction.Correspondence
import Inlay.Proofs.Extraction.LineEnding
import Inlay.Proofs.Extraction.Logging
import Inlay.Proofs.Extraction.Messages
import Inlay.Proofs.Extraction.Outcome
import Inlay.Proofs.Extraction.Report
import Inlay.Proofs.Extraction.Source
import Inlay.Proofs.Extraction.Span
import Inlay.Proofs.Extraction.Stages
import Inlay.Proofs.Injection.Moved
import Inlay.Proofs.Injection.Regeneration
import Inlay.Proofs.Injection.RoundTrip
import Inlay.Proofs.Injection.Translation
import Inlay.Proofs.Json.Complete
import Inlay.Proofs.Json.Literal
import Inlay.Proofs.Json.Numeral
import Inlay.Proofs.Json.Printed
import Inlay.Proofs.Json.Reads
import Inlay.Proofs.Json.Scalar
import Inlay.Proofs.Json.Spelling
import Inlay.Proofs.Json.Style
import Inlay.Proofs.Matcher.Checked
import Inlay.Proofs.Matcher.Line
import Inlay.Proofs.Matcher.Match
import Inlay.Proofs.Matcher.Occurrence
import Inlay.Proofs.Matcher.Pattern
import Inlay.Proofs.Matcher.Separation
import Inlay.Proofs.Scope.Balance
import Inlay.Proofs.Scope.Depth
import Inlay.Proofs.Scope.Recursive
import Inlay.Proofs.Scope.Repetition
import Inlay.Proofs.Scope.Run
import Inlay.Proofs.Scope.Structure
import Inlay.Proofs.Scope.Visible
import Inlay.Proofs.Scope.Walk
import Inlay.Proofs.Scope.Written
import Inlay.Proofs.Text.Numeral
import Inlay.Proofs.Text.Position
import Inlay.Proofs.Value.Absorption
import Inlay.Proofs.Value.Fields
import Inlay.Proofs.Value.Fusion
import Inlay.Proofs.Value.Path
import Inlay.Proofs.Value.Short
