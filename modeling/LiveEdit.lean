import LiveEdit.Assoc
import LiveEdit.Audit
import LiveEdit.Derivation
import LiveEdit.Edit.AttributeEdit
import LiveEdit.Edit.Candidate
import LiveEdit.Edit.Error
import LiveEdit.Edit.StyleEdit
import LiveEdit.Edit.TagEdit
import LiveEdit.Edit.TextEdit
import LiveEdit.Evidence
import LiveEdit.Fallback.Prompt
import LiveEdit.Fallback.Response
import LiveEdit.Intake.Issue
import LiveEdit.Intake.Record
import LiveEdit.Intake.Scalar
import LiveEdit.Json.Reader
import LiveEdit.Json.Writer
import LiveEdit.Line
import LiveEdit.Locator
import LiveEdit.Markup.OpeningTag
import LiveEdit.Markup.Scan
import LiveEdit.Markup.TagBlock
import LiveEdit.Number.Double
import LiveEdit.Number.Numeral
import LiveEdit.Number.Shortest
import LiveEdit.Path
import LiveEdit.Proofs.Assoc
import LiveEdit.Proofs.AttributeEdit.Reapplied
import LiveEdit.Proofs.AttributeEdit.WholeValue
import LiveEdit.Proofs.Audit
import LiveEdit.Proofs.Derivation.ElementLine
import LiveEdit.Proofs.Derivation.TextLine
import LiveEdit.Proofs.Edit.Assignment
import LiveEdit.Proofs.Edit.Confinement
import LiveEdit.Proofs.Edit.Decline
import LiveEdit.Proofs.Edit.EditedTag
import LiveEdit.Proofs.Edit.Gate
import LiveEdit.Proofs.Edit.Locality
import LiveEdit.Proofs.Edit.MatchedName
import LiveEdit.Proofs.Edit.SecondReading
import LiveEdit.Proofs.Edit.TagEvidence
import LiveEdit.Proofs.Edit.UniqueCandidate
import LiveEdit.Proofs.Edit.WholeTag
import LiveEdit.Proofs.Evidence.Monotone
import LiveEdit.Proofs.Evidence.Ranking
import LiveEdit.Proofs.Evidence.Reformatted
import LiveEdit.Proofs.Fallback.DescribedProperty
import LiveEdit.Proofs.Fallback.Fence
import LiveEdit.Proofs.Fallback.Prompt
import LiveEdit.Proofs.Fallback.Snippet
import LiveEdit.Proofs.Intake.Projection
import LiveEdit.Proofs.Intake.Record
import LiveEdit.Proofs.Line.Clamp
import LiveEdit.Proofs.Locator.Echo
import LiveEdit.Proofs.Locator.Ending
import LiveEdit.Proofs.Locator.Escalation
import LiveEdit.Proofs.Locator.FastPath
import LiveEdit.Proofs.Locator.Log
import LiveEdit.Proofs.Locator.Prompted
import LiveEdit.Proofs.Locator.Refusal
import LiveEdit.Proofs.Locator.TextScope
import LiveEdit.Proofs.Locator.Tolerance
import LiveEdit.Proofs.Markup.Outside
import LiveEdit.Proofs.Markup.TagBlock
import LiveEdit.Proofs.Markup.TagEnd
import LiveEdit.Proofs.Markup.TopLevel
import LiveEdit.Proofs.Path
import LiveEdit.Proofs.Style.Declarations
import LiveEdit.Proofs.Style.Grammar
import LiveEdit.Proofs.Style.Key
import LiveEdit.Proofs.Style.PropertyName
import LiveEdit.Proofs.Style.Rereading
import LiveEdit.Proofs.Style.RoundTrip
import LiveEdit.Proofs.Style.StringLiteral
import LiveEdit.Proofs.Style.ValueLiteral
import LiveEdit.Proofs.StyleEdit.Merge
import LiveEdit.Proofs.StyleEdit.Neutral
import LiveEdit.Proofs.StyleEdit.OneStyle
import LiveEdit.Proofs.StyleEdit.OwnStyle
import LiveEdit.Proofs.StyleEdit.Reading
import LiveEdit.Proofs.StyleEdit.Reapplied
import LiveEdit.Proofs.StyleEdit.TopStyles
import LiveEdit.Proofs.StyleEdit.WrittenObject
import LiveEdit.Proofs.Text.Case
import LiveEdit.Proofs.Text.Count
import LiveEdit.Proofs.Text.Lines
import LiveEdit.Proofs.Text.Occurrence
import LiveEdit.Proofs.Text.Passage
import LiveEdit.Proofs.Text.Run
import LiveEdit.Proofs.TextEdit.Leftmost
import LiveEdit.Proofs.TextEdit.Literal
import LiveEdit.Proofs.TextEdit.SingleOccurrence
import LiveEdit.Proofs.TextEdit.Specification
import LiveEdit.Proofs.TextEdit.Undo
import LiveEdit.Proofs.Value
import LiveEdit.Request
import LiveEdit.Settings
import LiveEdit.Style.Declarations
import LiveEdit.Style.Literal
import LiveEdit.Style.Object
import LiveEdit.Text.Basic
import LiveEdit.Text.Blank
import LiveEdit.Text.Case
import LiveEdit.Text.Digit
import LiveEdit.Text.Passage
import LiveEdit.Text.Printable
import LiveEdit.Text.Quoted
import LiveEdit.Text.Range
import LiveEdit.Text.Word
import LiveEdit.Value
