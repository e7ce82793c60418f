import ConventionalCommit.Config.Record
import ConventionalCommit.Files.Tree
import ConventionalCommit.Main
import ConventionalCommit.Proofs.Unicode.Tables
import ConventionalCommit.Proofs.Unicode.Words
import ConventionalCommit.Proofs.Text.Rows
import ConventionalCommit.Proofs.Text.Filling
import ConventionalCommit.Proofs.Text.Wrapping
import ConventionalCommit.Proofs.Text.Lowercase
import ConventionalCommit.Proofs.Text.Sigma
import ConventionalCommit.Proofs.Text.LineHeads
import ConventionalCommit.Proofs.Text.Visible
import ConventionalCommit.Proofs.Text.Greedy
import ConventionalCommit.Proofs.Text.Paragraphs
import ConventionalCommit.Proofs.Message.Footer
import ConventionalCommit.Proofs.Message.HeaderPattern
import ConventionalCommit.Proofs.Message.HeaderFields
import ConventionalCommit.Proofs.Message.HeaderGrammar
import ConventionalCommit.Proofs.Message.SectionPositions
import ConventionalCommit.Proofs.Message.Breaking
import ConventionalCommit.Proofs.Message.Rereading
import ConventionalCommit.Proofs.Message.RoundTrip
import ConventionalCommit.Proofs.Message.Convergence
import ConventionalCommit.Proofs.Message.Clean
import ConventionalCommit.Proofs.Message.Visible
import ConventionalCommit.Proofs.Message.LineEndings
import ConventionalCommit.Proofs.Rule.Failures
import ConventionalCommit.Proofs.Rule.Acceptance
import ConventionalCommit.Proofs.Rule.Order
import ConventionalCommit.Proofs.Rule.Loosening
import ConventionalCommit.Proofs.Rule.Independence
import ConventionalCommit.Proofs.Rule.BlockedWords
import ConventionalCommit.Proofs.Files.Reading
import ConventionalCommit.Proofs.Config.Limits
import ConventionalCommit.Proofs.Config.LimitSteps
import ConventionalCommit.Proofs.Config.Settings
import ConventionalCommit.Proofs.Config.Malformed
import ConventionalCommit.Proofs.Config.Record
import ConventionalCommit.Proofs.Config.Source
import ConventionalCommit.Proofs.Fix.Edits
import ConventionalCommit.Proofs.Fix.Header
import ConventionalCommit.Proofs.Fix.Termination
import ConventionalCommit.Proofs.Fix.Subject
import ConventionalCommit.Proofs.Fix.Rereading
import ConventionalCommit.Proofs.Fix.AtRest
import ConventionalCommit.Proofs.Fix.Compliant
import ConventionalCommit.Proofs.Fix.Kept
import ConventionalCommit.Proofs.Fix.HeaderOnly
import ConventionalCommit.Proofs.Fix.NewFailures
import ConventionalCommit.Proofs.Fix.SecondPass
import ConventionalCommit.Proofs.Fix.WrappedBody
import ConventionalCommit.Proofs.Fix.SubjectCase
import ConventionalCommit.Proofs.Rule.Separation
import ConventionalCommit.Proofs.Report.Frame
import ConventionalCommit.Proofs.Report.Content
import ConventionalCommit.Proofs.Cli.Comments
import ConventionalCommit.Proofs.Json.RoundTrip
import ConventionalCommit.Proofs.Cli.Outcome
import ConventionalCommit.Proofs.Checked.Ranges
import ConventionalCommit.Proofs.Checked.Sections
import ConventionalCommit.Proofs.Checked.Wrapping
import ConventionalCommit.Proofs.Checked.InRange
