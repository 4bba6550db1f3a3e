import Coach.Config.Document
import Coach.Main
import Coach.Proofs.Execution.Caching
import Coach.Proofs.Execution.Counting
import Coach.Proofs.Execution.Inquiry
import Coach.Proofs.Finding.Lines
import Coach.Proofs.Finding.Scopes
import Coach.Proofs.Learner.Listeners
import Coach.Proofs.Learner.Runs
import Coach.Proofs.Learner.Tallies
import Coach.Proofs.Metrics.Buckets
import Coach.Proofs.Metrics.Exporting
import Coach.Proofs.Model.Fences
import Coach.Proofs.Model.Replies
import Coach.Proofs.Program.Atomicity
import Coach.Proofs.Program.Commenting
import Coach.Proofs.Program.Formatting
import Coach.Proofs.Program.MainBody
import Coach.Proofs.Program.Narrowing
import Coach.Proofs.Program.Scanning
import Coach.Proofs.Program.Tokenising
import Coach.Proofs.Program.Unevaluated
import Coach.Proofs.Program.Wrapping
import Coach.Proofs.Security.Redaction
import Coach.Proofs.Source.Advancing
import Coach.Proofs.Source.Declarators
import Coach.Proofs.Source.Documents
import Coach.Proofs.Source.Patching
import Coach.Proofs.Source.Statements
import Coach.Proofs.Storage.Unreadable
import Coach.Proofs.Tutor.LineFixes
import Coach.Proofs.Tutor.Proposals
import Coach.Tutor.Document
