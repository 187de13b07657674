import RecordGuard.Proofs.Guard.Tracked
import RecordGuard.Main
import RecordGuard.Proofs.Program.Capture
import RecordGuard.Proofs.Guard.Containment
import RecordGuard.Proofs.Guard.Verdict
import RecordGuard.Proofs.Guard.Notices
import RecordGuard.Proofs.Guard.Concord
import RecordGuard.Proofs.Guard.Impartial
import RecordGuard.Proofs.Guard.Reading
import RecordGuard.Proofs.Guard.Sentinels
import RecordGuard.Proofs.Schema.Reading
import RecordGuard.Proofs.CommandLine.Run
import RecordGuard.Proofs.Value.Shown
import RecordGuard.Proofs.CommandLine.Lines
import RecordGuard.Proofs.Guard.Equality
import RecordGuard.Proofs.Guard.Concerns
import RecordGuard.Proofs.Schema.Faults
import RecordGuard.Proofs.Schema.Written
import RecordGuard.Proofs.Schema.Declared
import RecordGuard.Proofs.Document.Proper
import RecordGuard.Proofs.CommandLine.Redaction
import RecordGuard.Proofs.Guard.FailingPath
import RecordGuard.Proofs.Value.Text
import RecordGuard.Proofs.Calendar.Written
import RecordGuard.Proofs.Calendar.Accepted
import RecordGuard.Proofs.Calendar.RoundTrip
import RecordGuard.Proofs.CommandLine.Presentation
import RecordGuard.Proofs.Schema.Labels
import RecordGuard.Proofs.Diagnostics.Settings
import RecordGuard.Proofs.Value.Inserts
import RecordGuard.Proofs.Guard.Visits
