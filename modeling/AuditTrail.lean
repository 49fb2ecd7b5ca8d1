import AuditTrail.Address
import AuditTrail.BigEndian
import AuditTrail.Calendar
import AuditTrail.Config.Control
import AuditTrail.Config.Entries
import AuditTrail.Config.Error
import AuditTrail.Config.Flags
import AuditTrail.Config.Policy
import AuditTrail.Config.Users
import AuditTrail.Database.Basic
import AuditTrail.Database.Tables
import AuditTrail.Error
import AuditTrail.ErrorNumber
import AuditTrail.Layout.Basic
import AuditTrail.Layout.Elements
import AuditTrail.Layout.Read
import AuditTrail.Layout.Write
import AuditTrail.Mask
import AuditTrail.Output
import AuditTrail.Pool
import AuditTrail.Preselector
import AuditTrail.Proofs.Address
import AuditTrail.Proofs.Config.Control
import AuditTrail.Proofs.Config.Decision
import AuditTrail.Proofs.Config.Entries
import AuditTrail.Proofs.Config.Flags
import AuditTrail.Proofs.Config.Policy
import AuditTrail.Proofs.Config.Refused
import AuditTrail.Proofs.Config.Rounding
import AuditTrail.Proofs.Config.Settings
import AuditTrail.Proofs.Config.Spelling
import AuditTrail.Proofs.Cut
import AuditTrail.Proofs.Database.Latest
import AuditTrail.Proofs.Database.Numbers
import AuditTrail.Proofs.Database.Tables
import AuditTrail.Proofs.Except
import AuditTrail.Proofs.Layout.Follow
import AuditTrail.Proofs.Layout.Form
import AuditTrail.Proofs.Layout.Local
import AuditTrail.Proofs.Layout.Normalize
import AuditTrail.Proofs.Layout.RoundTrip
import AuditTrail.Proofs.Layout.Size
import AuditTrail.Proofs.Layout.Sound
import AuditTrail.Proofs.Layout.Wire
import AuditTrail.Proofs.Mask
import AuditTrail.Proofs.Output
import AuditTrail.Proofs.Pool.Failures
import AuditTrail.Proofs.Pool.Invariant
import AuditTrail.Proofs.Pool.Ledger
import AuditTrail.Proofs.Pool.Limited
import AuditTrail.Proofs.Pool.Records
import AuditTrail.Proofs.Pool.Refinement
import AuditTrail.Proofs.Pool.Run
import AuditTrail.Proofs.Pool.Shared
import AuditTrail.Proofs.Pool.Slots
import AuditTrail.Proofs.Pool.Stale
import AuditTrail.Proofs.Pool.Submissions
import AuditTrail.Proofs.Preselector
import AuditTrail.Proofs.Record.Frame
import AuditTrail.Proofs.Record.Image
import AuditTrail.Proofs.Record.Reading
import AuditTrail.Proofs.Record.Scan
import AuditTrail.Proofs.Record.Unknown
import AuditTrail.Proofs.Record.Walk
import AuditTrail.Proofs.Sink
import AuditTrail.Proofs.Stream.Faultless
import AuditTrail.Proofs.Stream.Outlook
import AuditTrail.Proofs.Stream.Spent
import AuditTrail.Proofs.Text.Clip
import AuditTrail.Proofs.Text.Digits
import AuditTrail.Proofs.Text.Joined
import AuditTrail.Proofs.Text.Lines
import AuditTrail.Proofs.Text.Lossy
import AuditTrail.Proofs.Text.Newlines
import AuditTrail.Proofs.Text.Numeral
import AuditTrail.Proofs.Text.Separated
import AuditTrail.Proofs.Text.Trimmed
import AuditTrail.Proofs.Text.Utf8
import AuditTrail.Proofs.Token.Checked
import AuditTrail.Proofs.Token.Failure
import AuditTrail.Proofs.Token.Fields
import AuditTrail.Proofs.Token.Lines
import AuditTrail.Proofs.Token.Local
import AuditTrail.Proofs.Token.Normalize
import AuditTrail.Proofs.Token.Raw
import AuditTrail.Proofs.Token.RoundTrip
import AuditTrail.Proofs.Token.Wire
import AuditTrail.Proofs.Trail.Delivery
import AuditTrail.Proofs.Trail.Dump
import AuditTrail.Proofs.Trail.Exhausted
import AuditTrail.Proofs.Trail.Failing
import AuditTrail.Proofs.Trail.Framed
import AuditTrail.Proofs.Trail.Limited
import AuditTrail.Proofs.Trail.Lines
import AuditTrail.Proofs.Trail.Print
import AuditTrail.Proofs.Trail.Torn
import AuditTrail.Record.Basic
import AuditTrail.Record.Cursor
import AuditTrail.Record.Frame
import AuditTrail.Record.Image
import AuditTrail.Sink
import AuditTrail.Stream
import AuditTrail.Text.Blank
import AuditTrail.Text.Fields
import AuditTrail.Text.Numeral
import AuditTrail.Text.Quoted
import AuditTrail.Text.Split
import AuditTrail.Text.Unprintable
import AuditTrail.Text.Utf8
import AuditTrail.Token.Basic
import AuditTrail.Token.Body
import AuditTrail.Token.Checked
import AuditTrail.Token.Codec
import AuditTrail.Token.Kind
import AuditTrail.Token.Render
import AuditTrail.Trail.Dump
import AuditTrail.Trail.Reader
