import ErrorIntake.Bounds
import ErrorIntake.Calendar.Clock
import ErrorIntake.Calendar.Date
import ErrorIntake.Calendar.Instant
import ErrorIntake.Calendar.Reading
import ErrorIntake.Digest.Md5
import ErrorIntake.Double.Basic
import ErrorIntake.Double.Decimal
import ErrorIntake.Double.Shortest
import ErrorIntake.Encoding.Base64
import ErrorIntake.Error
import ErrorIntake.EventQueue.Basic
import ErrorIntake.EventQueue.Payload
import ErrorIntake.EventQueue.Pop
import ErrorIntake.Fields
import ErrorIntake.GroupStatus
import ErrorIntake.Intake
import ErrorIntake.IntakeError
import ErrorIntake.Interface.Basic
import ErrorIntake.Interface.Canonical
import ErrorIntake.Interface.Exception
import ErrorIntake.Interface.Factory
import ErrorIntake.Interface.Registry
import ErrorIntake.Interface.Request
import ErrorIntake.Interface.Stacktrace
import ErrorIntake.Json.Canonical
import ErrorIntake.Json.Decode
import ErrorIntake.Json.Literal
import ErrorIntake.Json.Number
import ErrorIntake.Json.Octets
import ErrorIntake.Json.Tree
import ErrorIntake.Json.Value
import ErrorIntake.Ledger.Event
import ErrorIntake.Ledger.Group
import ErrorIntake.Ledger.Location
import ErrorIntake.Ledger.Memory
import ErrorIntake.Ledger.Store
import ErrorIntake.Ledger.Unreliable
import ErrorIntake.Level
import ErrorIntake.Log
import ErrorIntake.Pipeline
import ErrorIntake.ProjectId
import ErrorIntake.Queue.Backend
import ErrorIntake.Queue.Broker
import ErrorIntake.Queue.Connection
import ErrorIntake.Queue.Unreliable
import ErrorIntake.Report
import ErrorIntake.Settings.Basic
import ErrorIntake.Settings.Environment
import ErrorIntake.Settings.Environment.Text
import ErrorIntake.Settings.Load
import ErrorIntake.Settings.Setting
import ErrorIntake.Settings.Toml.Body
import ErrorIntake.Settings.Toml.Document
import ErrorIntake.Settings.Toml.Moment
import ErrorIntake.Settings.Toml.Number
import ErrorIntake.Settings.Toml.Text
import ErrorIntake.Settings.Toml.Wrapped
import ErrorIntake.Submission.Body
import ErrorIntake.Submission.Envelope
import ErrorIntake.Submission.Field
import ErrorIntake.Submission.Protocol
import ErrorIntake.Table
import ErrorIntake.Text.Ascii
import ErrorIntake.Text.Blank
import ErrorIntake.Text.GraphemeExtend
import ErrorIntake.Text.Integer
import ErrorIntake.Text.Quoted
import ErrorIntake.Text.Ranges
import ErrorIntake.Text.Unprintable
import ErrorIntake.Text.Utf8
import ErrorIntake.Worker.Attempt
import ErrorIntake.Worker.Crew
import ErrorIntake.Worker.Hook
import ErrorIntake.Worker.Processing
import ErrorIntake.Worker.Shift
import ErrorIntake.Zlib.Bits
import ErrorIntake.Zlib.Checksum
import ErrorIntake.Zlib.Compressor
import ErrorIntake.Zlib.Deflate
import ErrorIntake.Zlib.Inflate
import ErrorIntake.Zlib.PrefixCode
import ErrorIntake.Zlib.Stored
import ErrorIntake.Proofs.Ledger.Commands
import ErrorIntake.Proofs.Ledger.Counters
import ErrorIntake.Proofs.Queue.Slots
import ErrorIntake.Proofs.Worker.Calls
import ErrorIntake.Proofs.Worker.World
import ErrorIntake.Proofs.Worker.Conservation
import ErrorIntake.Proofs.Worker.Regression
import ErrorIntake.Proofs.Json.Literal
import ErrorIntake.Proofs.Json.Number
import ErrorIntake.Proofs.Json.Shape
import ErrorIntake.Proofs.Json.Text
import ErrorIntake.Proofs.Table
import ErrorIntake.Proofs.Json.Meaning
import ErrorIntake.Proofs.Report.RoundTrip
import ErrorIntake.Proofs.Submission.Parsed
import ErrorIntake.Proofs.EventQueue.Delivery
import ErrorIntake.Proofs.Queue.History
import ErrorIntake.Proofs.Queue.Custody
import ErrorIntake.Proofs.Queue.Availability
import ErrorIntake.Proofs.Ledger.Keys
import ErrorIntake.Proofs.Worker.Filing
import ErrorIntake.Proofs.Worker.Schedule
import ErrorIntake.Proofs.Report.Identity
import ErrorIntake.Proofs.EventQueue.Accepting
import ErrorIntake.Proofs.Worker.Projects
import ErrorIntake.Proofs.EventQueue.Poison
import ErrorIntake.Proofs.Encoding.Base64
import ErrorIntake.Proofs.Submission.Encodings
import ErrorIntake.Proofs.Interface.Claiming
import ErrorIntake.Proofs.Interface.Matching
import ErrorIntake.Proofs.Json.Suffix
import ErrorIntake.Proofs.Submission.Members
import ErrorIntake.Proofs.Submission.Data
import ErrorIntake.Proofs.Interface.ReadBack
import ErrorIntake.Proofs.Submission.Fingerprint
import ErrorIntake.Proofs.Ledger.Founding
import ErrorIntake.Proofs.Ledger.LifeCycle
import ErrorIntake.Proofs.Worker.Accounts
import ErrorIntake.Proofs.Worker.Retrying
import ErrorIntake.Proofs.Worker.Deeds
import ErrorIntake.Proofs.Worker.Closing
import ErrorIntake.Proofs.Json.Spelling
import ErrorIntake.Proofs.Json.Grammar
import ErrorIntake.Proofs.Submission.Rejection
import ErrorIntake.Proofs.EventQueue.Skipping
import ErrorIntake.Proofs.Worker.Draining
import ErrorIntake.Proofs.Submission.Deciding
import ErrorIntake.Proofs.Calendar.Days
import ErrorIntake.Proofs.Calendar.ReadBack
import ErrorIntake.Proofs.Json.Plain
import ErrorIntake.Proofs.Report.Reencoding
import ErrorIntake.Proofs.Digest.Digits
import ErrorIntake.Proofs.Interface.Frames
import ErrorIntake.Proofs.Json.AsWritten
import ErrorIntake.Proofs.Submission.Tags
import ErrorIntake.Proofs.Interface.Headers
import ErrorIntake.Proofs.Submission.Registration
import ErrorIntake.Proofs.Submission.Snapshot
import ErrorIntake.Proofs.Worker.Watching
import ErrorIntake.Proofs.Interface.Unset
import ErrorIntake.Proofs.Interface.Ranking
import ErrorIntake.Proofs.Text.Blank
import ErrorIntake.Proofs.Text.Integer
import ErrorIntake.Proofs.Submission.Project
