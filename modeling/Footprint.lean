import Footprint.Address
import Footprint.Audit.Entry
import Footprint.Audit.Event
import Footprint.Audit.Log
import Footprint.Batch
import Footprint.Binary64
import Footprint.BlockLog
import Footprint.Code
import Footprint.Config
import Footprint.ConfigFile
import Footprint.Custody
import Footprint.Decimal
import Footprint.Descriptor
import Footprint.Dialogue
import Footprint.Discovery
import Footprint.Duration
import Footprint.Errno
import Footprint.Failure
import Footprint.Files
import Footprint.Forms
import Footprint.Grant
import Footprint.Injection
import Footprint.Json.Codec
import Footprint.Json.Numeral
import Footprint.Json.Parse
import Footprint.Json.Problem
import Footprint.Json.Render
import Footprint.Json.Value
import Footprint.Kernel.Call
import Footprint.Kernel.SystemCall
import Footprint.Layout
import Footprint.Machine.AddressSpace
import Footprint.Machine.Decode
import Footprint.Machine.Execute
import Footprint.Machine.Instruction
import Footprint.Machine.Page
import Footprint.Machine.Session
import Footprint.Machine.Tracee
import Footprint.Machine.World
import Footprint.Maps
import Footprint.Metrics
import Footprint.Metrics.Exposition
import Footprint.Monitor
import Footprint.Perms
import Footprint.Priming
import Footprint.Proofs.Alignment
import Footprint.Proofs.BlockLog
import Footprint.Proofs.BlockLog.Sequence
import Footprint.Proofs.BlockLog.Coarsening
import Footprint.Proofs.Dialogue.Transcript
import Footprint.Proofs.Layout
import Footprint.Proofs.Monitor.Course
import Footprint.Proofs.Monitor.Decision
import Footprint.Proofs.Monitor.Discipline
import Footprint.Proofs.Monitor.Judgement
import Footprint.Proofs.Monitor.Record
import Footprint.Proofs.Region
import Footprint.Proofs.Tracing
import Footprint.Region
import Footprint.Registers
import Footprint.Sandbox
import Footprint.Service
import Footprint.Setup.Program
import Footprint.Setup.Report
import Footprint.Signal
import Footprint.Stop
import Footprint.Supervision
import Footprint.Text.Blank
import Footprint.Text.Extending
import Footprint.Text.Hex
import Footprint.Text.Quoted
import Footprint.Text.Unassigned
import Footprint.TouchedBlocks
import Footprint.Tracing
import Footprint.Validation
import Footprint.Proofs.Watch
import Footprint.Proofs.Injection
import Footprint.Proofs.Supervision.Rules
import Footprint.Proofs.Supervision.Faithful
import Footprint.Proofs.Supervision.Turns
import Footprint.Proofs.Validation
import Footprint.Proofs.Placement
import Footprint.Proofs.Admission
import Footprint.Proofs.Layout.Fixed
import Footprint.Proofs.Layout.Randomized
import Footprint.Proofs.Discovery.Walk
import Footprint.Proofs.Discovery.Requests
import Footprint.Proofs.Discovery.Blocks
import Footprint.Proofs.Discovery.Drive
import Footprint.Proofs.Discovery.Exact
import Footprint.Proofs.Custody.Ends
import Footprint.Proofs.Custody.Teardown
import Footprint.Proofs.Custody.Launch
import Footprint.Proofs.Custody.Reaping
import Footprint.Proofs.Monitor.Guarding
import Footprint.Proofs.Monitor.Caps
import Footprint.Proofs.Monitor.Collision
import Footprint.Proofs.Supervision.Handling
import Footprint.Proofs.Supervision.Keeping
import Footprint.Proofs.Supervision.Patience
import Footprint.Proofs.Supervision.Pacing
import Footprint.Proofs.Supervision.Bounds
import Footprint.Proofs.Supervision.Sparing
import Footprint.Proofs.Supervision.Ending
import Footprint.Proofs.Supervision.Confining
import Footprint.Proofs.Batch.Run
import Footprint.Proofs.Batch.Account
import Footprint.Proofs.Batch.Progress
import Footprint.Proofs.Batch.Results
import Footprint.Proofs.Region.Gaps
import Footprint.Proofs.Maps
import Footprint.Proofs.Dialogue.Passage
import Footprint.Proofs.Tracing.Passage
import Footprint.Proofs.Scrub.Hosting
import Footprint.Proofs.Scrub.Standstill
import Footprint.Proofs.Scrub.Exact
import Footprint.Proofs.Dialogue.Asking
import Footprint.Proofs.Supervision.Soundness
import Footprint.Proofs.Discovery.Conduct
import Footprint.Proofs.Discovery.Outcome
import Footprint.Proofs.Service.Returned
import Footprint.Proofs.Service.Teardown
import Footprint.Proofs.Service.Traffic
import Footprint.Proofs.Service.Accounting
import Footprint.Proofs.Service.Trail
import Footprint.Proofs.Setup.Report
import Footprint.Proofs.Setup.Conduct
import Footprint.Proofs.Setup.Conformance
import Footprint.Proofs.Setup.Memory
import Footprint.Proofs.Setup.Child
import Footprint.Proofs.Handshake.System
import Footprint.Proofs.Handshake.Takedown
import Footprint.Proofs.Handshake.Takeover
import Footprint.Proofs.Handshake.Agreement
import Footprint.Proofs.Validation.Acceptance
import Footprint.Proofs.Layout.Image
import Footprint.Proofs.Custody.Course
import Footprint.Proofs.Dialogue.Moments
import Footprint.Proofs.Injection.Course
import Footprint.Proofs.Injection.Transparent
import Footprint.Proofs.Priming
import Footprint.Proofs.Registers
import Footprint.Proofs.Priming.Guard
import Footprint.Proofs.Json.Grammar
import Footprint.Proofs.Json.Reading
import Footprint.Proofs.Json.Integers
import Footprint.Proofs.Json.Writing
import Footprint.Proofs.Json.Records
import Footprint.Proofs.Json.RoundTrip
import Footprint.Proofs.Text.LineFeeds
import Footprint.Proofs.Forms.Values
import Footprint.Proofs.Forms.RoundTrip
import Footprint.Proofs.Config.Overlay
import Footprint.Proofs.Audit.Lines
import Footprint.Proofs.Metrics.Recording
import Footprint.Proofs.Metrics.Exposition
import Footprint.Proofs.Alignment.Rounding
import Footprint.Proofs.Maps.Bounds
import Footprint.Proofs.Region.Overlap
import Footprint.Proofs.Setup.Wire
import Footprint.Proofs.Setup.Descriptors
import Footprint.Proofs.Text.Lines
import Footprint.Proofs.Maps.Recovery
