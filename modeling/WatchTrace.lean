import WatchTrace.Tx.Program
import WatchTrace.Tx.Alone
import WatchTrace.Tx.Rows
import WatchTrace.Tx.Machine
import WatchTrace.Tx.Protocol
import WatchTrace.Tx.Inside
import WatchTrace.Tx.Serial
import WatchTrace.Tx.Twin
import WatchTrace.Tx.Table
import WatchTrace.Tx.Listing
import WatchTrace.Model.Schema
import WatchTrace.Model.Envelope
import WatchTrace.Model.Outside
import WatchTrace.Model.Rollup
import WatchTrace.Model.Retention
import WatchTrace.Model.Reliability
import WatchTrace.Model.Incident
import WatchTrace.Model.Scheduler
import WatchTrace.Model.Report
import WatchTrace.Model.Publisher
import WatchTrace.Model.Consumer
import WatchTrace.Model.Maintenance
import WatchTrace.Model.WorkerPool
import WatchTrace.Model.Recovery
import WatchTrace.Model.Destination
import WatchTrace.Model.Client
import WatchTrace.Spec.Ledger
import WatchTrace.Spec.Routine
import WatchTrace.Spec.Accept
import WatchTrace.Spec.Fifo
import WatchTrace.Spec.Observation
import WatchTrace.Spec.Hysteresis
import WatchTrace.Proofs.Draft
import WatchTrace.Proofs.Core
import WatchTrace.Proofs.Config
import WatchTrace.Proofs.Lifecycle
import WatchTrace.Proofs.Publisher
import WatchTrace.Proofs.Maintenance
import WatchTrace.Proofs.Scheduler
import WatchTrace.Proofs.Consumer
import WatchTrace.Proofs.Engine
import WatchTrace.Proofs.Outbox
import WatchTrace.Proofs.Revocation
import WatchTrace.Proofs.Acceptance
import WatchTrace.Proofs.Conflict
import WatchTrace.Proofs.Evaluation
import WatchTrace.Proofs.Incidents
import WatchTrace.Proofs.Ordered
import WatchTrace.Proofs.Hysteresis
import WatchTrace.Proofs.Opening
import WatchTrace.Proofs.Window
import WatchTrace.Proofs.Redirect
import WatchTrace.Proofs.Publication
import WatchTrace.Proofs.Batch
import WatchTrace.Proofs.Retention
import WatchTrace.Proofs.Slots
import WatchTrace.Proofs.Reporting
import WatchTrace.Model.Monitor
import WatchTrace.Tx.Terms
import WatchTrace.Arith.Timeline
import WatchTrace.Proofs.Periods
import WatchTrace.Tx.Quota
import WatchTrace.Proofs.Revisions
import WatchTrace.Proofs.Caps
import WatchTrace.Proofs.Admission
import WatchTrace.Proofs.Turns
import WatchTrace.Proofs.Progress
import WatchTrace.Proofs.Phase
import WatchTrace.Model.Auth
import WatchTrace.Proofs.Tokens
import WatchTrace.Proofs.Sessions
import WatchTrace.Proofs.SignOut
import WatchTrace.Arith.Lineage
import WatchTrace.Proofs.Rotation
import WatchTrace.Proofs.Refresh
import WatchTrace.Proofs.Families
import WatchTrace.Arith.FixedWindow
import WatchTrace.Model.RateLimit
import WatchTrace.Proofs.RateLimit
import WatchTrace.Model.Worker
import WatchTrace.Proofs.Worker
import WatchTrace.Model.Gateway
import WatchTrace.Proofs.Delivery
import WatchTrace.Model.Realtime
import WatchTrace.Proofs.Realtime
import WatchTrace.Model.Ownership
import WatchTrace.Proofs.Invitations
import WatchTrace.Proofs.SingleUse
import WatchTrace.Proofs.Roles
import WatchTrace.Proofs.Gateway
import WatchTrace.Text.Utf8
import WatchTrace.Model.Mail
import WatchTrace.Tx.Lone
import WatchTrace.Proofs.Boundary
import WatchTrace.Proofs.Client
import WatchTrace.Proofs.Mail
import WatchTrace.Proofs.Framing
import WatchTrace.Proofs.Counters
import WatchTrace.Proofs.Resumption
