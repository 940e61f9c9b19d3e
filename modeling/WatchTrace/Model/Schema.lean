import Mathlib.Algebra.Ring.Int.Defs
import Mathlib.Algebra.Ring.Nat
import Mathlib.Data.Prod.Lex
import WatchTrace.Tx.Table

/-!
# The tables

The rows the monitoring engine reads and writes, as the migrations declare
them. Columns that no modelled statement looks at (surrogate identifiers,
creation times) are left out, and a `CHECK` on a column is either carried by
its type or tested by the statement that writes it.

Times are nanoseconds since the Unix epoch, as Go counts them. An identifier
is a number: PostgreSQL compares `uuid` values by their bytes, and Go compares
their canonical texts, which is the same order.

The tables come in three groups, because the engine's guarantees do. The
ledger is what the FIFO path maintains: jobs, their dispatches, accepted
checks, gaps and the evidence of conflicts. The core is configuration and
everything derived from accepted checks. The journal is what is written for
others to read: events, and the rollups with the marks that ask for new ones.
-/

namespace WatchTrace.Model

open Tx

abbrev Uuid := Nat

abbrev Time := Int

abbrev Bytes := List UInt8

def microsecond : Time := 1000

def second : Time := 1000000000

def minute : Time := 60 * second

def hour : Time := 60 * minute

def day : Time := 24 * hour

/-- A Go `int64` after an operation that may have wrapped. -/
def int64 (x : Int) : Int := Int.bmod x (2 ^ 64)

/-- A text that may or may not denote a `uuid`: the canonical spelling, another
spelling that PostgreSQL's cast accepts, or something else altogether. -/
inductive IdText
  | canonical (u : Uuid)
  | spelled (u : Uuid) (text : String)
  | foreign (text : String)
  deriving DecidableEq

namespace IdText

/-- The cast `::uuid`. -/
def toUuid? : IdText → Option Uuid
  | canonical u => some u
  | spelled u _ => some u
  | foreign _ => none

/-- The length of the text; the longest spelling the cast accepts has braces
and a hyphen after every fourth digit. -/
def octets : IdText → Nat
  | canonical _ => 36
  | spelled _ text => min text.utf8ByteSize 41
  | foreign text => text.utf8ByteSize

def isEmpty (t : IdText) : Bool := t.octets == 0

/-- `NULLIF(text, '')::uuid`: a missing id, an id, or a failed cast. -/
def nullable? (t : IdText) : Option (Option Uuid) :=
  if t.isEmpty then some none else t.toUuid?.map some

end IdText

/-! ## Closed vocabularies -/

inductive JobType
  | scheduled
  | manualTest
  deriving DecidableEq

inductive JobState
  | pending
  | pendingPublish
  | published
  | running
  | completed
  | cancelled
  | expired
  | dead
  | quarantined
  deriving DecidableEq

/-- `state IN ('pending', 'pending_publish')`. -/
def JobState.unpublished : JobState → Bool
  | .pending | .pendingPublish => true
  | _ => false

/-- `state IN ('pending', 'pending_publish', 'published', 'running')`. -/
def JobState.active : JobState → Bool
  | .pending | .pendingPublish | .published | .running => true
  | _ => false

inductive PublishState
  | pending
  | publishing
  | published
  | ambiguous
  | expired
  | repaired
  deriving DecidableEq

inductive GapReason
  | admissionLimit
  | expired
  | dead
  | missed
  deriving DecidableEq

inductive ObservedState
  | unknown
  | healthy
  | degraded
  | down
  deriving DecidableEq

inductive PoolState
  | provisioning
  | active
  | draining
  | revoked
  | deleting
  | failed
  deriving DecidableEq

inductive PoolMode
  | hosted
  | customerVpc
  deriving DecidableEq

inductive CredentialPurpose
  | jobEncryption
  | resultSigning
  | mtlsCertificate
  deriving DecidableEq

inductive CredentialStatus
  | pending
  | active
  | retired
  | revoked
  deriving DecidableEq

inductive Role
  | owner
  | admin
  | member
  | viewer
  deriving DecidableEq

inductive IncidentStatus
  | isOpen
  | resolved
  deriving DecidableEq

inductive ResolutionKind
  | automaticRecovery
  | manualResolution
  | lateResultCorrection
  deriving DecidableEq

inductive EventKey
  | opened
  | acknowledged
  | resolved
  deriving DecidableEq

inductive EventType
  | opened
  | acknowledged
  | resolved (kind : ResolutionKind)
  deriving DecidableEq

inductive Transition
  | opened
  | resolved
  deriving DecidableEq

inductive BucketKind
  | hourly
  | daily
  deriving DecidableEq

inductive InvalidationReason
  | acceptedResult
  | lateResult
  deriving DecidableEq

inductive OperationalEventType
  | admissionLimit
  | jobDlq
  | resultDlq
  | resultConflict
  | lateCorrection
  | redrive
  deriving DecidableEq

inductive QueueKind
  | job
  | result
  deriving DecidableEq

inductive QuarantineStatus
  | quarantined
  | redriven
  | discarded
  deriving DecidableEq

/-! ## The ledger -/

/-- `check_jobs`. -/
structure CheckJob where
  organizationId : Uuid
  environmentId : Uuid
  monitorId : Uuid
  jobType : JobType
  state : JobState
  scheduledAt : Time
  monitorVersion : Int
  workerPoolId : String
  snapshotHash : String
  expiresAt : Time
  startedAt : Option Time := none
  completedAt : Option Time := none
  workerId : Option String := none
  executionAttemptId : Option Uuid := none
  sqsMessageId : Option String := none
  lastSafeError : Option String := none

/-- The columns of `UNIQUE (monitor_id, scheduled_at)`. -/
def CheckJob.slot (j : CheckJob) : Uuid × Time := (j.monitorId, j.scheduledAt)

/-- The columns of an outbox row that the trigger
`reject_dispatch_payload_mutation` protects. The two identifiers are texts in
the table, and a `CHECK` makes both the text of the row's own job. -/
structure DispatchPayload where
  workerPoolId : String
  queueUrl : String
  messageBody : Bytes
  schemaVersion : Nat
  platformKeyId : String
  workerEncryptionKeyId : String
  snapshotHash : String
  messageDeduplicationId : Uuid
  messageGroupId : Uuid
  expiresAt : Time
  deriving DecidableEq

/-- `check_dispatch_outbox`. -/
structure Dispatch where
  payload : DispatchPayload
  publishState : PublishState := .pending
  publishAttempts : Nat := 0
  nextAttemptAt : Time
  publishLeaseToken : Option Uuid := none
  publishLeaseExpiresAt : Option Time := none
  sqsMessageId : Option String := none
  lastSafeError : Option String := none
  publishedAt : Option Time := none
  createdAt : Time
  updatedAt : Time

/-- `health_checks`. -/
structure HealthCheck where
  resultId : Uuid
  organizationId : Uuid
  environmentId : Uuid
  monitorId : Uuid
  jobType : JobType
  scheduledAt : Time
  startedAt : Time
  completedAt : Time
  succeeded : Bool
  statusCode : Option Int
  errorCategory : Option String
  totalDurationMicroseconds : Int
  snapshotHash : String
  workerPoolId : String
  workerId : String
  executionAttemptId : Uuid
  dnsDurationMicroseconds : Option Int
  connectDurationMicroseconds : Option Int
  tlsDurationMicroseconds : Option Int
  firstByteDurationMicroseconds : Option Int

/-- The `error_category` values the table admits. -/
def errorCategories : List String :=
  ["invalid_target", "unsafe_target", "dns", "connection", "tls", "timeout",
    "http_protocol", "response_body", "response_too_large", "redirect_limit",
    "unexpected_status"]

/-- The `CHECK` constraints of `health_checks`. -/
def HealthCheck.admissible (h : HealthCheck) : Bool :=
  let status := match h.statusCode with
    | none => true
    | some code => decide (100 ≤ code ∧ code ≤ 599)
  let category := match h.errorCategory with
    | none => true
    | some text => errorCategories.contains text
  let outcome :=
    (h.succeeded && h.statusCode.isSome && h.errorCategory.isNone) ||
      (!h.succeeded && h.errorCategory.isSome)
  let durations := [h.dnsDurationMicroseconds, h.connectDurationMicroseconds,
    h.tlsDurationMicroseconds, h.firstByteDurationMicroseconds].all fun d =>
      match d with
      | none => true
      | some micros => decide (0 ≤ micros)
  status && category && outcome && durations && decide (0 ≤ h.totalDurationMicroseconds) &&
    decide (h.startedAt ≤ h.completedAt) &&
    decide (h.workerId.utf8ByteSize ≤ 128)

/-- The columns of `UNIQUE (monitor_id, scheduled_at, reason)`. -/
structure GapKey where
  monitorId : Uuid
  scheduledAt : Time
  reason : GapReason
  deriving DecidableEq

/-- `monitoring_coverage_gaps`, besides its unique columns. -/
structure CoverageGap where
  organizationId : Uuid
  environmentId : Uuid

/-- What `quarantine.Sealer` makes of a payload: the nonce it drew, with the
plaintext and associated data only the key holder recovers. -/
structure SealedPayload where
  nonce : Nat
  plain : Bytes
  associated : String × Option IdText
  deriving DecidableEq

/-- `check_result_conflicts`. -/
structure ResultConflict where
  jobId : Uuid
  resultId : Uuid
  workerPoolId : String
  snapshotHash : String
  safeReason : String
  encryptedPayload : SealedPayload

/-- `monitoring_quarantine`. -/
structure QuarantineRow where
  id : Uuid
  queueKind : QueueKind
  jobId : Option Uuid
  resultId : Option Uuid
  workerPoolId : Option String
  snapshotHash : Option String
  safeReason : String
  encryptedPayload : SealedPayload
  redriveCount : Nat := 0
  status : QuarantineStatus := .quarantined
  approver : Option String := none
  redriveReason : Option String := none
  reviewedAt : Option Time := none
  expiresAt : Time

/-- The tables of the FIFO path. `check_result_conflicts_result_id_idx` and
`monitoring_quarantine_result_id_idx` are the two unique indexes. -/
structure Ledger where
  jobs : Table Uuid CheckJob
  outbox : Table Uuid Dispatch
  checks : Table Uuid HealthCheck
  gaps : Table GapKey CoverageGap
  conflicts : Indexed fun r : ResultConflict => some r.resultId
  quarantine : Indexed QuarantineRow.resultId

def Ledger.empty : Ledger :=
  { jobs := .empty, outbox := .empty, checks := .empty, gaps := .empty
    conflicts := .empty, quarantine := .empty }

/-! ## The core -/

/-- `monitors`, the columns scheduling and testing read. -/
structure Monitor where
  organizationId : Uuid
  environmentId : Uuid
  version : Int
  targetUrl : String
  method : String
  intervalSeconds : Int
  timeoutSeconds : Int
  expectedStatusMin : Int
  expectedStatusMax : Int
  nextCheckAt : Time
  pausedAt : Option Time
  deletedAt : Option Time
  headersCiphertext : Option Bytes
  headerKeyVersion : Option Int
  workerPoolId : String

/-- `monitor_schedule_periods`. -/
structure SchedulePeriod where
  organizationId : Uuid := 0
  environmentId : Uuid := 0
  monitorId : Uuid
  intervalSeconds : Int
  startsAt : Time
  firstSlotAt : Time
  endsAt : Option Time

/-- `worker_pools`. -/
structure WorkerPool where
  mode : PoolMode := .hosted
  enabled : Bool
  lifecycleState : PoolState
  schemaMin : Nat
  schemaMax : Nat
  networkPolicyVersion : Int
  encryptionKeyId : Option String
  encryptionPublicKey : Option Bytes
  resultKeyId : Option String
  resultPublicKey : Option Bytes
  jobQueueUrl : Option String
  jobQueueArn : Option String := none
  jobDlqUrl : Option String := none
  jobDlqArn : Option String := none
  manifestDigest : Option Bytes := none

/-- `worker_pool_credentials`. -/
structure WorkerPoolCredential where
  workerPoolId : String
  purpose : CredentialPurpose
  keyId : String
  publicMaterial : Option Bytes
  fingerprint : String := ""
  status : CredentialStatus
  activatesAt : Time
  revokedAt : Option Time := none
  notAfter : Option Time := none

/-- `org_members`, under an organization and a user. -/
structure OrgMember where
  role : Role
  incidentNotificationsEnabled : Bool

/-- `organizations`. -/
structure Organization where
  deletedAt : Option Time := none

/-- `environments`. -/
structure Environment where
  organizationId : Uuid

/-- `CHECK (role IN ('admin', 'member', 'viewer'))`. -/
abbrev AssignableRole := { r : Role // r ≠ .owner }

/-- `org_invitations`. -/
structure OrgInvitation where
  organizationId : Uuid
  invitedByUserId : Uuid
  email : String
  role : AssignableRole
  tokenDigest : Bytes
  expiresAt : Time
  acceptedAt : Option Time := none
  createdAt : Time

/-- `users`. -/
structure User where
  email : String
  emailVerifiedAt : Option Time

/-- `CHECK (… BETWEEN 1 AND 20)`. -/
abbrev Threshold := { n : Nat // 1 ≤ n ∧ n ≤ 20 }

/-- `alert_rules`, under the monitor: `rule_key` admits one value only, so
`UNIQUE (monitor_id, rule_key)` leaves one rule for a monitor. -/
structure AlertRule where
  id : Uuid
  organizationId : Uuid
  environmentId : Uuid
  failureThreshold : Threshold := ⟨3, by decide⟩
  recoveryThreshold : Threshold := ⟨2, by decide⟩
  enabled : Bool := true

/-- `monitor_reliability_states`. -/
structure ReliabilityState where
  displayState : ObservedState := .unknown
  observedState : ObservedState := .unknown
  consecutiveFailures : Nat := 0
  consecutiveSuccesses : Nat := 0
  lastObservedScheduledAt : Option Time := none
  lastObservedJobId : Option Uuid := none
  newestExpectedScheduledAt : Option Time := none
  lastEvaluatedScheduledAt : Option Time := none
  lastEvaluatedJobId : Option Uuid := none
  updatedAt : Time

/-- `monitor_result_evaluations`, under the job. -/
structure Evaluation where
  monitorId : Uuid
  scheduledAt : Time
  succeeded : Bool
  observedState : ObservedState
  consecutiveFailures : Nat
  consecutiveSuccesses : Nat
  evaluatedAt : Time

/-- `monitor_evaluation_positions`. -/
structure EvaluationPosition where
  lastScheduledAt : Option Time
  lastJobId : Option Uuid
  invalidatedFrom : Option Time
  updatedAt : Time

/-- `monitor_state_correction_events`, under the monitor and the job. -/
structure StateCorrection where
  correctedFrom : Time
  previousDisplayState : ObservedState
  correctedDisplayState : ObservedState

/-- `incidents`. -/
structure Incident where
  organizationId : Uuid
  environmentId : Uuid
  monitorId : Uuid
  alertRuleId : Uuid
  status : IncidentStatus := .isOpen
  startedAt : Time
  openedAt : Time
  acknowledgedAt : Option Time := none
  acknowledgedByUserId : Option Uuid := none
  resolvedAt : Option Time := none
  resolvedByUserId : Option Uuid := none
  resolutionKind : Option ResolutionKind := none
  resolutionReason : Option String := none
  updatedAt : Time

/-- `incident_events`. -/
structure IncidentEvent where
  organizationId : Uuid
  environmentId : Uuid
  incidentId : Uuid
  eventKey : EventKey
  eventType : EventType
  actorUserId : Option Uuid
  sourceJobId : Option Uuid
  safeReason : Option String
  occurredAt : Time

/-- `notification_outbox`, under the event and the recipient: `channel` admits
one value only. -/
structure NotificationDelivery where
  organizationId : Uuid
  incidentId : Uuid
  recipientEmail : String
  transition : Transition

/-- Configuration, and everything derived from accepted checks. -/
structure Core where
  monitors : Table Uuid Monitor
  periods : List SchedulePeriod
  pools : Table String WorkerPool
  credentials : List WorkerPoolCredential
  members : Table (Uuid × Uuid) OrgMember
  users : Table Uuid User
  rules : Table Uuid AlertRule
  states : Table Uuid ReliabilityState
  evaluations : Table Uuid Evaluation
  positions : Table Uuid EvaluationPosition
  corrections : Table (Uuid × Uuid) StateCorrection
  incidents : Table Uuid Incident
  incidentEvents : Table Uuid IncidentEvent
  notifications : Table (Uuid × Uuid) NotificationDelivery
  organizations : Table Uuid Organization := .empty
  environments : Table Uuid Environment := .empty
  invitations : Table Uuid OrgInvitation := .empty

def Core.empty : Core :=
  { monitors := .empty, periods := [], pools := .empty, credentials := []
    members := .empty, users := .empty, rules := .empty, states := .empty
    evaluations := .empty, positions := .empty, corrections := .empty
    incidents := .empty, incidentEvents := .empty, notifications := .empty }

/-! ## The journal -/

/-- `monitoring_operational_events`. -/
structure OperationalEvent where
  eventType : OperationalEventType
  jobId : Option Uuid
  workerPoolId : Option String
  safeDetails : String

/-- `api_refresh_events`. The identity and the time are given by the insert. -/
structure RefreshEvent where
  id : Int := 0
  organizationId : Uuid
  environmentId : Option Uuid
  eventType : String
  resourceType : String
  resourceId : Uuid
  occurredAt : Time := 0

/-- `audit_logs`. -/
structure AuditLog where
  organizationId : Uuid
  actorUserId : Uuid
  action : String
  resourceType : String
  resourceId : Uuid

inductive AuditAction
  | register
  | activate
  | drain
  | revoke
  | deleteStart
  | fail
  | redrive
  deriving DecidableEq

/-- `worker_pool_audit_events`. -/
structure AuditEvent where
  workerPoolId : String
  action : AuditAction
  actor : String
  reason : String

/-- The primary key of `monitor_rollup_invalidations`. -/
structure InvalidationKey where
  monitorId : Uuid
  bucketKind : BucketKind
  bucketStart : Time
  deriving DecidableEq

structure RollupInvalidation where
  reason : InvalidationReason
  invalidatedAt : Time

/-- `monitor_rollups_hourly` and `monitor_rollups_daily`. -/
structure Rollup where
  organizationId : Uuid
  environmentId : Uuid
  expectedChecks : Nat
  observedChecks : Nat
  successfulChecks : Nat
  unknownChecks : Nat
  totalDurationMicroseconds : Int
  updatedAt : Time

/-- `monitoring_rollup_checkpoint`, a table of one row. A date is the instant
it begins at in UTC. -/
structure RollupCheckpoint where
  hourlyThrough : Time := 0
  dailyThrough : Time := 0
  lastRetentionAt : Option Time := none
  updatedAt : Time := 0

/-- What is written for others to read. Rollups are kept under the monitor and
the start of the bucket. -/
structure Journal where
  operational : List OperationalEvent
  refresh : List RefreshEvent
  invalidations : Table InvalidationKey RollupInvalidation
  hourly : Table (Uuid × Time) Rollup := .empty
  daily : Table (Uuid × Time) Rollup := .empty
  checkpoint : RollupCheckpoint := {}
  audit : List AuditEvent := []
  auditLogs : List AuditLog := []

def Journal.empty : Journal :=
  { operational := [], refresh := [], invalidations := .empty }

/-! ## The database and its locks -/

structure Database where
  ledger : Ledger
  core : Core
  journal : Journal

/-- What a statement can lock: a row by its primary key, or a value of a
unique index that an insert claims before the row is visible to others. -/
inductive Key
  | job (id : Uuid)
  | slot (monitorId : Uuid) (scheduledAt : Time)
  | outstanding (monitorId : Uuid)
  | dispatch (jobId : Uuid)
  | check (jobId : Uuid)
  | checkResult (resultId : Uuid)
  | gap (key : GapKey)
  | conflict (resultId : Uuid)
  | quarantine (resultId : Uuid)
  | organization (id : Uuid)
  | monitor (id : Uuid)
  | openPeriod (monitorId : Uuid)
  | rule (monitorId : Uuid)
  | state (monitorId : Uuid)
  | evaluation (jobId : Uuid)
  | position (monitorId : Uuid)
  | correction (monitorId jobId : Uuid)
  | incident (id : Uuid)
  | openIncident (monitorId ruleId : Uuid)
  | incidentEvent (incidentId : Uuid) (eventKey : EventKey)
  | notification (eventId userId : Uuid)
  | invalidation (key : InvalidationKey)
  | hourlyRollup (monitorId : Uuid) (bucketStart : Time)
  | dailyRollup (monitorId : Uuid) (bucketStart : Time)
  | rollupCheckpoint
  | pool (id : String)
  | credential (workerPoolId : String) (purpose : CredentialPurpose) (keyId : String)
  | quarantineRow (id : Uuid)
  | manualTestQueue
  | member (organizationId userId : Uuid)
  | ownership (organizationId : Uuid)
  | invitation (id : Uuid)
  | invitationDigest (digest : Bytes)
  | activeInvitation (organizationId : Uuid) (email : String)
  deriving DecidableEq

/-- `(scheduled_at, job_id)`, compared as PostgreSQL compares rows. -/
abbrev OrderKey := Int ×ₗ Nat

def orderKey (scheduledAt : Time) (jobId : Uuid) : OrderKey :=
  toLex (scheduledAt, jobId)

end WatchTrace.Model
