import WatchTrace.Model.Incident
import WatchTrace.Model.Retention

/-!
# Reports

`Report` of `internal/reliability/service.go` with `MonitorReport` of
`internal/backendapi/checks.go`, which answers it to a member of the
organization.
-/

namespace WatchTrace.Model

open Tx

/-! ## `reliability.Report` -/

/-- `reliability.Report`. The two ratios are what the floating-point numbers
stand for. -/
structure Reliability where
  expected : Int
  observed : Int
  successful : Int
  unknown : Int := 0
  observedUptime : Option Rat := none
  coverage : Option Rat := none
  deriving DecidableEq

def Reliability.normalize (r : Reliability) : Reliability :=
  let observed := max r.observed 0
  let successful := min (max r.successful 0) observed
  let expected := max r.expected 0
  let observed := min observed expected
  { expected := expected, observed := observed, successful := successful
    unknown := expected - observed
    observedUptime := if 0 < observed then some ((successful : Rat) / observed)
      else none
    coverage := if 0 < expected then some ((observed : Rat) / expected) else none }

def getMonitorReliabilityReport (monitorId : Uuid) (fromAt toAt : Time) : Stmt SlotCounts :=
  .read fun db => db.ledger.countSlots monitorId (db.core.expectedSlots monitorId fromAt toAt)

def errReportWindow : Failure := .message "invalid report window"

def report (monitorId : Uuid) (fromAt toAt : Time) :
    Prog (Except Failure Reliability) := do
  let now ← clock
  let toAt := if now < toAt then now else toAt
  if toAt ≤ fromAt then return .error errReportWindow
  else
    let .ok () ← start | return .error .database
    let .ok row ← query (getMonitorReliabilityReport monitorId
      (databaseTimestamp fromAt) (databaseTimestamp toAt))
      | return .error .database
    rollback
    return .ok (Reliability.normalize
      { expected := row.expected, observed := row.observed
        successful := row.successful })

/-! ## `backendapi.MonitorReport` -/

/-- `backendapi.PageQuery`, what a report reads of it. The zero time is a
missing bound. -/
structure PageQuery where
  limit : Int
  fromAt : Option Time
  toAt : Option Time

def errInvalidQuery : Failure := .message "invalid bounded query"

def errResourceNotFound : Failure := .message "resource not found"

def errPermissionDenied : Failure := .message "permission denied"

/-- The window of the query; each missing bound is read off the clock. -/
def normalizeQuery (q : PageQuery) (maxWindow : Time) :
    Prog (Except Failure (Time × Time)) := do
  let limit := if q.limit = 0 then 50 else q.limit
  if limit < 1 ∨ 100 < limit then return .error errInvalidQuery
  else
    let fromAt ← (match q.fromAt with
      | some t => return t
      | none => do return (← clock) - 24 * hour)
    let toAt ← (match q.toAt with
      | some t => return t
      | none => clock)
    if toAt ≤ fromAt ∨ maxWindow < toAt - fromAt then
      return .error errInvalidQuery
    else return .ok (fromAt, toAt)

/-- A monitor that is not deleted, of an organization that is not, in which the
user has a role. -/
def Core.monitorAccess (c : Core) (userId environmentId monitorId : Uuid) :
    Option (Uuid × Role) := do
  let monitor ← c.monitors.find monitorId
  let organization ← c.organizations.find monitor.organizationId
  let member ← c.members.find (monitor.organizationId, userId)
  if monitor.environmentId = environmentId ∧ monitor.deletedAt = none ∧
      organization.deletedAt = none then
    some (monitor.organizationId, member.role)
  else none

def authorizeBackendMonitor (userId environmentId monitorId : Uuid) : Stmt (Option (Uuid × Role)) :=
  onCore (.read fun c => c.monitorAccess userId environmentId monitorId)

def authorizeMonitor (userId environmentId monitorId : Uuid) :
    Prog (Except Failure Uuid) := do
  let .ok found ← query (authorizeBackendMonitor userId environmentId monitorId)
    | return .error .database
  match found with
  | none => return .error errResourceNotFound
  | some (organizationId, role) =>
    if allows role .monitorsRead then return .ok organizationId
    else return .error errPermissionDenied

/-- Number of samples and total duration of the scheduled checks of a window. -/
def getMonitorLatencyTotals (monitorId : Uuid) (fromAt toAt : Time) : Stmt (Nat × Int) :=
  onLedger fun _ _ _ l =>
    let samples := (l.checks.rows.map Prod.snd).filter fun h =>
      h.monitorId == monitorId && h.jobType == .scheduled &&
        decide (fromAt ≤ h.scheduledAt ∧ h.scheduledAt < toAt)
    let total := (samples.map HealthCheck.totalDurationMicroseconds).sum
    if total < 2 ^ 63 then some { value := (samples.length, total) } else none

def bucketLength : BucketKind → Time
  | .hourly => hour
  | .daily => day

def getFirstMonitorRollupInvalidation (monitorId : Uuid) (fromAt toAt : Time) :
    Stmt (Option Time) :=
  onJournal (.read fun j => ((j.invalidations.rows.filter fun e =>
    e.1.monitorId == monitorId && decide (e.1.bucketStart < toAt ∧
      fromAt < e.1.bucketStart + bucketLength e.1.bucketKind)).map fun e => e.2.invalidatedAt).min?)

/-- `backendapi.Report`. -/
structure MonitorReport where
  fromAt : Time
  toAt : Time
  base : Reliability
  averageLatencyMilliseconds : Option Rat
  fresh : Bool
  correctedAt : Option Time
  deriving DecidableEq

def monitorReport (userId environmentId monitorId : Uuid) (q : PageQuery) :
    Prog (Except Failure MonitorReport) := do
  match ← normalizeQuery q (366 * day) with
  | .error failure => return .error failure
  | .ok (fromAt, toAt) =>
    let .ok () ← start | return .error .database
    let authorized ← authorizeMonitor userId environmentId monitorId
    rollback
    match authorized with
    | .error failure => return .error failure
    | .ok _ =>
      match ← report monitorId fromAt toAt with
      | .error failure => return .error failure
      | .ok base =>
        let .ok () ← start | return .error .database
        let .ok latency ← query (getMonitorLatencyTotals monitorId
          (databaseTimestamp fromAt) (databaseTimestamp toAt))
          | return .error .database
        let .ok invalidated ← query (getFirstMonitorRollupInvalidation
          monitorId (databaseTimestamp fromAt) (databaseTimestamp toAt))
          | return .error .database
        rollback
        return .ok
          { fromAt := fromAt, toAt := toAt, base := base
            averageLatencyMilliseconds :=
              if 0 < latency.1 then some ((latency.2 : Rat) / latency.1 / 1000)
              else none
            fresh := invalidated.isNone
            correctedAt := invalidated }

end WatchTrace.Model
