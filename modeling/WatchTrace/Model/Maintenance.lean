import WatchTrace.Model.Consumer

/-!
# Deadlines and dead letters

`SweepDeadlines` of `internal/fifo/maintenance.go`, and the reconciliation of
the two dead-letter queues of `internal/fifo/dlq.go`.
-/

namespace WatchTrace.Model

open Tx

/-! ## `SweepDeadlines`

`SweepExpiredCheckJobs` updates many jobs and inserts a gap for each. The
health check is looked for in the snapshot the statement began with; the
state and the deadline are tested again on a row that had to be waited for. -/

def CheckJob.overdue (job : CheckJob) (now : Time) : Bool :=
  job.state.active && decide (job.expiresAt < now)

def listOverdueJobs : Stmt (List Uuid) :=
  onLedger fun begun _ _ l => some
    { value := (l.jobs.rows.filter fun e =>
        e.2.overdue begun.now && (l.checks.find e.1).isNone).map Prod.fst }

def expireOverdueJob (jobId : Uuid) : Stmt (Option CheckJob) :=
  onLedger fun begun _ _ l =>
    match l.jobs.find jobId with
    | none => some { value := none }
    | some job =>
      if job.overdue begun.now then
        some (updateJob jobId { job with
          state := .expired, completedAt := some begun.now
          lastSafeError := some "start_expired" } (some job))
      else some { value := none }

def sweepEach : List Uuid → Nat → Prog (Except Fault Nat)
  | [], count => return .ok count
  | jobId :: rest, count => do
      let .ok swept ← query (expireOverdueJob jobId) | return .error .failed
      match swept with
      | none => sweepEach rest count
      | some job =>
        let .ok inserted ← query (insertMonitoringCoverageGap
          ⟨job.monitorId, job.scheduledAt, .expired⟩ job.organizationId
          job.environmentId) | return .error .failed
        sweepEach rest (count + inserted)

def sweepExpiredCheckJobs : Prog (Except Fault Nat) := do
  let .ok ids ← query listOverdueJobs | return .error .failed
  sweepEach ids 0

def sweepDeadlines : Prog (Except Failure Nat) := do
  let .ok () ← start | return .error .database
  let .ok count ← sweepExpiredCheckJobs | return .error .database
  let .ok () ← commit | return .error .database
  return .ok count

/-! ## `ReconcileNext` -/

/-- Rows affected, one or none. -/
def markCheckJobDead (jobId : IdText) (workerPoolId : String) : Stmt Nat :=
  onLedger fun begun _ _ l =>
    match jobId.toUuid? with
    | none => none
    | some id =>
      match l.jobs.find id with
      | none => some { value := 0 }
      | some job =>
        if job.workerPoolId = workerPoolId ∧ job.state ≠ .completed then
          some (updateJob id { job with
            state := .dead, completedAt := some begun.now
            lastSafeError := some "job_dlq" } 1)
        else some { value := 0 }

def insertDeadCoverageGapFromJob (jobId : IdText) : Stmt Nat :=
  match jobId.toUuid? with
  | none => fun _ _ _ _ => none
  | some id => insertCoverageGapFromJob .dead id

def reconcileJobDLQ (jobId : IdText) (workerPoolId : String) :
    Prog (Except Failure Unit) := do
  let .ok () ← start | return .error .database
  let .ok rowsAffected ← query (markCheckJobDead jobId workerPoolId)
    | return .error .database
  if rowsAffected = 0 then
    let .ok () ← commit | return .error .database
    return .ok ()
  else
    let _ ← query (insertDeadCoverageGapFromJob jobId)
    let _ ← query (insertMonitoringOperationalEvent .jobDlq jobId workerPoolId "job receive limit")
    let .ok () ← commit | return .error .database
    return .ok ()

/-- `decode(text, 'hex')`, written again in lower case. -/
def decodeHex (text : String) : Option String :=
  let digits := text.toList.map Char.toLower
  if digits.length % 2 = 0 ∧
      digits.all (fun c => "0123456789abcdef".toList.contains c) then
    some (String.ofList digits)
  else none

def insertInvalidResultQuarantine (payload : SealedPayload) : Stmt Unit :=
  onLedger fun begun env _ _ => some
    { value := ()
      write := fun l => { l with
        quarantine := l.quarantine.add
          { id := env.uuid, queueKind := .result, jobId := none
            resultId := none, workerPoolId := none, snapshotHash := none
            safeReason := "invalid result DLQ envelope"
            encryptedPayload := payload
            expiresAt := begun.now + 14 * day } } }

/-- `ON CONFLICT DO NOTHING`, unlike the insert for a conflicting result. -/
def insertResultDLQQuarantine (result : Result) (payload : SealedPayload) : Stmt Unit :=
  onLedger fun begun env _ l =>
    match result.jobId.toUuid?, result.resultId.toUuid?,
        decodeHex result.snapshotHash with
    | some jobId, some resultId, some hash =>
      if hash.utf8ByteSize ≠ 64 then none
      else if l.quarantine.holds resultId then some { value := () }
      else some
        { value := ()
          write := fun l => { l with
            quarantine := l.quarantine.add
              { id := env.uuid, queueKind := .result, jobId := some jobId
                resultId := some resultId
                workerPoolId := some result.workerPoolId
                snapshotHash := some hash
                safeReason := "result DLQ recovery"
                encryptedPayload := payload
                expiresAt := begun.now + 14 * day } }
          locks := [.quarantine resultId] }
    | _, _, _ => none

variable (P : Primitives)

/-- The statements for one message of the result queue. -/
def quarantineResult (peeked : Option Result) (payload : SealedPayload) :
    Prog (Except Fault Unit) := do
  match peeked with
  | none => query (insertInvalidResultQuarantine payload)
  | some result =>
    let .ok () ← query (insertResultDLQQuarantine result payload)
      | return .error .failed
    query (insertMonitoringOperationalEvent .resultDlq result.jobId
      result.workerPoolId "recoverable result quarantined")

def reconcileResultDLQ (d : DLQDelivery) : Prog (Except Failure Unit) := do
  let peeked := peekResult P d.body
  let associated : String × Option IdText := match peeked with
    | none => ("result:invalid", none)
    | some result => ("result:", some result.resultId)
  match ← sealPayload d.body associated with
  | .error failure => return .error failure
  | .ok sealed =>
    let .ok () ← start | return .error .database
    let .ok () ← quarantineResult peeked sealed | return .error .database
    let .ok () ← commit | return .error .database
    return .ok ()

def acknowledgeDLQ (d : DLQDelivery) (reconciled : Except Failure Unit) :
    Prog (Bool × Option Failure) := do
  match reconciled with
  | .error failure => return (true, some failure)
  | .ok () =>
    let acknowledged ← call (.acknowledgeDLQ d)
    if acknowledged then return (true, none)
    else return (true, some .service)

def reconcileNext : Prog (Bool × Option Failure) := do
  match ← call (.pullDLQ .job) with
  | .failed => return (false, some .service)
  | .message d =>
    let reconciled ← reconcileJobDLQ d.attributes.jobId d.attributes.workerPoolId
    acknowledgeDLQ d reconciled
  | .noMessage =>
    match ← call (.pullDLQ .result) with
    | .failed => return (false, some .service)
    | .noMessage => return (false, none)
    | .message d =>
      let reconciled ← reconcileResultDLQ P d
      acknowledgeDLQ d reconciled

end WatchTrace.Model
