import WatchTrace.Model.Rollup

/-!
# Retention

`CleanupLedger` of `internal/fifo/maintenance.go` and `ApplyRetention` of
`internal/reliability/maintenance.go`: the deletes, with the references that
can forbid them.

Two tables refer to a job without saying what happens when it goes:
`health_checks`, by tenant, monitor and job, and `check_result_conflicts`. A
job that one of them still names cannot be deleted, and the statement that
tries fails as a whole. A dispatch goes with its job, and an evaluation with
its health check.
-/

namespace WatchTrace.Model

open Tx

/-- What a timestamp becomes on its way to the server, which counts
microseconds. -/
def databaseTimestamp (t : Time) : Time := truncate t microsecond

/-! ## Jobs -/

/-- `state IN ('dead', 'expired', 'cancelled', 'quarantined')`. -/
def JobState.abandoned : JobState → Bool
  | .dead | .expired | .cancelled | .quarantined => true
  | _ => false

/-- The condition of both statements that delete jobs. A job without a time of
completion is never old. -/
def CheckJob.stale (job : CheckJob) (completedBefore nonterminalBefore : Time) :
    Bool :=
  match job.completedAt with
  | none => false
  | some completedAt =>
    (job.state == .completed && decide (completedAt < completedBefore)) ||
      (job.state.abandoned && decide (completedAt < nonterminalBefore))

/-- `health_checks_tenant_job_fkey`. -/
def Ledger.checkRefers (l : Ledger) (jobId : Uuid) (job : CheckJob) : Bool :=
  match l.checks.find jobId with
  | none => false
  | some check => check.organizationId == job.organizationId &&
      check.environmentId == job.environmentId && check.monitorId == job.monitorId

/-- The foreign key of `check_result_conflicts`. -/
def Ledger.conflictRefers (l : Ledger) (jobId : Uuid) : Bool :=
  l.conflicts.rows.any fun conflict => conflict.jobId == jobId

def Ledger.referenced (l : Ledger) (jobId : Uuid) (job : CheckJob) : Bool :=
  l.checkRefers jobId job || l.conflictRefers jobId

def listStaleJobs (stale : CheckJob → Bool) (kept : Ledger → Uuid → Bool) : Stmt (List Uuid) :=
  onLedger (.read fun l => (l.jobs.rows.filter fun e => stale e.2 && !kept l e.1).map Prod.fst)

def deleteCheckJob (stale : CheckJob → Bool) (jobId : Uuid) : Stmt Nat :=
  onLedger fun _ _ _ l =>
    match l.jobs.find jobId with
    | none => some { value := 0 }
    | some job =>
      if stale job then
        if l.referenced jobId job then none
        else some
          { value := 1
            write := fun l => { l with
              jobs := l.jobs.drop jobId, outbox := l.outbox.drop jobId }
            locks := [.job jobId, .dispatch jobId] }
      else some { value := 0 }

def deleteStaleJobs (completedBefore nonterminalBefore : Time)
    (kept : Ledger → Uuid → Bool) : Prog (Except Fault Nat) :=
  let stale := fun job => CheckJob.stale job completedBefore nonterminalBefore
  forRows (listStaleJobs stale kept) (deleteCheckJob stale)

/-- `DeleteOldLedgerJobs` asks nothing about what refers to the job. -/
def deleteOldLedgerJobs (completedBefore nonterminalBefore : Time) : Prog (Except Fault Nat) :=
  deleteStaleJobs completedBefore nonterminalBefore fun _ _ => false

/-- `DeleteRetainedCheckJobs` leaves a job that has a health check. -/
def deleteRetainedCheckJobs (completedBefore nonterminalBefore : Time) : Prog (Except Fault Nat) :=
  deleteStaleJobs completedBefore nonterminalBefore fun l jobId => (l.checks.find jobId).isSome

def cleanupLedger (now : Time) : Prog (Except Failure Nat) := do
  let .ok () ← start | return .error .database
  let .ok count ← deleteOldLedgerJobs (databaseTimestamp (now - 48 * hour))
    (databaseTimestamp (now - 7 * day)) | return .error .database
  let .ok () ← commit | return .error .database
  return .ok count

/-! ## Raw checks, gaps and rollups -/

/-- A rollup of the bucket of `t` exists, and no mark asks for a new one. -/
def Journal.settled (j : Journal) (kind : BucketKind) (monitorId : Uuid) (t : Time) : Bool :=
  let bucketStart := truncate t (match kind with
    | .hourly => hour
    | .daily => day)
  ((j.rollups kind).find (monitorId, bucketStart)).isSome &&
    (j.invalidations.find ⟨monitorId, kind, bucketStart⟩).isNone

def HealthCheck.disposable (check : HealthCheck) (j : Journal) (deleteBefore : Time) : Bool :=
  decide (check.scheduledAt < deleteBefore) && j.settled .hourly check.monitorId check.scheduledAt

def listRetainedHealthChecks (deleteBefore : Time) : Stmt (List Uuid) :=
  .read fun db => (db.ledger.checks.rows.filter fun e =>
    e.2.disposable db.journal deleteBefore).map Prod.fst

/-- The evaluation of the result goes with it. -/
def Database.withoutCheck (jobId : Uuid) (db : Database) : Database :=
  { db with
    ledger := { db.ledger with checks := db.ledger.checks.drop jobId }
    core := { db.core with evaluations := db.core.evaluations.drop jobId } }

def deleteHealthCheck : Uuid → Stmt Nat :=
  deleteRow (fun db => db.ledger.checks) Database.withoutCheck fun jobId =>
    [.check jobId, .evaluation jobId]

def deleteRetainedHealthChecks (deleteBefore : Time) : Prog (Except Fault Nat) :=
  forRows (listRetainedHealthChecks deleteBefore) deleteHealthCheck

def listRetainedCoverageGaps (deleteBefore : Time) : Stmt (List GapKey) :=
  .read fun db => (db.ledger.gaps.rows.map Prod.fst).filter fun key =>
    decide (key.scheduledAt < deleteBefore) &&
      db.journal.settled .hourly key.monitorId key.scheduledAt

def Database.withoutGap (key : GapKey) (db : Database) : Database :=
  { db with ledger := { db.ledger with gaps := db.ledger.gaps.drop key } }

def deleteCoverageGap : GapKey → Stmt Nat :=
  deleteRow (fun db => db.ledger.gaps) Database.withoutGap fun key => [.gap key]

def deleteRetainedCoverageGaps (deleteBefore : Time) : Prog (Except Fault Nat) :=
  forRows (listRetainedCoverageGaps deleteBefore) deleteCoverageGap

def Database.withoutRollup (kind : BucketKind) (key : Uuid × Time) (db : Database) : Database :=
  let left := (db.journal.rollups kind).drop key
  { db with journal := db.journal.setRollups kind left }

/-- Rows of one rollup table. -/
def deleteRollups (kind : BucketKind) (old : Journal → Uuid × Time → Bool) :
    Prog (Except Fault Nat) :=
  forRows (onJournal (.read fun j => ((j.rollups kind).rows.map Prod.fst).filter (old j)))
    (deleteRow (fun db => db.journal.rollups kind) (Database.withoutRollup kind)
      fun key => [rollupLock kind key.1 key.2])

def deleteRetainedHourlyRollups (deleteBefore : Time) : Prog (Except Fault Nat) :=
  deleteRollups .hourly fun j key => decide (key.2 < deleteBefore) && j.settled .daily key.1 key.2

def deleteRetainedDailyRollups (deleteBefore : Time) : Prog (Except Fault Nat) :=
  deleteRollups .daily fun _ key => decide (key.2 < deleteBefore)

/-! ## `ApplyRetention` -/

/-- The year a day of the proleptic Gregorian calendar belongs to, when years
begin on the first of March; `date` counts from the epoch. -/
def marchYear (date : Int) : Int :=
  let shifted := date + 719468
  let inEra := shifted % 146097
  (inEra - inEra / 1460 + inEra / 36524 - inEra / 146096) / 365 + shifted / 146097 * 400

def leapYear (year : Int) : Bool :=
  decide (year % 4 = 0 ∧ (year % 100 ≠ 0 ∨ year % 400 = 0))

/-- `now.AddDate(-1, 0, 0).Format("2006-01-02")`, as the instant that day
begins at. The 29th of February becomes the first of March. Between a day and
the same day a year before lies the end of a February, which is the one of the
year that began with the March before the day. -/
def dateYearBefore (now : Time) : Time :=
  let date := now / day
  (date - (if leapYear (marchYear date) then 366 else 365)) * day

def recordRetentionCheckpoint (retainedAt : Time) : Stmt Unit :=
  updateRollupCheckpoint fun now c =>
    { c with lastRetentionAt := some retainedAt, updatedAt := now }

def applyRetention (now : Time) : Prog (Except Failure Nat) := do
  let .ok () ← start | return .error .database
  let .ok checks ← deleteRetainedHealthChecks (databaseTimestamp (now - 7 * day))
    | return .error .database
  let .ok gaps ← deleteRetainedCoverageGaps (databaseTimestamp (now - 7 * day))
    | return .error .database
  let .ok hourly ← deleteRetainedHourlyRollups
    (databaseTimestamp (now - 90 * day)) | return .error .database
  let .ok daily ← deleteRetainedDailyRollups (dateYearBefore now)
    | return .error .database
  let .ok jobs ← deleteRetainedCheckJobs (databaseTimestamp (now - 48 * hour))
    (databaseTimestamp (now - 7 * day)) | return .error .database
  let .ok () ← query (recordRetentionCheckpoint (databaseTimestamp now))
    | return .error .database
  let .ok () ← commit | return .error .database
  return .ok (checks + gaps + hourly + daily + jobs)

end WatchTrace.Model
