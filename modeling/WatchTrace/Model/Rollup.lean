import Mathlib.Data.List.Sort
import Mathlib.Data.List.Dedup
import WatchTrace.Arith.Series
import WatchTrace.Tx.Rows
import WatchTrace.Model.Outside

/-!
# Rollups

`RollupHour` and `RollupDay` of `internal/reliability/rollups.go`.

An hour is computed from the slots the schedule periods ask for, whether or
not a check was made. The slots themselves are arithmetic on the rows of
`monitor_schedule_periods`; `GetMonitorReliabilityReport` computes them by the
same expression, with the two ends of the report in place of the bucket.
-/

namespace WatchTrace.Model

open Tx Arith

/-- `time.Truncate`, and `date_trunc` in UTC for hours and days. -/
def truncate (t d : Time) : Time := t - t % d

/-! ## Expected slots -/

/-- The slots of one period in `[fromAt, toAt)`. -/
def SchedulePeriod.slots (p : SchedulePeriod) (fromAt toAt : Time) : List Time :=
  let step := p.intervalSeconds * second
  let endsAt := p.endsAt.getD toAt
  if p.startsAt < toAt ∧ fromAt < endsAt then
    (generateSeries (p.firstSlotAt + max 0 (ceilDiv (fromAt - p.firstSlotAt) step) * step)
      (min endsAt toAt - microsecond) step).filter fun slot => decide (max fromAt p.startsAt ≤ slot)
  else []

/-- `expected_slots` of one monitor. -/
def Core.expectedSlots (c : Core) (monitorId : Uuid) (fromAt toAt : Time) : List Time :=
  (c.periods.filter fun p => p.monitorId == monitorId).flatMap fun p => p.slots fromAt toAt

/-! ## Counting -/

/-- The health checks the join finds for one slot. -/
def Ledger.checksAt (l : Ledger) (monitorId : Uuid) (slot : Time) : List HealthCheck :=
  (l.checks.rows.map Prod.snd).filter fun h => h.monitorId == monitorId &&
    h.jobType == .scheduled && h.scheduledAt == slot

@[ext] structure SlotCounts where
  expected : Nat := 0
  observed : Nat := 0
  successful : Nat := 0
  totalDurationMicroseconds : Int := 0
  deriving DecidableEq

/-- The rows one slot contributes to the left join. A slot without a check is
one row all the same. -/
def SlotCounts.ofChecks (checks : List HealthCheck) : SlotCounts :=
  { expected := max 1 checks.length
    observed := checks.length
    successful := checks.countP HealthCheck.succeeded
    totalDurationMicroseconds :=
      (checks.map HealthCheck.totalDurationMicroseconds).sum }

instance : Zero SlotCounts := ⟨{}⟩

instance : Add SlotCounts := ⟨fun a b =>
  { expected := a.expected + b.expected
    observed := a.observed + b.observed
    successful := a.successful + b.successful
    totalDurationMicroseconds :=
      a.totalDurationMicroseconds + b.totalDurationMicroseconds }⟩

/-- The aggregate over some slots of one monitor. -/
def Ledger.countSlots (l : Ledger) (monitorId : Uuid) (slots : List Time) :
    SlotCounts :=
  (slots.map fun slot => SlotCounts.ofChecks (l.checksAt monitorId slot)).sum

/-! ## Writing rollups and clearing marks

The hourly and the daily table have the same columns, and so have the
statements about them. -/

def Journal.rollups (j : Journal) : BucketKind → Table (Uuid × Time) Rollup
  | .hourly => j.hourly
  | .daily => j.daily

def Journal.setRollups (j : Journal) (kind : BucketKind)
    (t : Table (Uuid × Time) Rollup) : Journal :=
  match kind with
  | .hourly => { j with hourly := t }
  | .daily => { j with daily := t }

def rollupLock : BucketKind → Uuid → Time → Key
  | .hourly => .hourlyRollup
  | .daily => .dailyRollup

/-- What `ON CONFLICT (monitor_id, bucket_start) DO UPDATE` leaves: the tenant
columns of a row that is there stay. -/
def Rollup.over (row : Rollup) : Option Rollup → Rollup
  | none => row
  | some old => { row with
      organizationId := old.organizationId, environmentId := old.environmentId }

/-- One row of an aggregate, under its monitor. -/
def upsertRollup (kind : BucketKind) (bucketStart : Time) (row : Uuid × Rollup) : Stmt Nat :=
  onJournal fun _ _ _ j =>
    let key := (row.1, bucketStart)
    let stored := row.2.over ((j.rollups kind).find key)
    some
      { value := 1
        write := fun j => j.setRollups kind ((j.rollups kind).put key stored)
        locks := [rollupLock kind row.1 bucketStart] }

/-- The `::bigint` of the summed durations. -/
def Rollup.fits (row : Rollup) : Bool :=
  decide (row.totalDurationMicroseconds < 2 ^ 63)

/-- `INSERT … SELECT … FROM aggregate ON CONFLICT DO UPDATE`. -/
def upsertRollups (kind : BucketKind) (bucketStart : Time)
    (aggregate : Database → Time → List (Uuid × Rollup)) :
    Prog (Except Fault Nat) :=
  forRows (fun begun _ _ db =>
      let rows := aggregate db begun.now
      if rows.all fun e => e.2.fits then some { value := rows } else none)
    (upsertRollup kind bucketStart)

/-- The marks of one bucket, of whatever monitor. -/
def Journal.marksOf (j : Journal) (kind : BucketKind) (bucketStart : Time) : List InvalidationKey :=
  (j.invalidations.rows.map Prod.fst).filter fun key =>
    key.bucketKind == kind && key.bucketStart == bucketStart

/-- The delete of one row, which may be gone by now. -/
def deleteRow {κ ρ : Type} [DecidableEq κ] (table : Database → Table κ ρ)
    (remove : κ → Database → Database) (locks : κ → List Key) (key : κ) : Stmt Nat :=
  fun _ _ _ db =>
    match (table db).find key with
    | none => some { value := 0 }
    | some _ => some { value := 1, write := remove key, locks := locks key }

def Database.withoutMark (key : InvalidationKey) (db : Database) : Database :=
  { db with journal := { db.journal with
      invalidations := db.journal.invalidations.drop key } }

/-- A mark that was set again in the meantime has the same key, so it is
removed all the same. -/
def deleteRollupInvalidation : InvalidationKey → Stmt Nat :=
  deleteRow (fun db => db.journal.invalidations) Database.withoutMark fun key => [.invalidation key]

def deleteRollupInvalidations (kind : BucketKind) (bucketStart : Time) : Prog (Except Fault Nat) :=
  forRows (onJournal (.read fun j => j.marksOf kind bucketStart)) deleteRollupInvalidation

/-- The two statements both rollups end with, and their commit. -/
def storeRollups (kind : BucketKind) (bucketStart : Time)
    (aggregate : Database → Time → List (Uuid × Rollup)) :
    Prog (Except Failure Nat) := do
  let .ok count ← upsertRollups kind bucketStart aggregate
    | return .error .database
  let .ok _ ← deleteRollupInvalidations kind bucketStart
    | return .error .database
  let .ok () ← commit | return .error .database
  return .ok count

/-! ## `RollupHour` -/

/-- The monitors with at least one expected slot, each with the tenant its
periods belong to. -/
def Core.monitorsExpected (c : Core) (fromAt toAt : Time) : List Uuid :=
  ((c.periods.filter fun p => !(p.slots fromAt toAt).isEmpty).map SchedulePeriod.monitorId).dedup

def Core.tenantOf (c : Core) (monitorId : Uuid) : Uuid × Uuid :=
  match c.periods.find? fun p => p.monitorId == monitorId with
  | none => (0, 0)
  | some p => (p.organizationId, p.environmentId)

/-- The end of the hour, or the present if that is earlier. -/
def hourEnd (bucketStart now : Time) : Time := min (bucketStart + hour) now

/-- The row of one monitor in the aggregate of `UpsertHourlyMonitorRollups`. -/
def hourlyRollup (db : Database) (monitorId : Uuid) (bucketStart now : Time) :
    Rollup :=
  let counts := db.ledger.countSlots monitorId
    (db.core.expectedSlots monitorId bucketStart (hourEnd bucketStart now))
  { organizationId := (db.core.tenantOf monitorId).1
    environmentId := (db.core.tenantOf monitorId).2
    expectedChecks := counts.expected
    observedChecks := counts.observed
    successfulChecks := counts.successful
    unknownChecks := counts.expected - counts.observed
    totalDurationMicroseconds := counts.totalDurationMicroseconds
    updatedAt := now }

def hourlyAggregate (bucketStart : Time) (db : Database) (now : Time) : List (Uuid × Rollup) :=
  (db.core.monitorsExpected bucketStart (hourEnd bucketStart now)).map fun m =>
    (m, hourlyRollup db m bucketStart now)

def rollupHour (bucket : Time) : Prog (Except Failure Nat) := do
  let bucketStart := truncate bucket hour
  let .ok () ← start | return .error .database
  storeRollups .hourly bucketStart (hourlyAggregate bucketStart)

/-! ## `RollupDay` -/

def errHourlyRollupsPending : Failure := .message "hourly rollups pending"

/-- Some hour of the day that begins at `date` is marked. -/
def Journal.hourlyPending (j : Journal) (date : Time) : Bool :=
  j.invalidations.rows.any fun e => e.1.bucketKind == .hourly &&
    decide (date ≤ e.1.bucketStart ∧ e.1.bucketStart < date + day)

def hasHourlyRollupInvalidationsForDay (date : Time) : Stmt Bool :=
  onJournal (.read fun j => j.hourlyPending date)

/-- The hourly rows of one day. -/
def Journal.hoursOf (j : Journal) (date : Time) : List ((Uuid × Time) × Rollup) :=
  j.hourly.rows.filter fun e => decide (date ≤ e.1.2 ∧ e.1.2 < date + day)

/-- The row of one monitor in the grouped sums of `UpsertDailyMonitorRollups`. -/
def dailyRollup (j : Journal) (monitorId : Uuid) (date now : Time) : Rollup :=
  let hours := ((j.hoursOf date).filter fun e => e.1.1 == monitorId).map Prod.snd
  let tenant := match hours with
    | [] => (0, 0)
    | r :: _ => (r.organizationId, r.environmentId)
  { organizationId := tenant.1
    environmentId := tenant.2
    expectedChecks := (hours.map Rollup.expectedChecks).sum
    observedChecks := (hours.map Rollup.observedChecks).sum
    successfulChecks := (hours.map Rollup.successfulChecks).sum
    unknownChecks := (hours.map Rollup.unknownChecks).sum
    totalDurationMicroseconds := (hours.map Rollup.totalDurationMicroseconds).sum
    updatedAt := now }

def dailyAggregate (date : Time) (db : Database) (now : Time) : List (Uuid × Rollup) :=
  ((db.journal.hoursOf date).map fun e => e.1.1).dedup.map fun m =>
    (m, dailyRollup db.journal m date now)

def rollupDay (t : Time) : Prog (Except Failure Nat) := do
  let date := truncate t day
  let .ok () ← start | return .error .database
  let .ok hourlyPending ← query (hasHourlyRollupInvalidationsForDay date)
    | return .error .database
  if hourlyPending then
    rollback
    return .error errHourlyRollupsPending
  else storeRollups .daily date (dailyAggregate date)

/-! ## The checkpoint -/

def updateRollupCheckpoint (f : Time → RollupCheckpoint → RollupCheckpoint) : Stmt Unit :=
  onJournal fun begun _ _ _ => some
    { value := ()
      write := fun j => { j with checkpoint := f begun.now j.checkpoint }
      locks := [.rollupCheckpoint] }

end WatchTrace.Model
