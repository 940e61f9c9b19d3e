import Mathlib.Data.List.Sort
import WatchTrace.Model.Outside

/-!
# Ordered evaluation

`internal/reliability/evaluation.go` with the statements of
`db/queries/reliability.sql` it issues. An evaluation locks the monitor's
state row, decides whether it appends to what was evaluated before, corrects
it from an accepted slot on, or starts over, folds the listed results and
stores what came out.

The code tells a missing row (`pgx.ErrNoRows`) from a failed statement; here a
`:one` query answers an `Option`, and an error is an error of the statement.
-/

namespace WatchTrace.Model

open Tx

/-! ## Statements -/

/-- One row of the three listings of scheduled checks. -/
structure ObservedResult where
  jobId : Uuid
  scheduledAt : Time
  succeeded : Bool
  deriving DecidableEq

def ObservedResult.key (r : ObservedResult) : OrderKey :=
  orderKey r.scheduledAt r.jobId

def HealthCheck.observed? (monitorId : Uuid) (e : Uuid × HealthCheck) : Option ObservedResult :=
  if e.2.monitorId = monitorId ∧ e.2.jobType = .scheduled then
    some ⟨e.1, e.2.scheduledAt, e.2.succeeded⟩
  else none

/-- `… WHERE monitor_id = … AND job_type = 'scheduled' ORDER BY scheduled_at,
job_id`. -/
def scheduledChecks (l : Ledger) (monitorId : Uuid) : List ObservedResult :=
  (l.checks.rows.filterMap (HealthCheck.observed? monitorId)).insertionSort fun a b => a.key ≤ b.key

def listAllScheduledHealthChecks (monitorId : Uuid) : Stmt (List ObservedResult) :=
  .read fun db => scheduledChecks db.ledger monitorId

def listScheduledHealthChecksFrom (monitorId : Uuid) (scheduledAt : Time)
    (jobId : Uuid) : Stmt (List ObservedResult) :=
  .read fun db => (scheduledChecks db.ledger monitorId).filter fun r =>
    orderKey scheduledAt jobId ≤ r.key

def listScheduledHealthChecksAfter (monitorId : Uuid) (scheduledAt : Time)
    (jobId : Uuid) : Stmt (List ObservedResult) :=
  .read fun db => (scheduledChecks db.ledger monitorId).filter fun r =>
    orderKey scheduledAt jobId < r.key

/-- An evaluation with its job, as a listing shows it. -/
structure EvaluatedResult where
  jobId : Uuid
  row : Evaluation

def EvaluatedResult.key (r : EvaluatedResult) : OrderKey :=
  orderKey r.row.scheduledAt r.jobId

/-- The evaluations of a monitor in ascending `(scheduled_at, job_id)`. -/
def orderedEvaluations (c : Core) (monitorId : Uuid) : List EvaluatedResult :=
  (c.evaluations.rows.filterMap fun e =>
    if e.2.monitorId = monitorId then some (EvaluatedResult.mk e.1 e.2)
    else none).insertionSort fun a b => a.key ≤ b.key

def ensureMonitorReliabilityState (monitorId : Uuid) : Stmt Unit :=
  onCore fun begun _ _ c =>
    match c.monitors.find monitorId, c.states.find monitorId with
    | some _, none => some
        { value := ()
          write := fun c => { c with
            states := c.states.put monitorId { updatedAt := begun.now } }
          locks := [.state monitorId] }
    | _, _ => some { value := () }

def lockMonitorReliabilityState (monitorId : Uuid) : Stmt (Option ReliabilityState) :=
  onCore fun _ _ _ c =>
    match c.states.find monitorId with
    | none => some { value := none }
    | some state => some { value := some state, locks := [.state monitorId] }

/-- The thresholds of the enabled rule. -/
def alertThresholds (c : Core) (monitorId : Uuid) : Option (Threshold × Threshold) :=
  match c.rules.find monitorId with
  | none => none
  | some rule =>
    if rule.enabled then some (rule.failureThreshold, rule.recoveryThreshold)
    else none

def getMonitorAlertThresholds (monitorId : Uuid) : Stmt (Option (Threshold × Threshold)) :=
  onCore (.read fun c => alertThresholds c monitorId)

def getReliabilityBaselineBefore (monitorId : Uuid) (scheduledAt : Time)
    (jobId : Uuid) : Stmt (Option EvaluatedResult) :=
  onCore (.read fun c => ((orderedEvaluations c monitorId).filter fun e =>
    e.key < orderKey scheduledAt jobId).getLast?)

def deleteReliabilityEvaluationsFrom (monitorId : Uuid) (scheduledAt : Time)
    (jobId : Uuid) : Stmt Unit :=
  onCore fun _ _ _ c =>
    let doomed := ((orderedEvaluations c monitorId).filter fun e =>
      orderKey scheduledAt jobId ≤ e.key).map EvaluatedResult.jobId
    some
      { value := ()
        write := fun c => { c with
          evaluations := c.evaluations.keep fun id _ => !doomed.contains id }
        locks := doomed.map .evaluation }

/-- The `CHECK` constraints on both tables that hold counters. -/
def countersAdmissible (failures successes : Nat) : Bool :=
  decide (failures ≤ 20) && decide (successes ≤ 20)

def upsertMonitorResultEvaluation (monitorId : Uuid) (result : ObservedResult)
    (observed : ObservedState) (failures successes : Nat) : Stmt Unit :=
  onCore fun begun _ _ c =>
    if observed == .unknown || !countersAdmissible failures successes then none
    else
      let row : Evaluation := match c.evaluations.find result.jobId with
        | none =>
          { monitorId := monitorId, scheduledAt := result.scheduledAt
            succeeded := result.succeeded, observedState := observed
            consecutiveFailures := failures
            consecutiveSuccesses := successes, evaluatedAt := begun.now }
        | some old => { old with
            observedState := observed, consecutiveFailures := failures
            consecutiveSuccesses := successes, evaluatedAt := begun.now }
      some
        { value := ()
          write := fun c => { c with
            evaluations := c.evaluations.put result.jobId row }
          locks := [.evaluation result.jobId] }

/-- The last slot of one period that is not after `evaluatedAt`. -/
def SchedulePeriod.newestSlot (p : SchedulePeriod) (evaluatedAt : Time) : Option Time :=
  let upto := match p.endsAt with
    | none => evaluatedAt
    | some endsAt => min (endsAt - microsecond) evaluatedAt
  let step := p.intervalSeconds * second
  if p.startsAt ≤ evaluatedAt ∧ p.firstSlotAt ≤ upto then
    some (p.firstSlotAt + (upto - p.firstSlotAt) / step * step)
  else none

def getNewestExpectedMonitorSlot (evaluatedAt : Time) (monitorId : Uuid) : Stmt (Option Time) :=
  onCore (.read fun c => ((c.periods.filter fun p =>
    p.monitorId = monitorId).filterMap fun p => p.newestSlot evaluatedAt).max?)

def getMonitorEvaluationAtSlot (monitorId : Uuid) (scheduledAt : Time) :
    Stmt (Option EvaluatedResult) :=
  onCore (.read fun c => ((orderedEvaluations c monitorId).filter fun e =>
    e.row.scheduledAt = scheduledAt).getLast?)

def updateMonitorReliabilityState (monitorId : Uuid) (display : ObservedState)
    (observed : ObservedState) (failures successes : Nat)
    (lastObservedAt : Option Time) (lastObservedJob : Option Uuid)
    (newestExpected : Option Time) (evaluatedJob : Option Uuid) : Stmt Unit :=
  onCore fun begun _ _ c =>
    match c.states.find monitorId with
    | none => some { value := () }
    | some _ =>
      if !countersAdmissible failures successes ||
          lastObservedAt.isNone != lastObservedJob.isNone then none
      else some
        { value := ()
          write := fun c => { c with
            states := c.states.put monitorId
              { displayState := display, observedState := observed
                consecutiveFailures := failures
                consecutiveSuccesses := successes
                lastObservedScheduledAt := lastObservedAt
                lastObservedJobId := lastObservedJob
                newestExpectedScheduledAt := newestExpected
                lastEvaluatedScheduledAt := newestExpected
                lastEvaluatedJobId := evaluatedJob
                updatedAt := begun.now } }
          locks := [.state monitorId] }

def upsertMonitorEvaluationPosition (monitorId : Uuid) (lastScheduledAt : Time)
    (lastJobId : Option Uuid) : Stmt Unit :=
  onCore fun begun _ _ _ => some
    { value := ()
      write := fun c => { c with
        positions := c.positions.put monitorId
          { lastScheduledAt := some lastScheduledAt, lastJobId := lastJobId
            invalidatedFrom := none, updatedAt := begun.now } }
      locks := [.position monitorId] }

def insertMonitorStateCorrection (monitorId acceptedJobId : Uuid)
    (correctedFrom : Time) (previous corrected : ObservedState) : Stmt Unit :=
  onCore fun _ _ _ c =>
    match c.corrections.find (monitorId, acceptedJobId) with
    | some _ => some { value := () }
    | none => some
        { value := ()
          write := fun c => { c with
            corrections := c.corrections.put (monitorId, acceptedJobId)
              { correctedFrom := correctedFrom, previousDisplayState := previous
                correctedDisplayState := corrected } }
          locks := [.correction monitorId acceptedJobId] }

/-! ## The evaluator -/

def failureThreshold : Nat := 3

def recoveryThreshold : Nat := 2

def correctionWindow : Time := 10 * minute

structure AcceptedSlot where
  jobId : Uuid
  scheduled : Time

/-- The part of `stateSnapshot` that is read again after it was taken. -/
structure StateSnapshot where
  display : ObservedState := .unknown
  observed : ObservedState := .unknown
  failures : Nat := 0
  successes : Nat := 0
  lastObservedAt : Option Time := none
  lastObservedJob : Option Uuid := none

def ReliabilityState.snapshot (s : ReliabilityState) : StateSnapshot :=
  { display := s.displayState, observed := s.observedState
    failures := s.consecutiveFailures, successes := s.consecutiveSuccesses
    lastObservedAt := s.lastObservedScheduledAt
    lastObservedJob := s.lastObservedJobId }

def advanceObservedState (state : ObservedState) (failures successes : Nat)
    (succeeded : Bool) (failureLimit recoveryLimit : Nat) :
    ObservedState × Nat × Nat :=
  if succeeded then
    if state = .down then
      if successes + 1 ≥ recoveryLimit then (.healthy, 0, 0)
      else (.down, 0, successes + 1)
    else (.healthy, 0, 0)
  else
    let failures := if failures < failureLimit then failures + 1 else failures
    if failures ≥ failureLimit then (.down, failureLimit, 0)
    else (.degraded, failures, 0)

def orderAfter (leftTime : Time) (leftId : Uuid) (rightTime : Time) (rightId : Uuid) : Bool :=
  decide (rightTime < leftTime) || (leftTime == rightTime && decide (rightId < leftId))

/-- The accepted slot, when it does not come after the last observed one and
the evaluation therefore has to go back to it. -/
def correctionOf (current : StateSnapshot) (accepted : Option AcceptedSlot) : Option AcceptedSlot :=
  match accepted, current.lastObservedAt, current.lastObservedJob with
  | some slot, some at_, some job =>
    if orderAfter slot.scheduled slot.jobId at_ job then none else some slot
  | _, _, _ => none

/-- Where the fold starts: from the current state, or from the newest
evaluation before the corrected slot, whose successors are deleted. -/
def loadBaseline (monitorId : Uuid) (current : StateSnapshot)
    (correction : Option AcceptedSlot) : Prog (Except Failure StateSnapshot) := do
  match correction with
  | none => return .ok current
  | some slot =>
    let .ok previous ← query (getReliabilityBaselineBefore monitorId
      slot.scheduled slot.jobId) | return .error .database
    let baseline : StateSnapshot := match previous with
      | none => {}
      | some e =>
        { observed := e.row.observedState
          failures := e.row.consecutiveFailures
          successes := e.row.consecutiveSuccesses
          lastObservedAt := some e.row.scheduledAt
          lastObservedJob := some e.jobId }
    let .ok () ← query (deleteReliabilityEvaluationsFrom monitorId
      slot.scheduled slot.jobId) | return .error .database
    return .ok baseline

def listResults (monitorId : Uuid) (current : StateSnapshot) (correction : Option AcceptedSlot) :
    Prog (Except Fault (List ObservedResult)) :=
  match correction, current.lastObservedAt, current.lastObservedJob with
  | some slot, _, _ => query (listScheduledHealthChecksFrom monitorId slot.scheduled slot.jobId)
  | none, some at_, some job => query (listScheduledHealthChecksAfter monitorId at_ job)
  | none, _, _ => query (listAllScheduledHealthChecks monitorId)

/-- The loop over the listed results. -/
def evaluateResults (monitorId : Uuid) (failureLimit recoveryLimit : Nat) :
    List ObservedResult → StateSnapshot → Prog (Except Failure StateSnapshot)
  | [], s => return .ok s
  | result :: rest, s => do
      let (observed, failures, successes) := advanceObservedState s.observed
        s.failures s.successes result.succeeded failureLimit recoveryLimit
      let .ok () ← query (upsertMonitorResultEvaluation monitorId result
        observed failures successes) | return .error .database
      evaluateResults monitorId failureLimit recoveryLimit rest
        { s with
          observed := observed, failures := failures, successes := successes
          lastObservedAt := some result.scheduledAt
          lastObservedJob := some result.jobId }

/-- The state on display: that of the newest expected slot. -/
def displayAt (monitorId : Uuid) (newestExpected : Option Time) :
    Prog (Except Failure (ObservedState × Option Uuid)) := do
  match newestExpected with
  | none => return .ok (.unknown, none)
  | some slot =>
    let .ok evaluation ← query (getMonitorEvaluationAtSlot monitorId slot)
      | return .error .database
    match evaluation with
    | none => return .ok (.unknown, none)
    | some e => return .ok (e.row.observedState, some e.jobId)

def recordPosition (monitorId : Uuid) (newestExpected : Option Time)
    (evaluatedJob : Option Uuid) : Prog (Except Fault Unit) :=
  match newestExpected with
  | none => return .ok ()
  | some slot => query (upsertMonitorEvaluationPosition monitorId slot evaluatedJob)

def recordCorrection (monitorId : Uuid) (correction : Option AcceptedSlot)
    (previous corrected : ObservedState) : Prog (Except Fault Unit) :=
  match correction with
  | none => return .ok ()
  | some slot =>
    query (insertMonitorStateCorrection monitorId slot.jobId slot.scheduled previous corrected)

/-- The limits of an evaluation: those of the enabled rule, or the defaults. -/
def evaluationLimits : Option (Threshold × Threshold) → Nat × Nat
  | none => (failureThreshold, recoveryThreshold)
  | some (failure, recovery) => (failure.val, recovery.val)

/-- `evaluateTx` from the moment the state row is locked. -/
def evaluateLocked (monitorId : Uuid) (accepted : Option AcceptedSlot)
    (now : Time) (current : StateSnapshot) : Prog (Except Failure Bool) := do
  let .ok thresholds ← query (getMonitorAlertThresholds monitorId)
    | return .error .database
  let (failureLimit, recoveryLimit) := evaluationLimits thresholds
  let correction := correctionOf current accepted
  let .ok baseline ← loadBaseline monitorId current correction
    | return .error .database
  let .ok results ← listResults monitorId current correction
    | return .error .database
  let .ok final ← evaluateResults monitorId failureLimit recoveryLimit results
    baseline | return .error .database
  let .ok newestExpected ← query (getNewestExpectedMonitorSlot now monitorId)
    | return .error .database
  let .ok (display, evaluatedJob) ← displayAt monitorId newestExpected
    | return .error .database
  let .ok () ← query (updateMonitorReliabilityState monitorId display
    final.observed final.failures final.successes final.lastObservedAt
    final.lastObservedJob newestExpected evaluatedJob)
    | return .error .database
  let .ok () ← recordPosition monitorId newestExpected evaluatedJob
    | return .error .database
  let .ok () ← recordCorrection monitorId correction current.display display
    | return .error .database
  return .ok correction.isSome

def evaluateTx (monitorId : Uuid) (accepted : Option AcceptedSlot)
    (now : Time) : Prog (Except Failure Bool) := do
  let .ok () ← query (ensureMonitorReliabilityState monitorId)
    | return .error .database
  let .ok (some state) ← query (lockMonitorReliabilityState monitorId)
    | return .error .database
  evaluateLocked monitorId accepted now state.snapshot

def evaluateAcceptedTx (monitorId jobId : Uuid)
    (scheduled expires now : Time) : Prog (Except Failure Bool) :=
  if expires + correctionWindow < now then return .ok false
  else evaluateTx monitorId (some ⟨jobId, scheduled⟩) now

def evaluateMonitor (monitorId : Uuid) (now : Time) :
    Prog (Except Failure Unit) := do
  let .ok () ← start | return .error .database
  let .ok _ ← evaluateTx monitorId none now | return .error .database
  let .ok () ← commit | return .error .database
  return .ok ()

def listMonitorsDueForStateRefresh (evaluatedAt : Time) (limit : Nat) : Stmt (List Uuid) :=
  onCore (.read fun c => (((c.monitors.rows.filter fun e =>
    e.2.deletedAt.isNone && c.periods.any fun p =>
      p.monitorId = e.1 && decide (p.startsAt ≤ evaluatedAt)).map
    Prod.fst).insertionSort (· ≤ ·)).take limit)

def evaluateMonitors (now : Time) : List Uuid → Prog (Except Failure Unit)
  | [] => return .ok ()
  | id :: rest => do
      let .ok () ← evaluateMonitor id now | return .error .database
      evaluateMonitors now rest

def refreshDueStates (now : Time) (limit : Nat) : Prog (Except Failure Nat) := do
  if limit < 1 || 1000 < limit then
    return .error (.message "invalid state refresh limit")
  let .ok () ← start | return .error .database
  let .ok ids ← query (listMonitorsDueForStateRefresh now limit)
    | return .error .database
  let .ok () ← commit | return .error .database
  let .ok () ← evaluateMonitors now ids | return .error .database
  return .ok ids.length

end WatchTrace.Model
