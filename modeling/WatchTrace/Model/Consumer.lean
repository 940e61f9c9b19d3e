import WatchTrace.Model.Publisher

/-!
# Result consumption

`ConsumeNext` of `internal/fifo/consumer.go`. A delivery is checked against
its own attributes, then against the job it names, whose row stays locked for
the rest of the transaction. The first result of a job is accepted, with all
that follows from it; the same one again only repairs the dispatch; another
one is put on record as a conflict. The acknowledgement comes after the
commit.
-/

namespace WatchTrace.Model

open Tx

/-! ## Statements -/

/-- The active or retired signing credential of a pool under a key id; of
several, the one activated last. -/
def signingCredential (c : Core) (workerPoolId resultKeyId : String) : Option Bytes :=
  let credential := (c.credentials.filter fun k =>
    k.workerPoolId == workerPoolId && k.purpose == .resultSigning && k.keyId == resultKeyId &&
      (k.status == .active || k.status == .retired)).insertionSort
        fun a b => b.activatesAt ≤ a.activatesAt
  credential.head?.bind WorkerPoolCredential.publicMaterial

/-- The signing key a pool's results are verified with: an active or retired
credential under the key id, or the pool's own key. -/
def resultPublicKey (c : Core) (workerPoolId : String) (pool : WorkerPool)
    (resultKeyId : String) : Option Bytes :=
  match signingCredential c workerPoolId resultKeyId with
  | some material => some material
  | none => if pool.resultKeyId = some resultKeyId then pool.resultPublicKey else none

/-- The locked job with its id and the key its result has to verify with. -/
structure LockedJob where
  id : Uuid
  row : CheckJob
  resultPublicKey : Bytes

/-- `… FOR UPDATE OF check_jobs`. -/
def lockResultCheckJob (resultKeyId : String) (jobId : IdText) : Stmt (Option LockedJob) :=
  fun _ _ _ db =>
    match jobId.toUuid? with
    | none => none
    | some id =>
      match db.ledger.jobs.find id with
      | none => some { value := none }
      | some job =>
        match db.core.pools.find job.workerPoolId with
        | none => some { value := none }
        | some pool => some
            { value := some ⟨id, job, (resultPublicKey db.core
                job.workerPoolId pool resultKeyId).getD []⟩
              locks := [.job id] }

def getAcceptedHealthCheck (jobId : Uuid) : Stmt (Option HealthCheck) :=
  onLedger (.read fun l => l.checks.find jobId)

def insertResultConflict (jobId : Uuid) (resultId : IdText)
    (workerPoolId snapshotHash : String) (payload : SealedPayload) : Stmt Unit :=
  onLedger fun _ _ _ l =>
    match resultId.toUuid? with
    | none => none
    | some id =>
      if l.conflicts.holds id then some { value := () }
      else some
        { value := ()
          write := fun l => { l with
            conflicts := l.conflicts.add
              { jobId := jobId, resultId := id
                workerPoolId := workerPoolId, snapshotHash := snapshotHash
                safeReason := "conflicting valid result"
                encryptedPayload := payload } }
          locks := [.conflict id] }

/-- No `ON CONFLICT` clause: a result id that is already quarantined violates
`monitoring_quarantine_result_id_idx`. -/
def insertConflictingResultQuarantine (jobId : Uuid) (resultId : IdText)
    (workerPoolId snapshotHash : String) (payload : SealedPayload) : Stmt Unit :=
  onLedger fun begun env _ l =>
    match resultId.toUuid? with
    | none => none
    | some id =>
      if l.quarantine.holds id then none
      else some
        { value := ()
          write := fun l => { l with
            quarantine := l.quarantine.add
              { id := env.uuid, queueKind := .result, jobId := some jobId
                resultId := some id, workerPoolId := some workerPoolId
                snapshotHash := some snapshotHash
                safeReason := "conflicting valid result"
                encryptedPayload := payload
                expiresAt := begun.now + 14 * day } }
          locks := [.quarantine id] }

/-- The lease columns stay as they are. -/
def markDispatchRepaired (jobId : Uuid) : Stmt Unit :=
  onLedger fun begun _ _ l =>
    match l.outbox.find jobId with
    | none => some { value := () }
    | some row =>
      if row.publishState = .published then some { value := () }
      else updateDispatch jobId row
        { row with publishState := .repaired, updatedAt := begun.now } ()

/-- The row an accepted result becomes. -/
def acceptedRow (job : CheckJob) (result : Result) (resultId attemptId : Uuid) : HealthCheck :=
  { resultId := resultId, organizationId := job.organizationId
    environmentId := job.environmentId, monitorId := job.monitorId
    jobType := job.jobType, scheduledAt := job.scheduledAt
    startedAt := result.startedAt, completedAt := result.completedAt
    succeeded := result.succeeded, statusCode := result.statusCode
    errorCategory := result.errorCategory
    totalDurationMicroseconds := result.totalMicros
    snapshotHash := job.snapshotHash, workerPoolId := job.workerPoolId
    workerId := result.workerId, executionAttemptId := attemptId
    dnsDurationMicroseconds := result.dnsMicros
    connectDurationMicroseconds := result.connectMicros
    tlsDurationMicroseconds := result.tlsMicros
    firstByteDurationMicroseconds := result.firstByteMicros }

def insertAcceptedHealthCheck (jobId : Uuid) (job : CheckJob) (result : Result) : Stmt Unit :=
  onLedger fun _ _ _ l =>
    match result.resultId.toUuid?, result.attemptId.toUuid? with
    | some resultId, some attemptId =>
      let row := acceptedRow job result resultId attemptId
      if !row.admissible || (l.checks.find jobId).isSome ||
          l.checks.rows.any (fun e => e.2.resultId == resultId) then none
      else some
        { value := ()
          write := fun l => { l with checks := l.checks.put jobId row }
          locks := [.check jobId, .checkResult resultId] }
    | _, _ => none

def completeCheckJob (jobId : Uuid) (result : Result) : Stmt Unit :=
  onLedger fun _ _ _ l =>
    match result.attemptId.toUuid?, l.jobs.find jobId with
    | none, _ => none
    | some _, none => some { value := () }
    | some attemptId, some job =>
      if 128 < result.workerId.utf8ByteSize then none
      else some (updateJob jobId { job with
        state := .completed, startedAt := some result.startedAt
        completedAt := some result.completedAt
        workerId := some result.workerId
        executionAttemptId := some attemptId, lastSafeError := none } ())

/-- The two reasons an accepted result takes back. -/
def recoveredGaps (monitorId : Uuid) (scheduledAt : Time) : List GapKey :=
  [⟨monitorId, scheduledAt, .expired⟩, ⟨monitorId, scheduledAt, .dead⟩]

/-- A `DELETE` removes the rows it finds; one that is committed later stays. -/
def deleteRecoveredCoverageGaps (monitorId : Uuid) (scheduledAt : Time) : Stmt Unit :=
  onLedger fun _ _ _ l =>
    let found := (recoveredGaps monitorId scheduledAt).filter fun k => (l.gaps.find k).isSome
    some
      { value := ()
        write := fun l => { l with gaps := found.foldl Table.drop l.gaps }
        locks := found.map .gap }

def upsertRollupInvalidation (key : InvalidationKey) (reason : InvalidationReason) : Stmt Unit :=
  onJournal fun begun _ _ _ => some
    { value := ()
      write := fun j => { j with
        invalidations := j.invalidations.put key
          { reason := reason, invalidatedAt := begun.now } }
      locks := [.invalidation key] }

/-- `date_trunc('hour', scheduled_at)` in UTC. -/
def upsertHourlyRollupInvalidation (monitorId : Uuid) (scheduledAt : Time)
    (reason : InvalidationReason) : Stmt Unit :=
  upsertRollupInvalidation ⟨monitorId, .hourly, scheduledAt - scheduledAt % hour⟩ reason

/-- `date_trunc('day', scheduled_at)` in UTC. -/
def upsertDailyRollupInvalidation (monitorId : Uuid) (scheduledAt : Time)
    (reason : InvalidationReason) : Stmt Unit :=
  upsertRollupInvalidation ⟨monitorId, .daily, scheduledAt - scheduledAt % day⟩ reason

def insertAcceptedCheckRefreshEvent (organizationId environmentId jobId : Uuid) : Stmt Unit :=
  insertRefreshEvent
    { organizationId := organizationId, environmentId := environmentId
      eventType := "check.accepted", resourceType := "check"
      resourceId := jobId }

def databasePing : Stmt Nat := .read fun _ => 1

/-! ## `ConsumeNext` -/

variable (P : Primitives)

def databaseReady : Prog (Except Failure Bool) := do
  let .ok () ← start | return .error .database
  match ← query databasePing with
  | .error _ =>
    rollback
    return .error .database
  | .ok one =>
    rollback
    return .ok (one == 1)

/-- The result in a delivery, when the unsigned attributes agree with it. -/
def peekDelivery (d : ResultDelivery) : Option Result :=
  match peekResult P d.body with
  | none => none
  | some peeked =>
    if peeked.jobId = d.attributes.jobId ∧ peeked.resultId = d.attributes.resultId ∧
        peeked.workerPoolId = d.attributes.workerPoolId ∧
        peeked.snapshotHash = d.attributes.snapshotHash ∧
        peeked.resultKeyId = d.attributes.resultKeyId ∧
        peeked.schemaVersion = d.attributes.schemaVersion then
      some peeked
    else none

/-- The verified result, when it belongs to the locked job and its times are
plausible. -/
def verifiedFor (job : LockedJob) (d : ResultDelivery) (now : Time) : Option Result :=
  match verifyResult P d.body job.resultPublicKey with
  | none => none
  | some result =>
    if result.workerPoolId = job.row.workerPoolId ∧ result.snapshotHash = job.row.snapshotHash ∧
        result.scheduledAt = job.row.scheduledAt ∧
        ¬ result.startedAt < job.row.scheduledAt - 5 * second ∧
        ¬ job.row.expiresAt + 5 * second < result.startedAt ∧
        ¬ now + 5 * second < result.completedAt then
      some result
    else none

/-- The delivered identity is the accepted one, text by text. -/
def HealthCheck.sameIdentity (h : HealthCheck) (result : Result) : Bool :=
  h.snapshotHash == result.snapshotHash &&
    IdText.canonical h.executionAttemptId == result.attemptId &&
    IdText.canonical h.resultId == result.resultId

/-- The commit, and after it the acknowledgement. -/
def commitAndAcknowledge (d : ResultDelivery) : Prog (Bool × Option Failure) := do
  let .ok () ← commit | return (true, some .database)
  let acknowledged ← call (.acknowledgeResult d)
  if acknowledged then return (true, none) else return (true, some .service)

/-- The conflict branch: the errors of its three statements are dropped. -/
def recordConflict (d : ResultDelivery) (job : LockedJob) (result : Result) :
    Prog (Bool × Option Failure) := do
  match ← sealPayload d.body ("result:", some result.resultId) with
  | .error failure => return (true, some failure)
  | .ok encrypted =>
    let _ ← query (insertResultConflict job.id result.resultId
      job.row.workerPoolId job.row.snapshotHash encrypted)
    let _ ← query (insertConflictingResultQuarantine job.id result.resultId
      job.row.workerPoolId job.row.snapshotHash encrypted)
    let _ ← query (insertMonitoringOperationalEvent .resultConflict
      result.jobId job.row.workerPoolId "conflicting valid result")
    commitAndAcknowledge d

/-- What follows from an evaluation: incidents, the record of a correction, and
the rollups to be computed again. -/
def applyScheduled (job : LockedJob) (evaluatedAt : Time) (late corrected : Bool) :
    Prog (Except Failure Unit) := do
  let .ok () ← (if late then return .ok ()
    else applyEvaluationTx job.row.monitorId job.id corrected evaluatedAt)
    | return .error .database
  let .ok () ← (if corrected || late then
      query (insertMonitoringOperationalEvent .lateCorrection
        (.canonical job.id) job.row.workerPoolId
        (if corrected then "ordered state and rollup correction"
          else "raw and rollup correction only"))
    else return .ok ()) | return .error .database
  let reason : InvalidationReason :=
    if corrected || late then .lateResult else .acceptedResult
  let .ok () ← query (upsertHourlyRollupInvalidation job.row.monitorId
    job.row.scheduledAt reason) | return .error .database
  let .ok () ← query (upsertDailyRollupInvalidation job.row.monitorId
    job.row.scheduledAt reason) | return .error .database
  return .ok ()

/-- What an accepted scheduled result means for the state of its monitor.
Beyond the correction window it means nothing, and only the rollups are
marked. -/
def evaluateScheduled (job : LockedJob) (evaluatedAt : Time) :
    Prog (Except Failure Unit) := do
  let late := decide (job.row.expiresAt + 10 * minute < evaluatedAt)
  let .ok corrected ← evaluateAcceptedTx job.row.monitorId job.id
    job.row.scheduledAt job.row.expiresAt evaluatedAt
    | return .error .database
  applyScheduled job evaluatedAt late corrected

/-- The statements of an acceptance, from the insert of the health check to
the refresh event. `now` is the clock of the evaluation. -/
def acceptResult (now : Prog Time) (job : LockedJob) (result : Result) :
    Prog (Except Failure Unit) := do
  let .ok () ← query (insertAcceptedHealthCheck job.id job.row result)
    | return .error .database
  let .ok () ← query (completeCheckJob job.id result)
    | return .error .database
  let .ok () ← query (markDispatchRepaired job.id) | return .error .database
  let .ok () ← query (deleteRecoveredCoverageGaps job.row.monitorId
    job.row.scheduledAt) | return .error .database
  let .ok () ← (if job.row.jobType = .scheduled then
      now >>= evaluateScheduled job
    else return .ok ()) | return .error .database
  let .ok () ← query (insertAcceptedCheckRefreshEvent job.row.organizationId
    job.row.environmentId job.id) | return .error .database
  return .ok ()

/-- A verified result of a locked job. -/
def settleResult (d : ResultDelivery) (job : LockedJob) (result : Result) :
    Prog (Bool × Option Failure) := do
  let .ok existing ← query (getAcceptedHealthCheck job.id)
    | return (true, some .database)
  match existing with
  | some row =>
    if row.sameIdentity result then
      let _ ← query (markDispatchRepaired job.id)
      commitAndAcknowledge d
    else recordConflict d job result
  | none =>
    let .ok () ← acceptResult clock job result
      | return (true, some .database)
    commitAndAcknowledge d

/-- A delivery whose attributes agree with its body. -/
def consumeDelivery (d : ResultDelivery) (peeked : Result) :
    Prog (Bool × Option Failure) := do
  let .ok () ← start | return (true, some .database)
  let .ok found ← query (lockResultCheckJob peeked.resultKeyId peeked.jobId)
    | return (true, some .database)
  match found with
  | none => return (true, some errInvalid)
  | some job =>
    let now ← clock
    match verifiedFor P job d now with
    | none => return (true, some errInvalid)
    | some result => settleResult d job result

def consumeNext : Prog (Bool × Option Failure) := do
  match ← databaseReady with
  | .error failure => return (false, some failure)
  | .ok false => return (false, some (.message "result database unavailable"))
  | .ok true =>
    match ← call .pullResult with
    | .noMessage => return (false, none)
    | .failed => return (false, some .service)
    | .message d =>
      match peekDelivery P d with
      | none => return (true, some errInvalid)
      | some peeked => consumeDelivery P d peeked

end WatchTrace.Model
