import WatchTrace.Model.Incident

/-!
# Scheduling and manual tests

`ScheduleDue` of `internal/fifo/scheduler.go` and `TestNow` of
`internal/monitor/lifecycle.go`: the two calls that put a job and its outbox
row into the ledger, always in one transaction.
-/

namespace WatchTrace.Model

open Tx

/-! ## Statements -/

/-- An outstanding scheduled job of the monitor, as the partial unique index
`check_jobs_one_outstanding_scheduled_idx` sees it. -/
def Ledger.outstanding (l : Ledger) (monitorId : Uuid) : Bool :=
  l.jobs.rows.any fun e => e.2.monitorId == monitorId &&
    e.2.jobType == .scheduled && e.2.state.active

def Ledger.countActive (l : Ledger) (jobType : JobType) : Nat :=
  l.jobs.rows.countP fun e => e.2.jobType == jobType && e.2.state.active

/-- `UNIQUE (monitor_id, scheduled_at)`. -/
def Ledger.slotTaken (l : Ledger) (slot : Uuid × Time) : Bool :=
  l.jobs.rows.any fun e => e.2.slot == slot

def countActiveScheduledJobs : Stmt Nat :=
  onLedger (.read fun l => l.countActive .scheduled)

/-- `SELECT CURRENT_TIMESTAMP`, the time the transaction began. -/
def getDatabaseTime : Stmt Time := fun begun _ _ _ => some { value := begun.now }

/-- `SELECT gen_random_uuid()`. -/
def newJobId : Stmt Uuid := fun _ env _ _ => some { value := env.uuid }

structure DueMonitor where
  id : Uuid
  monitor : Monitor
  pool : WorkerPool

def dueMonitor? (now : Time) (db : Database) (e : Uuid × Monitor) : Option DueMonitor :=
  match db.core.pools.find e.2.workerPoolId with
  | none => none
  | some pool =>
    if pool.enabled && pool.lifecycleState == .active &&
        decide (e.2.nextCheckAt ≤ now) && e.2.pausedAt.isNone &&
        e.2.deletedAt.isNone && !db.ledger.outstanding e.1 then
      some ⟨e.1, e.2, pool⟩
    else none

/-- All due monitors, `ORDER BY next_check_at, id`. -/
def dueMonitors (now : Time) (db : Database) : List DueMonitor :=
  (db.core.monitors.rows.filterMap (dueMonitor? now db)).insertionSort fun a b =>
    orderKey a.monitor.nextCheckAt a.id ≤ orderKey b.monitor.nextCheckAt b.id

/-- `FOR UPDATE OF monitors SKIP LOCKED`: rows another transaction owns do not
count towards the batch. -/
def listDueScheduledMonitors (batch : Nat) : Stmt (List DueMonitor) :=
  fun begun _ busy db =>
    let taken := ((dueMonitors begun.now db).filter fun d => !busy (.monitor d.id)).take batch
    some { value := taken, locks := taken.map fun d => .monitor d.id }

/-- `ON CONFLICT DO NOTHING`; the answer is the number of rows inserted. -/
def insertMonitoringCoverageGap (key : GapKey) (organizationId : Uuid)
    (environmentId : Uuid) : Stmt Nat :=
  onLedger fun _ _ _ l =>
    match l.gaps.find key with
    | some _ => some { value := 0 }
    | none => some
        { value := 1
          write := fun l => { l with
            gaps := l.gaps.put key
              { organizationId := organizationId
                environmentId := environmentId } }
          locks := [.gap key] }

def insertMonitoringOperationalEvent (eventType : OperationalEventType)
    (jobId : IdText) (workerPoolId : String) (safeDetails : String) :
    Stmt Unit :=
  onJournal fun _ _ _ _ =>
    match jobId.nullable? with
    | none => none
    | some job => some
        { value := ()
          write := fun j => { j with
            operational := j.operational ++
              [{ eventType := eventType, jobId := job
                 workerPoolId :=
                  if workerPoolId = "" then none else some workerPoolId
                 safeDetails := safeDetails }] } }

def updateMonitorNextCheck (monitorId : Uuid) (nextCheckAt previous : Time) : Stmt Unit :=
  onCore fun _ _ _ c =>
    match c.monitors.find monitorId with
    | none => some { value := () }
    | some monitor =>
      if monitor.nextCheckAt = previous then some
        { value := ()
          write := fun c => { c with
            monitors := c.monitors.put monitorId
              { monitor with nextCheckAt := nextCheckAt } }
          locks := [.monitor monitorId] }
      else some { value := () }

/-- The effect of a job insert that violates nothing. -/
def insertJob (jobId : Uuid) (job : CheckJob) (α : Type) (value : α) : Effect Ledger Key α :=
  { value := value
    write := fun l => { l with jobs := l.jobs.put jobId job }
    locks := [.job jobId, .slot job.monitorId job.scheduledAt,
      .outstanding job.monitorId] }

/-- `ON CONFLICT (monitor_id, scheduled_at) DO NOTHING` covers one index only:
a repeated id or a second outstanding job is an error. -/
def createScheduledCheckJob (jobId : Uuid) (job : CheckJob) : Stmt Nat :=
  onLedger fun _ _ _ l =>
    if l.slotTaken job.slot then some { value := 0 }
    else if (l.jobs.find jobId).isSome || l.outstanding job.monitorId then none
    else some (insertJob jobId job Nat 1)

def createManualCheckJob (jobId : Uuid) (job : CheckJob) : Stmt Uuid :=
  onLedger fun _ _ _ l =>
    if l.slotTaken job.slot || (l.jobs.find jobId).isSome then none
    else some (insertJob jobId job Uuid jobId)

/-- The `CHECK` constraints on the payload columns of the outbox. -/
def DispatchPayload.admissible (p : DispatchPayload) (jobId : Uuid) : Bool :=
  decide (p.queueUrl.utf8ByteSize ≤ 2048) &&
    decide (1 ≤ p.messageBody.length ∧ p.messageBody.length ≤ 65536) &&
    (p.schemaVersion == 1 || p.schemaVersion == 2) &&
    decide (1 ≤ p.platformKeyId.utf8ByteSize ∧ p.platformKeyId.utf8ByteSize ≤ 64) &&
    decide (1 ≤ p.workerEncryptionKeyId.utf8ByteSize ∧ p.workerEncryptionKeyId.utf8ByteSize ≤ 64) &&
    p.snapshotHash.utf8ByteSize == 64 &&
    p.messageDeduplicationId == jobId && p.messageGroupId == jobId

def createDispatchOutbox (jobId : Uuid) (payload : DispatchPayload) : Stmt Unit :=
  onLedger fun begun _ _ l =>
    if !payload.admissible jobId || (l.outbox.find jobId).isSome then none
    else some
      { value := ()
        write := fun l => { l with
          outbox := l.outbox.put jobId
            { payload := payload, nextAttemptAt := begun.now
              createdAt := begun.now, updatedAt := begun.now } }
        locks := [.dispatch jobId] }

/-! ## `ScheduleDue` -/

def maxBatch : Nat := 100

def globalScheduledLimit : Nat := 1000

def jobStartWindow : Time := 2 * minute

/-- `Time.Sub`, which saturates. -/
def subTime (t u : Time) : Int := max (-(2 ^ 63)) (min (2 ^ 63 - 1) (t - u))

def nextSchedule (scheduled now : Time) (seconds : Int) : Option Time :=
  if seconds ≤ 0 then none
  else
    let interval := seconds * second
    let periods := int64 ((subTime now scheduled).tdiv interval + 1)
    let periods := if periods < 1 then 1 else periods
    let next := scheduled + int64 (periods * interval)
    some (if now < next then next else next + interval)

/-- `envelope.RequestLimits` as both creators of jobs set them. -/
def requestLimits : RequestLimits :=
  { maxResponseBytes := 65536, maxHeaderBytes := 32768, maxRedirects := 3 }

/-- `Keyring.Decrypt`: no ciphertext is no headers. -/
def decryptHeaders (P : Primitives) (ciphertext : Option Bytes)
    (version : Option Int) : Option (List (String × String)) :=
  if (ciphertext.getD []).length = 0 then some []
  else P.decryptHeaders ciphertext (version.getD 0)

def provisioned (pool : WorkerPool) : Bool :=
  (pool.encryptionPublicKey.getD []).length == 32 &&
    pool.encryptionKeyId.getD "" != "" && pool.jobQueueUrl.getD "" != ""

/-- The protocol version of a pool's jobs, when it has one. -/
def chosenSchema (pool : WorkerPool) : Option Nat :=
  let version := if pool.schemaMax < 2 then 1 else 2
  if version < pool.schemaMin || pool.schemaMax < version then none
  else some version

/-- The columns of an outbox row that come from the job and its sealed message. -/
def dispatchPayload (P : Primitives) (job : Job) (queueUrl : String) (sealed : Bytes)
    (hash : String) : DispatchPayload :=
  { workerPoolId := job.workerPoolId, queueUrl := queueUrl
    messageBody := P.base64 sealed, schemaVersion := job.schemaVersion.toNat
    platformKeyId := job.platformKeyId
    workerEncryptionKeyId := job.workerEncryptionKeyId, snapshotHash := hash
    messageDeduplicationId := job.jobId, messageGroupId := job.jobId
    expiresAt := job.expiresAt }

/-- A job and the payload of its outbox row, sealed. -/
def sealedPayload (P : Primitives) (job : Job) (queueUrl : String) :
    Prog (Option DispatchPayload) := do
  match ← sealJob job with
  | none => return none
  | some (sealed, hash) => return some (dispatchPayload P job queueUrl sealed hash)

def createScheduledDispatchOutbox (jobId : Uuid) (payload : DispatchPayload) :
    Stmt Unit := createDispatchOutbox jobId payload

def createManualDispatchOutbox (jobId : Uuid) (payload : DispatchPayload) :
    Stmt Unit := createDispatchOutbox jobId payload

/-- The slot of a due monitor falls outside the admission limit. -/
def recordAdmissionLimit (m : DueMonitor) (next : Time) :
    Prog (Except Failure Bool) := do
  let .ok _ ← query (insertMonitoringCoverageGap
    ⟨m.id, m.monitor.nextCheckAt, .admissionLimit⟩ m.monitor.organizationId
    m.monitor.environmentId) | return .error .database
  let _ ← query (insertMonitoringOperationalEvent .admissionLimit
    (.foreign "") m.monitor.workerPoolId "scheduled queue limit")
  let .ok () ← query (updateMonitorNextCheck m.id next m.monitor.nextCheckAt)
    | return .error .database
  return .ok false

/-- The slot a job is created for: the due one, or, when that one can no
longer start in time, the present with the missed slot on record. -/
def recordMissed (m : DueMonitor) (now : Time) : Prog (Except Fault Time) := do
  if m.monitor.nextCheckAt + jobStartWindow < now then
    let .ok _ ← query (insertMonitoringCoverageGap
      ⟨m.id, m.monitor.nextCheckAt, .missed⟩ m.monitor.organizationId
      m.monitor.environmentId) | return .error .failed
    return .ok now
  else return .ok m.monitor.nextCheckAt

/-- The job insert, and the outbox insert when there was one. -/
def insertScheduled (jobId : Uuid) (job : CheckJob) (payload : DispatchPayload) :
    Prog (Except Failure Bool) := do
  let .ok rowsAffected ← query (createScheduledCheckJob jobId job)
    | return .error .database
  if rowsAffected = 1 then
    let .ok () ← query (createScheduledDispatchOutbox jobId payload)
      | return .error .database
    return .ok true
  else return .ok false

/-- The job a due monitor is checked by. -/
def DueMonitor.job (m : DueMonitor) (platformKeyId : String) (version : Nat)
    (headers : List (String × String)) (jobId : Uuid) (scheduledAt : Time) : Job :=
  { schemaVersion := version, jobId := jobId, jobType := .scheduled
    workerPoolId := m.monitor.workerPoolId
    networkPolicyVersion := m.pool.networkPolicyVersion
    scheduledAt := scheduledAt, expiresAt := scheduledAt + jobStartWindow
    targetUrl := m.monitor.targetUrl, method := m.monitor.method
    timeoutSeconds := m.monitor.timeoutSeconds
    expectedStatusMin := m.monitor.expectedStatusMin
    expectedStatusMax := m.monitor.expectedStatusMax
    headers := headers, limits := requestLimits
    platformKeyId := platformKeyId
    workerEncryptionKeyId := m.pool.encryptionKeyId.getD "" }

/-- Its row in `check_jobs`. -/
def DueMonitor.row (m : DueMonitor) (scheduledAt : Time) (snapshotHash : String) :
    CheckJob :=
  { organizationId := m.monitor.organizationId
    environmentId := m.monitor.environmentId, monitorId := m.id
    jobType := .scheduled, state := .pendingPublish
    scheduledAt := scheduledAt, monitorVersion := m.monitor.version
    workerPoolId := m.monitor.workerPoolId, snapshotHash := snapshotHash
    expiresAt := scheduledAt + jobStartWindow }

/-- One turn of the loop of `ScheduleDue`: whether a job was created. -/
def scheduleMonitor (P : Primitives) (platformKeyId : String) (now : Time)
    (outstanding : Nat) (m : DueMonitor) : Prog (Except Failure Bool) := do
  let some next := nextSchedule m.monitor.nextCheckAt now
    m.monitor.intervalSeconds | return .error (.message "invalid interval")
  if globalScheduledLimit ≤ outstanding then recordAdmissionLimit m next
  else
    if !provisioned m.pool then
      return .error (.message "worker pool is not provisioned")
    let some headers := decryptHeaders P m.monitor.headersCiphertext m.monitor.headerKeyVersion
      | return .error (.message "monitor headers unavailable")
    let .ok jobId ← query newJobId | return .error .database
    let .ok scheduledAt ← recordMissed m now | return .error .database
    let some version := chosenSchema m.pool
      | return .error (.message "worker pool has no compatible protocol schema")
    let some payload ← sealedPayload P (m.job platformKeyId version headers jobId scheduledAt)
      (m.pool.jobQueueUrl.getD "") | return .error errInvalid
    let .ok created ← insertScheduled jobId (m.row scheduledAt payload.snapshotHash)
      payload | return .error .database
    let .ok () ← query (updateMonitorNextCheck m.id next
      m.monitor.nextCheckAt) | return .error .database
    return .ok created

def scheduleMonitors (P : Primitives) (platformKeyId : String) (now : Time) :
    Nat → Nat → List DueMonitor → Prog (Except Failure Nat)
  | _, created, [] => return .ok created
  | outstanding, created, m :: rest => do
      match ← scheduleMonitor P platformKeyId now outstanding m with
      | .error failure => return .error failure
      | .ok true => scheduleMonitors P platformKeyId now (outstanding + 1) (created + 1) rest
      | .ok false => scheduleMonitors P platformKeyId now outstanding created rest

def scheduleDue (P : Primitives) (platformKeyId : String) (batch : Nat) :
    Prog (Except Failure Nat) := do
  if batch < 1 || maxBatch < batch then
    return .error (.message "invalid scheduler batch")
  let .ok () ← start | return .error .database
  let .ok outstanding ← query countActiveScheduledJobs
    | return .error .database
  let .ok now ← query getDatabaseTime | return .error .database
  let .ok due ← query (listDueScheduledMonitors batch)
    | return .error .database
  match ← scheduleMonitors P platformKeyId now outstanding 0 due with
  | .error failure => return .error failure
  | .ok created =>
    let .ok () ← commit | return .error .database
    return .ok created

/-! ## `TestNow` -/

def errMonitorNotFound : Failure := .message "monitor not found"

def errMonitorForbidden : Failure := .message "permission denied"

def errManualQueueFull : Failure := .message "manual check queue limit reached"

def errQueueUnavailable : Failure := .message "monitor queue unavailable"

def lockManagedMonitor (userId environmentId monitorId : Uuid) : Stmt (Option (Monitor × Role)) :=
  onCore fun _ _ _ c =>
    match c.monitors.find monitorId with
    | none => some { value := none }
    | some monitor =>
      match c.members.find (monitor.organizationId, userId) with
      | none => some { value := none }
      | some member =>
        if monitor.environmentId = environmentId ∧ monitor.deletedAt = none then some
          { value := some (monitor, member.role)
            locks := [.monitor monitorId] }
        else some { value := none }

/-- `pg_advisory_xact_lock(742019205)`. -/
def acquireManualTestQueueLock : Stmt Unit :=
  fun _ _ _ _ => some { value := (), locks := [.manualTestQueue] }

def countActiveManualTestJobs : Stmt Nat :=
  onLedger (.read fun l => l.countActive .manualTest)

def hasScheduledQueuePressure : Stmt Bool :=
  fun begun _ _ db => some
    { value := (db.core.monitors.rows.any fun e =>
        e.2.pausedAt.isNone && e.2.deletedAt.isNone &&
          decide (e.2.nextCheckAt < begun.now - 30 * second)) ||
        decide (900 ≤ db.ledger.countActive .scheduled) }

def getManualDispatchWorkerPool (workerPoolId : String) : Stmt (Option WorkerPool) :=
  onCore (.read fun c => (c.pools.find workerPoolId).filter fun pool =>
    pool.enabled && pool.lifecycleState == .active &&
      decide (pool.schemaMin ≤ 2) && decide (2 ≤ pool.schemaMax))

def insertMonitorRefreshEvent (organizationId environmentId : Uuid)
    (eventType resourceType : String) (resourceId : Uuid) : Stmt Unit :=
  insertRefreshEvent
    { organizationId := organizationId, environmentId := environmentId
      eventType := eventType, resourceType := resourceType
      resourceId := resourceId }

/-- `lockManaged`, after the transaction has begun. -/
def lockManaged (userId environmentId monitorId : Uuid) :
    Prog (Except Failure Monitor) := do
  let .ok found ← query (lockManagedMonitor userId environmentId monitorId)
    | return .error .database
  match found with
  | none => return .error errMonitorNotFound
  | some (monitor, role) =>
    if allows role .monitorsManage then return .ok monitor
    else return .error errMonitorForbidden

/-- The limits a manual test has to pass, under the advisory lock. -/
def admitManualTest : Prog (Except Failure Unit) := do
  let .ok () ← query acquireManualTestQueueLock | return .error .database
  let .ok count ← query countActiveManualTestJobs | return .error .database
  if 10 ≤ count then return .error errManualQueueFull
  let .ok pressure ← query hasScheduledQueuePressure | return .error .database
  if pressure then return .error errManualQueueFull
  return .ok ()

def testNow (P : Primitives) (signingKeyId : String)
    (userId environmentId monitorId : Uuid) : Prog (Except Failure Uuid) := do
  let .ok () ← start | return .error .database
  match ← lockManaged userId environmentId monitorId with
  | .error failure => return .error failure
  | .ok monitor =>
    match ← admitManualTest with
    | .error failure => return .error failure
    | .ok () =>
      let .ok (some pool) ← query (getManualDispatchWorkerPool
        monitor.workerPoolId) | return .error errQueueUnavailable
      if !provisioned pool then return .error errQueueUnavailable
      let some headers := decryptHeaders P monitor.headersCiphertext
        monitor.headerKeyVersion | return .error errQueueUnavailable
      let .ok jobId ← query newJobId | return .error .database
      let .ok scheduledAt ← query getDatabaseTime
        | return .error .database
      let expires := scheduledAt + 2 * minute
      let some payload ← sealedPayload P
        { schemaVersion := schemaVersion, jobId := jobId
          jobType := .manualTest, workerPoolId := monitor.workerPoolId
          networkPolicyVersion := pool.networkPolicyVersion
          scheduledAt := scheduledAt, expiresAt := expires
          targetUrl := monitor.targetUrl, method := monitor.method
          timeoutSeconds := monitor.timeoutSeconds
          expectedStatusMin := monitor.expectedStatusMin
          expectedStatusMax := monitor.expectedStatusMax
          headers := headers, limits := requestLimits
          platformKeyId := signingKeyId
          workerEncryptionKeyId := pool.encryptionKeyId.getD "" }
        (pool.jobQueueUrl.getD "") | return .error errQueueUnavailable
      let .ok jobId ← query (createManualCheckJob jobId
        { organizationId := monitor.organizationId
          environmentId := monitor.environmentId, monitorId := monitorId
          jobType := .manualTest, state := .pendingPublish
          scheduledAt := scheduledAt, monitorVersion := monitor.version
          workerPoolId := monitor.workerPoolId
          snapshotHash := payload.snapshotHash, expiresAt := expires })
        | return .error .database
      let .ok () ← query (createManualDispatchOutbox jobId payload)
        | return .error .database
      let .ok () ← query (insertMonitorRefreshEvent
        monitor.organizationId monitor.environmentId "monitor.changed"
        "monitor" monitorId) | return .error .database
      let .ok () ← commit | return .error .database
      return .ok jobId

end WatchTrace.Model
