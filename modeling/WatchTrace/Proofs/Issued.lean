import WatchTrace.Model.Maintenance
import WatchTrace.Model.Monitor
import WatchTrace.Proofs.Core
import WatchTrace.Tx.Serial

/-!
# Which statements a call is made of

A property of every statement of a call is a property of the call, and a call
issues a handful of statements only. For each group of calls there is one list
of what they issue, as the fields of a structure: a class of statements that
has all of them contains the calls. What then remains to be shown of a class
is a line for each statement, and never again a walk through the programs.
-/

namespace WatchTrace.Proofs

open Tx Model

variable {S : {β : Type} → Stmt β → Prop}

open Prog

/-- The statements of `ConsumeNext`. -/
structure Consumes (S : {β : Type} → Stmt β → Prop) : Prop where
  reads : ∀ {β : Type} (f : Database → β), S (.read f)
  accepted : ∀ jobId, S (getAcceptedHealthCheck jobId)
  lock : ∀ keyId jobId, S (lockResultCheckJob keyId jobId)
  conflict : ∀ jobId resultId pool hash payload,
    S (insertResultConflict jobId resultId pool hash payload)
  quarantine : ∀ jobId resultId pool hash payload,
    S (insertConflictingResultQuarantine jobId resultId pool hash payload)
  repair : ∀ jobId, S (markDispatchRepaired jobId)
  accept : ∀ jobId job result, S (insertAcceptedHealthCheck jobId job result)
  complete : ∀ jobId result, S (completeCheckJob jobId result)
  recover : ∀ monitorId scheduledAt, S (deleteRecoveredCoverageGaps monitorId scheduledAt)
  reacts : Reacts S
  evaluates : ∀ monitorId, Evaluates S monitorId

section Consumer

theorem sealPayload_within (plain : Bytes) (associated : String × Option IdText) :
    Within S (sealPayload plain associated) := by
  simp only [sealPayload]
  split <;> simp

theorem listResults_every (hS : Consumes S) (monitorId : Uuid) (current : StateSnapshot)
    (correction : Option AcceptedSlot) :
    Every remote S (listResults monitorId current correction) := by
  unfold listResults
  split <;> exact every_query (hS.reads _)

theorem acceptResult_every (hS : Consumes S) (job : LockedJob) (result : Result) :
    Every remote S (acceptResult clock job result) := by
  refine every_then (every_query (hS.accept _ _ _)) (fun _ => ?_) fun _ => every_pure _
  refine every_then (every_query (hS.complete _ _)) (fun _ => ?_) fun _ => every_pure _
  refine every_then (every_query (hS.repair _)) (fun _ => ?_) fun _ => every_pure _
  refine every_then (every_query (hS.recover _ _)) (fun _ => ?_) fun _ => every_pure _
  refine every_then ?_ (fun _ => ?_) fun _ => every_pure _
  · split
    · refine ⟨fun _ _ _ => rfl, fun now => ?_⟩
      exact evaluateScheduled_every hS.reacts (hS.evaluates _) fun _ => listResults_every hS _ _ _
    · exact every_pure _
  · exact every_then (refresh_every hS.reacts _) (fun _ => every_pure _) fun _ => every_pure _

theorem commitAndAcknowledge_within (d : ResultDelivery) :
    Within S (commitAndAcknowledge d) := by
  simp [commitAndAcknowledge]

theorem recordConflict_within (hS : Consumes S) (d : ResultDelivery) (job : LockedJob)
    (result : Result) : Within S (recordConflict d job result) := by
  refine within_then (sealPayload_within _ _) (fun encrypted => ?_) fun _ => trivial
  simp [insertMonitoringOperationalEvent, hS.conflict, hS.quarantine, hS.reacts.journal,
    commitAndAcknowledge_within]

theorem settleResult_within (hS : Consumes S) (d : ResultDelivery) (job : LockedJob)
    (result : Result) : Within S (settleResult d job result) := by
  refine within_then (within_query (hS.accepted _)) (fun existing => ?_) fun _ => trivial
  cases existing with
  | none =>
    exact within_then (acceptResult_every hS job result).within
      (fun _ => commitAndAcknowledge_within d) fun _ => trivial
  | some row =>
  dsimp only
  split
  · exact within_bind (within_query (hS.repair _)) fun _ => commitAndAcknowledge_within d
  · exact recordConflict_within hS d job result

theorem consumeDelivery_within (hS : Consumes S) (P : Primitives) (d : ResultDelivery)
    (peeked : Result) : Within S (consumeDelivery P d peeked) := by
  refine within_then within_start (fun _ => ?_) fun _ => trivial
  refine within_then (within_query (hS.lock _ _)) (fun found => ?_) fun _ => trivial
  cases found with
  | none => trivial
  | some job =>
  refine within_bind within_call fun now => ?_
  split
  · trivial
  · exact settleResult_within hS d job _

theorem consumeNext_within (hS : Consumes S) (P : Primitives) :
    Within S (consumeNext P) := by
  have hready : Within S databaseReady := by
    simp [databaseReady, databasePing, hS.reads]
  refine within_then hready (fun ready => ?_) fun _ => trivial
  cases ready with
  | false => trivial
  | true =>
  refine within_bind within_call fun pulled => ?_
  cases pulled with
  | noMessage | failed => trivial
  | message d =>
  dsimp only
  split
  · trivial
  · exact consumeDelivery_within hS P d _

end Consumer

/-- The statements of `PublishNext` and `ReclaimPublisherLeases`. -/
structure Publishes (S : {β : Type} → Stmt β → Prop) : Prop where
  claim : S claimDispatchOutbox
  expire : ∀ jobId token, S (expireClaimedDispatch jobId token)
  expireJob : ∀ jobId, S (expireUnpublishedCheckJob jobId)
  gap : ∀ jobId, S (insertExpiredCoverageGapFromJob jobId)
  publish : ∀ messageId jobId token, S (markDispatchPublished messageId jobId token)
  publishJob : ∀ messageId jobId, S (markCheckJobPublished messageId jobId)
  failure : ∀ state delay jobId token, S (markDispatchPublishFailure state delay jobId token)
  leases : S listExpiredLeases
  reclaim : ∀ jobId, S (reclaimDispatchLease jobId)

variable {S' : {β : Type} → Stmt β → Prop}

section Publisher

theorem Publishes.mono (hS : Publishes S) (h : ∀ {β : Type} {q : Stmt β}, S q → S' q) :
    Publishes S' :=
  ⟨h hS.claim, fun _ _ => h (hS.expire _ _), fun _ => h (hS.expireJob _),
    fun _ => h (hS.gap _), fun _ _ _ => h (hS.publish _ _ _),
    fun _ _ => h (hS.publishJob _ _), fun _ _ _ _ => h (hS.failure _ _ _ _),
    h hS.leases, fun _ => h (hS.reclaim _)⟩

theorem expireClaimed_within (hS : Publishes S) (jobId token : Uuid) :
    Within S (expireClaimed jobId token) := by
  simp [expireClaimed, hS.expire, hS.expireJob, hS.gap]

theorem recordSend_within (hS : Publishes S) (jobId token : Uuid) (attempts : Nat)
    (outcome : Except Unit String) : Within S (recordSend jobId token attempts outcome) := by
  cases outcome <;> simp [recordSend, hS.publish, hS.publishJob, hS.failure]

theorem sendClaimed_within (hS : Publishes S) (jobId token : Uuid) (row : Dispatch) :
    Within S (sendClaimed jobId token row) := by
  refine within_bind within_call fun outcome => within_then within_start (fun _ => ?_) fun _ => trivial
  refine within_then (recordSend_within hS _ _ _ _) ?_ fun _ => trivial
  cases outcome <;> simp

theorem publishNext_within (hS : Publishes S) : Within S publishNext := by
  simp [publishNext, clock, hS.claim, expireClaimed_within hS, sendClaimed_within hS]

theorem reclaimEach_within (hS : Publishes S) :
    ∀ (ids : List Uuid) (count : Nat), Within S (reclaimEach ids count) := by
  intro ids
  induction ids with
  | nil => simp [reclaimEach]
  | cons jobId rest ih => simp [reclaimEach, hS.reclaim, ih]

theorem reclaimPublisherLeases_within (hS : Publishes S) :
    Within S reclaimPublisherLeases := by
  refine within_then within_start (fun _ => ?_) fun _ => trivial
  refine within_then ?_ (fun count => ?_) fun _ => trivial
  · simp [reclaimDispatchPublisherLeases, hS.leases, reclaimEach_within hS]
  · simp

end Publisher

/-- The statements of `SweepDeadlines` and `ReconcileNext`. -/
structure Maintains (S : {β : Type} → Stmt β → Prop) : Prop where
  overdue : S listOverdueJobs
  expire : ∀ jobId, S (expireOverdueJob jobId)
  gap : ∀ key organizationId environmentId,
    S (insertMonitoringCoverageGap key organizationId environmentId)
  dead : ∀ jobId pool, S (markCheckJobDead jobId pool)
  deadGap : ∀ jobId, S (insertDeadCoverageGapFromJob jobId)
  invalid : ∀ payload, S (insertInvalidResultQuarantine payload)
  quarantine : ∀ result payload, S (insertResultDLQQuarantine result payload)
  journal : ∀ {β : Type} (a : Env → Env → (Key → Bool) → Option (Effect Journal Key β)),
    S (onJournal fun begun env busy _ => a begun env busy)

section Maintenance

theorem Maintains.mono (hS : Maintains S) (h : ∀ {β : Type} {q : Stmt β}, S q → S' q) :
    Maintains S' :=
  ⟨h hS.overdue, fun _ => h (hS.expire _), fun _ _ _ => h (hS.gap _ _ _),
    fun _ _ => h (hS.dead _ _), fun _ => h (hS.deadGap _), fun _ => h (hS.invalid _),
    fun _ _ => h (hS.quarantine _ _), fun _ => h (hS.journal _)⟩

theorem sweepEach_within (hS : Maintains S) :
    ∀ (ids : List Uuid) (count : Nat), Within S (sweepEach ids count) := by
  intro ids
  induction ids with
  | nil => simp [sweepEach]
  | cons jobId rest ih => simp [sweepEach, hS.expire, hS.gap, ih]

theorem sweepDeadlines_within (hS : Maintains S) : Within S sweepDeadlines := by
  refine within_then within_start (fun _ => ?_) fun _ => trivial
  refine within_then ?_ (fun count => ?_) fun _ => trivial
  · simp [sweepExpiredCheckJobs, hS.overdue, sweepEach_within hS]
  · simp

theorem reconcileJobDLQ_within (hS : Maintains S) (jobId : IdText) (pool : String) :
    Within S (reconcileJobDLQ jobId pool) := by
  simp [reconcileJobDLQ, insertMonitoringOperationalEvent, hS.dead, hS.deadGap, hS.journal]

theorem reconcileResultDLQ_within (hS : Maintains S) (P : Primitives) (d : DLQDelivery) :
    Within S (reconcileResultDLQ P d) := by
  refine within_then (sealPayload_within _ _) (fun encrypted => ?_) fun _ => trivial
  cases h : peekResult P d.body <;>
    simp [quarantineResult, insertMonitoringOperationalEvent, hS.invalid, hS.quarantine, hS.journal]

theorem acknowledgeDLQ_within (d : DLQDelivery) (reconciled : Except Failure Unit) :
    Within S (acknowledgeDLQ d reconciled) := by
  cases reconciled <;> simp [acknowledgeDLQ]

theorem reconcileNext_within (hS : Maintains S) (P : Primitives) :
    Within S (reconcileNext P) := by
  refine within_bind within_call fun pulled => ?_
  cases pulled with
  | failed => trivial
  | message d =>
    exact within_bind (reconcileJobDLQ_within hS _ _)
      fun reconciled => acknowledgeDLQ_within d reconciled
  | noMessage =>
  refine within_bind within_call fun pulled => ?_
  cases pulled with
  | failed | noMessage => trivial
  | message d =>
    exact within_bind (reconcileResultDLQ_within hS P d)
      fun reconciled => acknowledgeDLQ_within d reconciled

end Maintenance

/-- The statements of `ScheduleDue`, but for the insert of a job. -/
structure Schedules (S : {β : Type} → Stmt β → Prop) : Prop where
  count : S countActiveScheduledJobs
  time : S getDatabaseTime
  due : ∀ batch, S (listDueScheduledMonitors batch)
  id : S newJobId
  gap : ∀ key organizationId environmentId,
    S (insertMonitoringCoverageGap key organizationId environmentId)
  next : ∀ monitorId nextCheckAt previous, S (updateMonitorNextCheck monitorId nextCheckAt previous)
  dispatch : ∀ jobId payload, S (createScheduledDispatchOutbox jobId payload)
  journal : ∀ {β : Type} (a : Env → Env → (Key → Bool) → Option (Effect Journal Key β)),
    S (onJournal fun begun env busy _ => a begun env busy)

section Scheduler

variable {P : Primitives}

theorem Schedules.mono (hS : Schedules S) (h : ∀ {β : Type} {q : Stmt β}, S q → S' q) :
    Schedules S' :=
  ⟨h hS.count, h hS.time, fun _ => h (hS.due _), h hS.id, fun _ _ _ => h (hS.gap _ _ _),
    fun _ _ _ => h (hS.next _ _ _), fun _ _ => h (hS.dispatch _ _),
    fun _ => h (hS.journal _)⟩

theorem sealJob_outside (job : Job) :
    Outside remote (fun _ => True) (sealJob job) := by
  simp [sealJob, clock, remote, observe]

/-- Sealing leaves the expiry of the job on the envelope. -/
theorem sealedPayload_outside (job : Job) (queueUrl : String) :
    Outside remote (fun sealed => ∀ payload, sealed = some payload →
      payload.expiresAt = job.expiresAt) (sealedPayload P job queueUrl) := by
  refine outside_bind (sealJob_outside job) fun sealed _ => ?_
  cases sealed with
  | none => exact nofun
  | some bodyHash =>
  intro payload h
  cases h
  rfl

theorem recordAdmissionLimit_within (hS : Schedules S) (m : DueMonitor) (next : Time) :
    Within S (recordAdmissionLimit m next) := by
  simp [recordAdmissionLimit, insertMonitoringOperationalEvent, hS.gap, hS.journal, hS.next]

theorem recordMissed_within (hS : Schedules S) (m : DueMonitor) (now : Time) :
    Within S (recordMissed m now) := by
  simp [recordMissed, hS.gap]

variable (hcreate : ∀ jobId (m : DueMonitor) scheduledAt hash,
  S (createScheduledCheckJob jobId (m.row scheduledAt hash)))

include hcreate

theorem scheduleMonitor_within (hS : Schedules S) (key : String) (now : Time)
    (outstanding : Nat) (m : DueMonitor) :
    Within S (scheduleMonitor P key now outstanding m) := by
  unfold scheduleMonitor
  split
  · split
    · exact recordAdmissionLimit_within hS _ _
    split
    · trivial
    split
    · refine within_then (within_query hS.id) (fun jobId => ?_) fun _ => trivial
      refine within_then (recordMissed_within hS _ _) (fun scheduledAt => ?_) fun _ => trivial
      dsimp only
      split
      · refine within_bind (sealedPayload_outside _ _).every.within fun sealed => ?_
        cases sealed <;> simp [insertScheduled, hcreate, hS.dispatch, hS.next]
      · trivial
    · trivial
  · trivial

theorem scheduleMonitors_within (hS : Schedules S) (key : String) (now : Time) :
    ∀ (due : List DueMonitor) (outstanding created : Nat),
      Within S (scheduleMonitors P key now outstanding created due) := by
  intro due
  induction due with
  | nil => exact fun _ _ => trivial
  | cons m rest ih =>
    intro outstanding created
    refine within_then (scheduleMonitor_within hcreate hS _ _ _ _) ?_ fun _ => trivial
    simp [ih]

theorem scheduleDue_within (hS : Schedules S) (key : String) (batch : Nat) :
    Within S (scheduleDue P key batch) := by
  unfold scheduleDue
  split
  · trivial
  refine within_then within_start (fun _ => ?_) fun _ => trivial
  refine within_then (within_query hS.count) (fun _ => ?_) fun _ => trivial
  refine within_then (within_query hS.time) (fun _ => ?_) fun _ => trivial
  refine within_then (within_query (hS.due _)) (fun due => ?_) fun _ => trivial
  exact within_then (scheduleMonitors_within hcreate hS _ _ _ _ _) (by simp) fun _ => trivial

end Scheduler

/-- The statements of `Update`, `Pause`, `Resume` and `Delete`. -/
structure Manages (hash : Uuid → Nat) (S : {β : Type} → Stmt β → Prop) : Prop where
  lock : ∀ userId environmentId monitorId, S (lockManagedMonitor userId environmentId monitorId)
  update : ∀ organizationId environmentId id config,
    S (updateManagedMonitor hash organizationId environmentId id config)
  pause : ∀ paused organizationId environmentId id,
    S (setManagedMonitorPaused hash paused organizationId environmentId id)
  delete : ∀ organizationId environmentId id, S (softDeleteMonitor organizationId environmentId id)
  close : ∀ monitorId, S (closeMonitorSchedulePeriod monitorId)
  reopen : ∀ monitorId, S (openMonitorSchedulePeriod monitorId)
  refresh : ∀ organizationId environmentId eventType resourceType resourceId,
    S (insertMonitorRefreshEvent organizationId environmentId eventType resourceType resourceId)

section Manager

open MonitorService

variable {L : Destination.Library} {encrypt : Encrypt} {hash : Uuid → Nat}

theorem lockManaged_within {userId environmentId monitorId : Uuid}
    (h : S (lockManagedMonitor userId environmentId monitorId)) :
    Within S (lockManaged userId environmentId monitorId) := by
  simp [lockManaged, h]

theorem reschedule_within (hS : Manages hash S) (monitor : Monitor) (id : Uuid)
    (reopen : Bool) : Within S (reschedule monitor id reopen) := by
  simp [reschedule, hS.close, hS.reopen, hS.refresh]

theorem update_within (hS : Manages hash S) (userId environmentId monitorId : Uuid)
    (input : CreateInput) :
    Within S (update L encrypt hash userId environmentId monitorId input) := by
  unfold update
  split
  · refine within_then within_start (fun _ => ?_) fun _ => trivial
    refine within_then (lockManaged_within (hS.lock _ _ _)) (fun row => ?_) fun _ => trivial
    dsimp only
    split
    · refine within_then (within_query (hS.update _ _ _ _)) (fun updated => ?_) fun _ => trivial
      cases updated with
      | none => trivial
      | some updated => exact within_then (reschedule_within hS _ _ _) (by simp) (by simp)
    · trivial
  · trivial

theorem setPaused_within (hS : Manages hash S) (userId environmentId monitorId : Uuid)
    (paused : Bool) : Within S (setPaused hash userId environmentId monitorId paused) := by
  refine within_then within_start (fun _ => ?_) fun _ => trivial
  refine within_then (lockManaged_within (hS.lock _ _ _)) (fun row => ?_) fun _ => trivial
  refine within_then (within_query (hS.pause _ _ _ _)) (fun updated => ?_) fun _ => trivial
  cases updated with
  | none => trivial
  | some updated => exact within_then (reschedule_within hS _ _ _) (by simp) (by simp)

theorem delete_within (hS : Manages hash S) (userId environmentId monitorId : Uuid) :
    Within S (delete userId environmentId monitorId) := by
  refine within_then within_start (fun _ => ?_) fun _ => trivial
  refine within_then (lockManaged_within (hS.lock _ _ _)) ?_ fun _ => trivial
  simp [hS.delete, reschedule_within hS]

end Manager

/-- The statements of `Create`, but for the insert of the monitor. -/
structure Creates (hash : Uuid → Nat) (S : {β : Type} → Stmt β → Prop) : Prop where
  lock : ∀ userId environmentId, S (lockEnvironmentForMonitorCreation userId environmentId)
  count : ∀ organizationId, S (countOrganizationMonitors organizationId)
  store : ∀ id config, S (storeSecureMonitorConfiguration hash id config)
  period : ∀ monitorId, S (openMonitorSchedulePeriod monitorId)
  state : ∀ monitorId, S (ensureMonitorReliabilityState monitorId)
  refresh : ∀ organizationId environmentId eventType resourceType resourceId,
    S (insertMonitorRefreshEvent organizationId environmentId eventType resourceType resourceId)

section Creation

open MonitorService

variable {L : Destination.Library} {encrypt : Encrypt} {hash : Uuid → Nat}

theorem Creates.mono (hS : Creates hash S) (h : ∀ {β : Type} {q : Stmt β}, S q → S' q) :
    Creates hash S' :=
  ⟨fun _ _ => h (hS.lock _ _), fun _ => h (hS.count _), fun _ _ => h (hS.store _ _),
    fun _ => h (hS.period _), fun _ => h (hS.state _),
    fun _ _ _ _ _ => h (hS.refresh _ _ _ _ _)⟩

theorem insertMonitor_within (hS : Creates hash S) {organizationId environmentId : Uuid}
    {config : Configuration} (hcreate : S (createMonitor organizationId environmentId config)) :
    Within S (insertMonitor hash organizationId environmentId config) := by
  simp [insertMonitor, hcreate, hS.store, hS.period, hS.state, hS.refresh]

theorem create_within (hS : Creates hash S) (hcreate : ∀ organizationId environmentId config,
      S (createMonitor organizationId environmentId config))
    (userId environmentId : Uuid) (input : CreateInput) :
    Within S (create L encrypt hash userId environmentId input) := by
  unfold create
  split
  · cases encryptHeaders encrypt _ <;>
      simp [hS.lock, hS.count, insertMonitor_within hS (hcreate _ _ _)]
  · trivial

end Creation

/-- The statements of `TestNow`, but for the insert of its job. -/
structure Tests (S : {β : Type} → Stmt β → Prop) : Prop where
  lock : ∀ userId environmentId monitorId, S (lockManagedMonitor userId environmentId monitorId)
  queue : S acquireManualTestQueueLock
  count : S countActiveManualTestJobs
  pressure : S hasScheduledQueuePressure
  pool : ∀ id, S (getManualDispatchWorkerPool id)
  id : S newJobId
  time : S getDatabaseTime
  dispatch : ∀ jobId payload, S (createManualDispatchOutbox jobId payload)
  refresh : ∀ organizationId environmentId eventType resourceType resourceId,
    S (insertMonitorRefreshEvent organizationId environmentId eventType resourceType resourceId)

section Testing

variable {P : Primitives}

theorem Tests.mono (hS : Tests S) (h : ∀ {β : Type} {q : Stmt β}, S q → S' q) : Tests S' :=
  ⟨fun _ _ _ => h (hS.lock _ _ _), h hS.queue, h hS.count, h hS.pressure,
    fun _ => h (hS.pool _), h hS.id, h hS.time, fun _ _ => h (hS.dispatch _ _),
    fun _ _ _ _ _ => h (hS.refresh _ _ _ _ _)⟩

theorem testNow_within (hS : Tests S)
    (hcreate : ∀ jobId (job : CheckJob), job.jobType = .manualTest →
      S (createManualCheckJob jobId job))
    (key : String) (userId environmentId monitorId : Uuid) :
    Within S (testNow P key userId environmentId monitorId) := by
  refine within_then within_start (fun _ => ?_) fun _ => trivial
  refine within_then (lockManaged_within (hS.lock _ _ _)) (fun monitor => ?_) fun _ => trivial
  refine within_then ?_ (fun _ => ?_) fun _ => trivial
  · simp [admitManualTest, hS.queue, hS.count, hS.pressure]
  refine within_then (within_query (hS.pool _)) (fun found => ?_) fun _ => trivial
  cases found with
  | none => trivial
  | some pool =>
  dsimp only
  split
  · trivial
  split
  · refine within_then (within_query hS.id) (fun jobId => ?_) fun _ => trivial
    refine within_then (within_query hS.time) (fun scheduledAt => ?_) fun _ => trivial
    refine within_bind (sealedPayload_outside _ _).every.within fun sealed => ?_
    cases sealed <;> simp [hcreate, hS.dispatch, hS.refresh]
  · trivial

end Testing

end WatchTrace.Proofs
