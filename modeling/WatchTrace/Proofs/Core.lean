import WatchTrace.Proofs.Draft

/-!
# What evaluation and incidents are made of

All statements of `evaluateTx` and of the incident service work on the core,
or add to the journal without looking at it; the one exception is the listing
of the checks. Whatever is true of those statements is then true of all that
an acceptance does after its check is in.

The FIFO path uses this for one thing only: none of them writes to the ledger,
so it never has to look inside.
-/

namespace WatchTrace.Proofs

open Tx Model Spec

variable {β : Type} {accepted : Option AcceptedSlot} {now : Time}

section Every

variable {S : {β : Type} → Stmt β → Prop}

/-- The statements on the core, and those that write to the journal blindly. -/
structure Domestic (S : {β : Type} → Stmt β → Prop) : Prop where
  core : ∀ {β : Type} (q : Tx.Stmt Core Key Env β), S (onCore q)
  journal : ∀ {β : Type} (a : Env → Env → (Key → Bool) → Option (Effect Journal Key β)),
    S (onJournal fun begun env busy _ => a begun env busy)

/-! ## Evaluation -/

/-- The statements an evaluation of one monitor is made of, but for the listing
of its checks. -/
structure Evaluates (S : {β : Type} → Stmt β → Prop) (monitorId : Uuid) : Prop where
  reads : ∀ {β : Type} (f : Core → β), S (onCore (.read f))
  ensure : S (ensureMonitorReliabilityState monitorId)
  lock : S (lockMonitorReliabilityState monitorId)
  delete : ∀ scheduledAt jobId, S (deleteReliabilityEvaluationsFrom monitorId scheduledAt jobId)
  upsert : ∀ result observed failures successes,
    S (upsertMonitorResultEvaluation monitorId result observed failures successes)
  update : ∀ display observed failures successes lastAt lastJob newest evaluated,
    S (updateMonitorReliabilityState monitorId display observed failures successes
      lastAt lastJob newest evaluated)
  position : ∀ lastScheduledAt lastJobId,
    S (upsertMonitorEvaluationPosition monitorId lastScheduledAt lastJobId)
  correction : ∀ acceptedJobId correctedFrom previous corrected,
    S (insertMonitorStateCorrection monitorId acceptedJobId correctedFrom previous corrected)

theorem Domestic.evaluates (hS : Domestic S) (monitorId : Uuid) : Evaluates S monitorId :=
  ⟨fun _ => hS.core _, hS.core _, hS.core _, fun _ _ => hS.core _,
    fun _ _ _ _ => hS.core _, fun _ _ _ _ _ _ _ _ => hS.core _,
    fun _ _ => hS.core _, fun _ _ _ _ => hS.core _⟩

variable {monitorId : Uuid}

theorem Evaluates.read (hS : Evaluates S monitorId) (f : Core → β) :
    Prog.Every remote S (query (onCore (.read f)) : Prog (Except Fault β)) :=
  Prog.every_query (hS.reads f)

theorem loadBaseline_every (hS : Evaluates S monitorId) (current : StateSnapshot)
    (correction : Option AcceptedSlot) :
    Prog.Every remote S (loadBaseline monitorId current correction) := by
  cases correction <;> simp [loadBaseline, getReliabilityBaselineBefore, hS.reads, hS.delete]

theorem evaluateResults_every (hS : Evaluates S monitorId) (failureLimit recoveryLimit : Nat) :
    ∀ (results : List ObservedResult) (s : StateSnapshot), Prog.Every remote S
        (evaluateResults monitorId failureLimit recoveryLimit results s) := by
  intro results
  induction results with
  | nil => simp [evaluateResults]
  | cons result rest ih => simp [evaluateResults, hS.upsert, ih]

theorem displayAt_every (hS : Evaluates S monitorId) (newestExpected : Option Time) :
    Prog.Every remote S (displayAt monitorId newestExpected) := by
  cases newestExpected <;> simp [displayAt, getMonitorEvaluationAtSlot, hS.reads]

theorem recordPosition_every (hS : Evaluates S monitorId)
    (newestExpected : Option Time) (evaluatedJob : Option Uuid) :
    Prog.Every remote S (recordPosition monitorId newestExpected evaluatedJob) := by
  cases newestExpected <;> simp [recordPosition, hS.position]

theorem recordCorrection_every (hS : Evaluates S monitorId)
    (correction : Option AcceptedSlot) (previous corrected : ObservedState) :
    Prog.Every remote S
      (recordCorrection monitorId correction previous corrected) := by
  cases correction <;> simp [recordCorrection, hS.correction]

theorem evaluateLocked_every (hS : Evaluates S monitorId) {current : StateSnapshot}
    (hlist : Prog.Every remote S (listResults monitorId current (correctionOf current accepted))) :
    Prog.Every remote S (evaluateLocked monitorId accepted now current) := by
  refine Prog.every_then (hS.read _) (fun thresholds => ?_) fun _ => Prog.every_pure _
  refine Prog.every_then (loadBaseline_every hS _ _) (fun baseline => ?_) fun _ => Prog.every_pure _
  refine Prog.every_then hlist (fun results => ?_) fun _ => Prog.every_pure _
  refine Prog.every_then (evaluateResults_every hS _ _ _ _) (fun final => ?_)
    fun _ => Prog.every_pure _
  refine Prog.every_then (hS.read _) (fun newest => ?_) fun _ => Prog.every_pure _
  refine Prog.every_then (displayAt_every hS _) (fun display => ?_) fun _ => Prog.every_pure _
  refine Prog.every_then (Prog.every_query (hS.update _ _ _ _ _ _ _ _)) (fun _ => ?_)
    fun _ => Prog.every_pure _
  refine Prog.every_then (recordPosition_every hS _ _) (fun _ => ?_) fun _ => Prog.every_pure _
  exact Prog.every_then (recordCorrection_every hS _ _ _)
    (fun _ => Prog.every_pure _) fun _ => Prog.every_pure _

theorem evaluateTx_every (hS : Evaluates S monitorId) (hlist : ∀ current, Prog.Every remote S
      (listResults monitorId current (correctionOf current accepted))) :
    Prog.Every remote S (evaluateTx monitorId accepted now) := by
  have hlocked : ∀ current, Prog.Every remote S (evaluateLocked monitorId accepted now current) :=
    fun current => evaluateLocked_every hS (hlist current)
  simp [evaluateTx, hS.ensure, hS.lock, hlocked]

/-! ## Incidents -/

/-- The statements of the incident service that an acceptance leads to. -/
structure Reacts (S : {β : Type} → Stmt β → Prop) : Prop where
  reads : ∀ {β : Type} (f : Core → β), S (onCore (.read f))
  rule : ∀ monitorId, S (ensureDefaultAlertRule monitorId)
  lock : ∀ monitorId ruleId, S (lockOpenIncident monitorId ruleId)
  create : ∀ organizationId environmentId monitorId ruleId startedAt openedAt,
    S (createOpenIncident organizationId environmentId monitorId ruleId startedAt openedAt)
  resolve : ∀ incidentId resolvedAt actorUserId kind reason,
    S (resolveOpenIncident incidentId resolvedAt actorUserId kind reason)
  event : ∀ event, S (upsertIncidentEvent event)
  enqueue : ∀ eventId transition, S (enqueueIncidentNotifications eventId transition)
  journal : ∀ {β : Type} (a : Env → Env → (Key → Bool) → Option (Effect Journal Key β)),
    S (onJournal fun begun env busy _ => a begun env busy)

theorem Domestic.reacts (hS : Domestic S) : Reacts S :=
  ⟨fun _ => hS.core _, fun _ => hS.core _, fun _ _ => hS.core _,
    fun _ _ _ _ _ _ => hS.core _, fun _ _ _ _ _ => hS.core _, fun _ => hS.core _,
    fun _ _ => hS.core _, hS.journal⟩

theorem Reacts.query_journal (hS : Reacts S)
    (a : Env → Env → (Key → Bool) → Option (Effect Journal Key β)) :
    Prog.Every remote S (query (onJournal fun begun env busy _ => a begun env busy) :
      Prog (Except Fault β)) :=
  Prog.every_query (hS.journal a)

theorem refresh_every (hS : Reacts S) (event : RefreshEvent) :
    Prog.Every remote S (query (insertRefreshEvent event) : Prog (Except Fault Unit)) :=
  hS.query_journal _

theorem openIncident_every (hS : Reacts S)
    (organizationId environmentId monitorId ruleId sourceJobId : Uuid)
    (startedAt now : Time) :
    Prog.Every remote S (openIncident organizationId environmentId monitorId
      ruleId sourceJobId startedAt now) := by
  simp [openIncident, insertEvent, insertIncidentRefreshEvent, insertRefreshEvent,
    enqueueIncidentEventTx, hS.create, hS.lock, hS.event, hS.journal, hS.enqueue]

theorem resolveIncident_every (hS : Reacts S) (incidentId : Uuid)
    (sourceJobId : Option Uuid) (kind : ResolutionKind) (actorUserId : Option Uuid)
    (reason : String) (now : Time) :
    Prog.Every remote S (resolveIncident incidentId sourceJobId kind
      actorUserId reason now) := by
  simp [resolveIncident, insertEvent, insertIncidentRefreshEvent, insertRefreshEvent,
    enqueueIncidentEventTx, getIncidentTenant, hS.resolve, hS.reads, hS.event, hS.journal,
    hS.enqueue]

theorem applyEvaluationTx_every (hS : Reacts S) (monitorId sourceJobId : Uuid)
    (corrected : Bool) (now : Time) :
    Prog.Every remote S (applyEvaluationTx monitorId sourceJobId corrected now) := by
  simp [applyEvaluationTx, getEnabledMonitorAlertRule, listRecentIncidentEvaluationTimes, hS.rule,
    hS.reads, hS.lock, openIncident_every hS, resolveIncident_every hS]

/-! ## The tail of an acceptance -/

theorem applyScheduled_every (hS : Reacts S) (job : LockedJob) (evaluatedAt : Time)
    (late corrected : Bool) :
    Prog.Every remote S (applyScheduled job evaluatedAt late corrected) := by
  have happly := applyEvaluationTx_every hS job.row.monitorId job.id corrected evaluatedAt
  refine Prog.every_then (by split <;> simp [happly]) (fun _ => ?_) fun _ => Prog.every_pure _
  simp [upsertHourlyRollupInvalidation, upsertDailyRollupInvalidation, upsertRollupInvalidation,
    insertMonitoringOperationalEvent, hS.journal]

theorem evaluateScheduled_every (hS : Reacts S) {job : LockedJob} {evaluatedAt : Time}
    (hE : Evaluates S job.row.monitorId)
    (hlist : ∀ current, Prog.Every remote S (listResults job.row.monitorId current
      (correctionOf current (some ⟨job.id, job.row.scheduledAt⟩)))) :
    Prog.Every remote S (evaluateScheduled job evaluatedAt) := by
  refine Prog.every_then ?_ (fun corrected => applyScheduled_every hS _ _ _ _)
    fun _ => Prog.every_pure _
  unfold evaluateAcceptedTx
  split
  · exact Prog.every_pure _
  · exact evaluateTx_every hE hlist

end Every

/-! ## None of it writes to the ledger -/

/-- The statement leaves the ledger alone. -/
def WritesApart {β : Type} (q : Stmt β) : Prop :=
  ∀ begun env busy db e, q begun env busy db = some e → Apart e.write

theorem domestic_writesApart : Domestic WritesApart :=
  ⟨fun _ _ _ _ _ _ he => onCore_ledger he, fun _ _ _ _ _ _ he => onJournal_ledger he⟩

theorem listResults_writesApart (monitorId : Uuid) (current : StateSnapshot)
    (correction : Option AcceptedSlot) :
    Prog.Every remote WritesApart (listResults monitorId current correction) := by
  have hread : ∀ f : Database → List ObservedResult, WritesApart (.read f) := by
    intro f _ _ _ _ e he db
    cases he
    rfl
  unfold listResults
  split <;> exact Prog.every_query (hread _)

theorem evaluateScheduled_quiet (job : LockedJob) (evaluatedAt : Time) :
    Prog.Quiet remote Apart (evaluateScheduled job evaluatedAt) :=
  (evaluateScheduled_every domestic_writesApart.reacts
    (domestic_writesApart.evaluates _) fun _ =>
    listResults_writesApart _ _ _).mono fun h => h

end WatchTrace.Proofs
