import WatchTrace.Model.Scheduler

/-!
# Publication

`internal/fifo/publisher.go` and `ReclaimPublisherLeases`. A publisher claims
one outbox row under a lease, commits, sends, and records the outcome in a
second transaction that is guarded by the lease token alone. Whatever happens
between the two is up to the others.
-/

namespace WatchTrace.Model

open Tx

/-! ## Statements -/

/-- An update of an outbox row: the trigger rejects a changed payload, and a
`CHECK` bounds the attempts. -/
def updateDispatch {α : Type} (jobId : Uuid) (old new : Dispatch) (value : α) :
    Option (Effect Ledger Key α) :=
  if new.payload = old.payload ∧ new.publishAttempts ≤ 3 then some
    { value := value
      write := fun l => { l with outbox := l.outbox.put jobId new }
      locks := [.dispatch jobId] }
  else none

/-- An update of a job row. -/
def updateJob {α : Type} (jobId : Uuid) (job : CheckJob) (value : α) : Effect Ledger Key α :=
  { value := value
    write := fun l => { l with jobs := l.jobs.put jobId job }
    locks := [.job jobId] }

def Dispatch.claimable (row : Dispatch) (now : Time) : Bool :=
  row.publishState == .pending && decide (row.publishAttempts < 3) &&
    decide (row.nextAttemptAt ≤ now)

/-- The rows of least `created_at`, in no particular order among themselves. -/
def oldestOf (rows : List (Uuid × Dispatch)) : List (Uuid × Dispatch) :=
  rows.filter fun e => rows.all fun e' => e.2.createdAt ≤ e'.2.createdAt

/-- A row as a claim leaves it. -/
def Dispatch.claimed (row : Dispatch) (token : Uuid) (now : Time) : Dispatch :=
  { row with
    publishState := .publishing, publishAttempts := row.publishAttempts + 1
    publishLeaseToken := some token
    publishLeaseExpiresAt := some (now + 45 * second), updatedAt := now }

def claimDispatchOutbox : Stmt (Option (Uuid × Dispatch)) :=
  onLedger fun begun env busy l =>
    let ready := oldestOf (l.outbox.rows.filter fun e =>
      e.2.claimable begun.now && !busy (.dispatch e.1))
    match ready[env.pick % ready.length]? with
    | none => some { value := none }
    | some (jobId, row) =>
      let claimed := row.claimed env.uuid begun.now
      updateDispatch jobId row claimed (some (jobId, claimed))

/-- An update of the outbox row of a job, if the lease token is the given
one. -/
def updateLeased (jobId token : Uuid) (change : Dispatch → Dispatch) :
    Tx.Stmt Ledger Key Env Unit :=
  fun _ _ _ l =>
    match l.outbox.find jobId with
    | none => some { value := () }
    | some row =>
      if row.publishLeaseToken = some token then
        updateDispatch jobId row (change row) ()
      else some { value := () }

def expireClaimedDispatch (jobId token : Uuid) : Stmt Unit :=
  onLedger fun begun env busy l =>
    updateLeased jobId token (fun row => { row with
      publishState := .expired, publishLeaseToken := none
      publishLeaseExpiresAt := none, updatedAt := begun.now }) begun env busy l

def expireUnpublishedCheckJob (jobId : Uuid) : Stmt Unit :=
  onLedger fun begun _ _ l =>
    match l.jobs.find jobId with
    | none => some { value := () }
    | some job =>
      if job.state.unpublished then some (updateJob jobId { job with
        state := .expired, completedAt := some begun.now
        lastSafeError := some "dispatch_expired" } ())
      else some { value := () }

/-- `INSERT … SELECT … FROM check_jobs WHERE id = … ON CONFLICT DO NOTHING`. -/
def insertCoverageGapFromJob (reason : GapReason) (jobId : Uuid) : Stmt Nat :=
  fun begun env busy db =>
    match db.ledger.jobs.find jobId with
    | none => some { value := 0 }
    | some job =>
      insertMonitoringCoverageGap ⟨job.monitorId, job.scheduledAt, reason⟩
        job.organizationId job.environmentId begun env busy db

def insertExpiredCoverageGapFromJob (jobId : Uuid) : Stmt Nat :=
  insertCoverageGapFromJob .expired jobId

/-- `CHECK (octet_length(sqs_message_id) <= 128)`. -/
def messageIdAdmissible (messageId : String) : Bool :=
  decide (messageId.utf8ByteSize ≤ 128)

def markDispatchPublished (messageId : String) (jobId token : Uuid) : Stmt Unit :=
  onLedger fun begun env busy l =>
    if !messageIdAdmissible messageId then none
    else updateLeased jobId token (fun row => { row with
      publishState := .published, sqsMessageId := some messageId
      publishedAt := some begun.now, publishLeaseToken := none
      publishLeaseExpiresAt := none, lastSafeError := none
      updatedAt := begun.now }) begun env busy l

def markCheckJobPublished (messageId : String) (jobId : Uuid) : Stmt Unit :=
  onLedger fun _ _ _ l =>
    match l.jobs.find jobId with
    | none => some { value := () }
    | some job =>
      if job.state.unpublished then
        if !messageIdAdmissible messageId then none
        else some (updateJob jobId { job with
          state := .published, sqsMessageId := some messageId } ())
      else some { value := () }

def markDispatchPublishFailure (state : PublishState) (delaySeconds : Int)
    (jobId token : Uuid) : Stmt Unit :=
  onLedger fun begun env busy l =>
    updateLeased jobId token (fun row => { row with
      publishState := state
      nextAttemptAt := begun.now + delaySeconds * second
      publishLeaseToken := none, publishLeaseExpiresAt := none
      lastSafeError := some "sqs_send_failed"
      updatedAt := begun.now }) begun env busy l

/-! ## `PublishNext` -/

/-- The input of the one `Send` a claimed row leads to. -/
def sendInput (jobId : Uuid) (payload : DispatchPayload) : SendInput :=
  { queueUrl := payload.queueUrl, body := payload.messageBody
    deduplicationId := payload.messageDeduplicationId
    groupId := payload.messageGroupId
    attributes :=
      { schemaVersion := payload.schemaVersion, jobId := .canonical jobId
        workerPoolId := payload.workerPoolId
        snapshotHash := payload.snapshotHash, expiresAt := payload.expiresAt
        resultId := .foreign "", resultKeyId := ""
        platformKeyId := payload.platformKeyId
        workerEncryptionKeyId := payload.workerEncryptionKeyId } }

/-- The claim came too late: the dispatch, the job and the slot expire. -/
def expireClaimed (jobId token : Uuid) : Prog (Bool × Option Failure) := do
  let .ok () ← query (expireClaimedDispatch jobId token)
    | return (true, some .database)
  let .ok () ← query (expireUnpublishedCheckJob jobId)
    | return (true, some .database)
  let .ok _ ← query (insertExpiredCoverageGapFromJob jobId)
    | return (true, some .database)
  let .ok () ← commit | return (true, some .database)
  return (true, none)

/-- The statements of the completing transaction. A third failed attempt
leaves the row `ambiguous`. -/
def recordSend (jobId token : Uuid) (attempts : Nat)
    (outcome : Except Unit String) : Prog (Except Fault Unit) := do
  match outcome with
  | .ok messageId =>
    let .ok () ← query (markDispatchPublished messageId jobId token)
      | return .error .failed
    query (markCheckJobPublished messageId jobId)
  | .error () =>
    if 3 ≤ attempts then
      query (markDispatchPublishFailure .ambiguous 120 jobId token)
    else if attempts = 2 then
      query (markDispatchPublishFailure .pending 20 jobId token)
    else query (markDispatchPublishFailure .pending 10 jobId token)

/-- What follows the claim's commit. -/
def sendClaimed (jobId token : Uuid) (row : Dispatch) :
    Prog (Bool × Option Failure) := do
  let outcome ← call (.send (sendInput jobId row.payload))
  let .ok () ← start | return (true, some .database)
  let .ok () ← recordSend jobId token row.publishAttempts outcome
    | return (true, some .database)
  let .ok () ← commit | return (true, some .database)
  match outcome with
  | .ok _ => return (true, none)
  | .error () => return (true, some .service)

def publishNext : Prog (Bool × Option Failure) := do
  let .ok () ← start | return (false, some .database)
  let .ok found ← query claimDispatchOutbox | return (false, some .database)
  match found with
  | none => return (false, none)
  | some (jobId, row) =>
    let token := row.publishLeaseToken.getD 0
    let now ← clock
    if row.payload.expiresAt < now then expireClaimed jobId token
    else
      let .ok () ← commit | return (true, some .database)
      sendClaimed jobId token row

/-! ## `ReclaimPublisherLeases`

One `UPDATE` of many rows. It finds its candidates in one snapshot; a row that
another transaction holds is waited for, and its condition is tested again on
what that transaction left. -/

def Dispatch.leaseExpired (row : Dispatch) (now : Time) : Bool :=
  row.publishState == .publishing &&
    (match row.publishLeaseExpiresAt with
      | none => false
      | some expires => decide (expires < now))

def listExpiredLeases : Stmt (List Uuid) :=
  onLedger fun begun _ _ l => some
    { value := (l.outbox.rows.filter fun e =>
        e.2.leaseExpired begun.now).map Prod.fst }

def reclaimDispatchLease (jobId : Uuid) : Stmt Nat :=
  onLedger fun begun _ _ l =>
    match l.outbox.find jobId with
    | none => some { value := 0 }
    | some row =>
      if row.leaseExpired begun.now then
        updateDispatch jobId row { row with
          publishState :=
            if 3 ≤ row.publishAttempts then .ambiguous else .pending
          publishLeaseToken := none, publishLeaseExpiresAt := none
          lastSafeError := some "publisher_interrupted"
          updatedAt := begun.now } 1
      else some { value := 0 }

def reclaimEach : List Uuid → Nat → Prog (Except Fault Nat)
  | [], count => return .ok count
  | jobId :: rest, count => do
      let .ok affected ← query (reclaimDispatchLease jobId)
        | return .error .failed
      reclaimEach rest (count + affected)

def reclaimDispatchPublisherLeases : Prog (Except Fault Nat) := do
  let .ok ids ← query listExpiredLeases | return .error .failed
  reclaimEach ids 0

def reclaimPublisherLeases : Prog (Except Failure Nat) := do
  let .ok () ← start | return .error .database
  let .ok count ← reclaimDispatchPublisherLeases | return .error .database
  let .ok () ← commit | return .error .database
  return .ok count

end WatchTrace.Model
