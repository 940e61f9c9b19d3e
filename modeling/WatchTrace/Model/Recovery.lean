import WatchTrace.Model.WorkerPool

/-!
# Redriving a quarantined result

`run` of `cmd/queue-recovery/main.go`, after its configuration has been read:
an operator names a quarantine record, the command opens and verifies what is
in it, and puts it back on the result queue. Its two reads are statements of
their own; only the bookkeeping after the send is a transaction.
-/

namespace WatchTrace.Model

open Tx

/-! ## Statements -/

def getQuarantineRecord (id : Uuid) : Stmt (Option QuarantineRow) :=
  onLedger (.read fun l => l.quarantine.rows.find? fun r => r.id == id)

/-- The key a quarantined result is verified with. Unlike the consumer's, the
pool's own key is taken whatever its id. -/
def recoveryPublicKey (c : Core) (workerPoolId : String) (pool : WorkerPool)
    (resultKeyId : String) : Option Bytes :=
  match signingCredential c workerPoolId resultKeyId with
  | some material => some material
  | none => pool.resultPublicKey

/-- The key, and the state of the job; no row where the job is of another
pool. -/
def getRecoveryResultVerification (jobId : Uuid) (resultKeyId : String)
    (workerPoolId : String) : Stmt (Option (Option Bytes × JobState)) :=
  .read fun db =>
    match db.ledger.jobs.find jobId with
    | none => none
    | some job =>
      if job.workerPoolId = workerPoolId then
        match db.core.pools.find job.workerPoolId with
        | none => none
        | some pool => some (recoveryPublicKey db.core job.workerPoolId pool resultKeyId, job.state)
      else none

def QuarantineRow.redriven (row : QuarantineRow) (approver reason : String)
    (now : Time) : QuarantineRow :=
  { row with
    status := .redriven, redriveCount := row.redriveCount + 1
    approver := some approver, redriveReason := some reason
    reviewedAt := some now }

/-- Rows affected, one or none. -/
def markQuarantineRedriven (id : Uuid) (approver reason : String) : Stmt Nat :=
  onLedger fun begun _ _ l =>
    match l.quarantine.rows.find? fun r => r.id == id with
    | none => some { value := 0 }
    | some row =>
      if row.status = .quarantined ∧ row.redriveCount < 3 then some
        { value := 1
          write := fun l => { l with
            quarantine := l.quarantine.amend
              (fun r => if r.id = id then r.redriven approver reason begun.now
                else r)
              (fun r => by split <;> rfl) }
          locks := [.quarantineRow id] }
      else some { value := 0 }

def insertQueueRecoveryOperationalEvent (jobId : Uuid) (workerPoolId : String) : Stmt Unit :=
  onJournal fun _ _ _ _ => some
    { value := ()
      write := fun j => { j with
        operational := j.operational ++
          [{ eventType := .redrive, jobId := some jobId
             workerPoolId := some workerPoolId
             safeDetails := "controlled result redrive" }] } }

/-! ## The command -/

/-- A statement outside any transaction. -/
def single {α : Type} (q : Stmt α) : Prog (Except Failure α) := do
  let .ok () ← start | return .error .database
  match ← query q with
  | .error _ =>
    rollback
    return .error .database
  | .ok value =>
    rollback
    return .ok value

/-- `quarantine.Sealer.Open`. -/
def openPayload (payload : SealedPayload) (associated : String × Option IdText) : Option Bytes :=
  if payload.associated = associated then some payload.plain else none

/-- What the record says about the result in it. -/
structure RecoveredResult where
  jobId : Uuid
  resultId : Uuid
  workerPoolId : String
  plain : Bytes
  result : Result

/-- The checks on the record alone. -/
def recoverRecord (P : Primitives) (record : QuarantineRow) (now : Time) :
    Except Failure RecoveredResult :=
  if record.status ≠ .quarantined ∨ 3 ≤ record.redriveCount ∨
      record.expiresAt < now then
    .error (.message "quarantine record is not recoverable")
  else if record.queueKind = .job then
    .error (.message "expired or dead jobs are never executed by redrive")
  else
    match record.resultId, record.jobId with
    | some resultId, some jobId =>
      let poolId := record.workerPoolId.getD ""
      match openPayload record.encryptedPayload
          ("result:", some (.canonical resultId)) with
      | none => .error errQuarantinePayload
      | some plain =>
        match peekResult P plain with
        | none => .error errInvalid
        | some result =>
          if result.resultId = .canonical resultId ∧ result.jobId = .canonical jobId ∧
              result.workerPoolId = poolId then
            .ok ⟨jobId, resultId, poolId, plain, result⟩
          else .error errInvalid
    | _, _ => .error (.message "result identity is unavailable")

/-- The message that goes back to the result queue. -/
def redriveInput (P : Primitives) (queueUrl : String) (r : RecoveredResult) :
    SendInput :=
  { queueUrl := queueUrl, body := P.base64 r.plain
    deduplicationId := r.resultId, groupId := r.jobId
    attributes :=
      { schemaVersion := r.result.schemaVersion, jobId := .canonical r.jobId
        workerPoolId := r.workerPoolId, snapshotHash := r.result.snapshotHash
        expiresAt := zeroTime, resultId := .canonical r.resultId
        resultKeyId := r.result.resultKeyId, platformKeyId := ""
        workerEncryptionKeyId := "" } }

/-- What follows the send. -/
def recordRedrive (id : Uuid) (approver reason : String) (r : RecoveredResult) :
    Prog (Except Failure Unit) := do
  let .ok () ← start | return .error .database
  let .ok rowsAffected ← query (markQuarantineRedriven id approver reason)
    | return .error (.message "quarantine state changed")
  if rowsAffected ≠ 1 then
    return .error (.message "quarantine state changed")
  let .ok () ← query (insertWorkerPoolAudit
    { workerPoolId := r.workerPoolId, action := .redrive, actor := approver
      reason := reason }) | return .error .database
  let .ok () ← query (insertQueueRecoveryOperationalEvent r.jobId
    r.workerPoolId) | return .error .database
  let .ok () ← commit | return .error .database
  return .ok ()

/-- The send, once the result has verified. -/
def sendRedrive (P : Primitives) (queueUrl : String) (id : Uuid)
    (execute : Bool) (approver reason : String) (r : RecoveredResult) :
    Prog (Except Failure Unit) := do
  if !execute then return .ok ()
  if queueUrl == "" then
    return .error (.message "result queue URL required")
  match ← call (.send (redriveInput P queueUrl r)) with
  | .error () => return .error .service
  | .ok _ => recordRedrive id approver reason r

/-- The verification against what the database says now. -/
def verifyAndRedrive (P : Primitives) (queueUrl : String) (id : Uuid)
    (execute : Bool) (approver reason : String) (r : RecoveredResult) :
    Prog (Except Failure Unit) := do
  match ← single (getRecoveryResultVerification r.jobId r.result.resultKeyId
      r.workerPoolId) with
  | .error failure => return .error failure
  | .ok none => return .error .database
  | .ok (some (key, _)) =>
    match verifyResult P r.plain (key.getD []) with
    | none => return .error errInvalid
    | some _ => sendRedrive P queueUrl id execute approver reason r

def recover (P : Primitives) (queueUrl : String) (id : Uuid) (execute : Bool)
    (approver reason : String) : Prog (Except Failure Unit) := do
  if approver == "" || reason == "" || decide (128 < approver.utf8ByteSize) ||
      decide (240 < reason.utf8ByteSize) then
    return .error (.message "id, approver, and reason are required")
  match ← single (getQuarantineRecord id) with
  | .error failure => return .error failure
  | .ok none => return .error .database
  | .ok (some record) =>
    let now ← clock
    match recoverRecord P record now with
    | .error failure => return .error failure
    | .ok r => verifyAndRedrive P queueUrl id execute approver reason r

end WatchTrace.Model
