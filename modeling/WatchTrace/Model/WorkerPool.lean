import WatchTrace.Model.Consumer

/-!
# The lifecycle of a worker pool

`Register`, `Activate` and `Transition` of `internal/workerpool/service.go`
with the statements of `db/queries/workerpool.sql`. Every change of a pool
starts by locking its row, and every one leaves an audit event behind. The key
a pool signs its results with is written in two places: in the pool's own row
and in a credential, and only the credential has a status.
-/

namespace WatchTrace.Model

open Tx

/-! ## Statements -/

/-- `CHECK (id ~ '^[a-z0-9][a-z0-9_-]{0,62}$')`. -/
def poolIdAdmissible (id : String) : Bool :=
  let alnum := fun c : Char => c.isLower || c.isDigit
  match id.toList with
  | [] => false
  | c :: rest => alnum c && decide (rest.length ≤ 62) &&
      rest.all fun c => alnum c || c == '_' || c == '-'

/-- Both keys are there with their ids, or neither is; a key has 32 bytes. -/
def WorkerPool.admissible (pool : WorkerPool) : Bool :=
  let sized := fun key : Option Bytes => match key with
    | none => true
    | some bytes => bytes.length == 32
  (pool.schemaMin == 1 || pool.schemaMin == 2) && (pool.schemaMax == 1 || pool.schemaMax == 2) &&
    decide (pool.schemaMin ≤ pool.schemaMax) &&
    decide (0 < pool.networkPolicyVersion) &&
    (pool.encryptionKeyId.isNone == pool.encryptionPublicKey.isNone) &&
    (pool.resultKeyId.isNone == pool.resultPublicKey.isNone) &&
    sized pool.encryptionPublicKey && sized pool.resultPublicKey

def registerWorkerPool (id : String) (pool : WorkerPool) : Stmt Unit :=
  onCore fun _ _ _ c =>
    if !poolIdAdmissible id || !pool.admissible || (c.pools.find id).isSome then
      none
    else some
      { value := ()
        write := fun c => { c with pools := c.pools.put id pool }
        locks := [.pool id] }

/-- The columns of `UNIQUE (worker_pool_id, purpose, key_id)`. -/
def WorkerPoolCredential.key (k : WorkerPoolCredential) :
    String × CredentialPurpose × String := (k.workerPoolId, k.purpose, k.keyId)

def WorkerPoolCredential.lock (k : WorkerPoolCredential) : Key :=
  .credential k.workerPoolId k.purpose k.keyId

def WorkerPoolCredential.admissible (k : WorkerPoolCredential) : Bool :=
  decide (1 ≤ k.keyId.utf8ByteSize ∧ k.keyId.utf8ByteSize ≤ 64) &&
    decide (1 ≤ k.fingerprint.utf8ByteSize ∧ k.fingerprint.utf8ByteSize ≤ 128)

/-- `InsertWorkerPoolCredential` and `InsertWorkerPoolMTLSCredential`: pending,
and active from the start of the transaction on. -/
def insertCredential (credential : Time → WorkerPoolCredential) : Stmt Unit :=
  onCore fun begun _ _ c =>
    let k := credential begun.now
    if !k.admissible || c.credentials.any fun k' => k'.key == k.key then none
    else some
      { value := ()
        write := fun c => { c with credentials := c.credentials ++ [k] }
        locks := [k.lock] }

def insertWorkerPoolCredential (workerPoolId : String)
    (purpose : CredentialPurpose) (keyId : String) (publicMaterial : Bytes)
    (fingerprint : String) : Stmt Unit :=
  insertCredential fun now =>
    { workerPoolId := workerPoolId, purpose := purpose, keyId := keyId
      publicMaterial := some publicMaterial, fingerprint := fingerprint
      status := .pending, activatesAt := now }

def insertWorkerPoolMTLSCredential (workerPoolId keyId fingerprint : String)
    (notAfter : Time) : Stmt Unit :=
  insertCredential fun now =>
    { workerPoolId := workerPoolId, purpose := .mtlsCertificate, keyId := keyId
      publicMaterial := none, fingerprint := fingerprint, status := .pending
      activatesAt := now, notAfter := some notAfter }

/-- The pending credentials that count for an activation: a certificate has to
be good for ten more days. -/
def WorkerPoolCredential.ready (k : WorkerPoolCredential) (id : String) (now : Time) : Bool :=
  k.workerPoolId == id && k.status == .pending && (k.purpose != .mtlsCertificate ||
      (match k.notAfter with
        | none => false
        | some notAfter => decide (now + 10 * day < notAfter)))

def activationReady (c : Core) (id : String) (pool : WorkerPool) (now : Time) :
    Bool :=
  pool.lifecycleState == .provisioning && pool.jobQueueUrl.isSome &&
    pool.jobQueueArn.isSome && pool.jobDlqUrl.isSome && pool.jobDlqArn.isSome &&
    pool.encryptionPublicKey.isSome && pool.resultPublicKey.isSome &&
    c.credentials.countP (fun k => k.ready id now) == (if pool.mode = .customerVpc then 3 else 2)

/-- `… FOR UPDATE`. -/
def lockWorkerPoolActivationReadiness (id : String) : Stmt (Option Bool) :=
  onCore fun begun _ _ c =>
    match c.pools.find id with
    | none => some { value := none }
    | some pool => some
        { value := some (activationReady c id pool begun.now)
          locks := [.pool id] }

def updateWorkerPool (id : String) (change : WorkerPool → WorkerPool) : Stmt Unit :=
  onCore fun _ _ _ c =>
    match c.pools.find id with
    | none => some { value := () }
    | some pool => some
        { value := ()
          write := fun c => { c with pools := c.pools.put id (change pool) }
          locks := [.pool id] }

def activateWorkerPool (id : String) (manifestDigest : Bytes) : Stmt Unit :=
  updateWorkerPool id fun pool => { pool with
    enabled := true, lifecycleState := .active
    manifestDigest := some manifestDigest }

/-- An update of the credentials of a pool in some states: of those it finds. -/
def updateCredentials (id : String) (affects : CredentialStatus → Bool)
    (change : Time → WorkerPoolCredential → WorkerPoolCredential) : Stmt Unit :=
  onCore fun begun _ _ c =>
    let found := c.credentials.filter fun k => k.workerPoolId == id && affects k.status
    some
      { value := ()
        write := fun c => { c with
          credentials := c.credentials.map fun k =>
            if (found.map WorkerPoolCredential.key).contains k.key then
              change begun.now k
            else k }
        locks := found.map WorkerPoolCredential.lock }

def activatePendingWorkerPoolCredentials (id : String) : Stmt Unit :=
  updateCredentials id (· == .pending) fun _ k => { k with status := .active }

def lockWorkerPoolLifecycleState (id : String) : Stmt (Option PoolState) :=
  onCore fun _ _ _ c =>
    match c.pools.find id with
    | none => some { value := none }
    | some pool => some { value := some pool.lifecycleState, locks := [.pool id] }

def updateWorkerPoolLifecycle (id : String) (state : PoolState) : Stmt Unit :=
  updateWorkerPool id fun pool => { pool with
    lifecycleState := state, enabled := false }

/-- `status IN ('pending', 'active', 'retired')`. -/
def revokeWorkerPoolCredentials (id : String) : Stmt Unit :=
  updateCredentials id (· != .revoked) fun now k => { k with
    status := .revoked, revokedAt := some now }

def insertWorkerPoolAudit (event : AuditEvent) : Stmt Unit :=
  onJournal fun _ _ _ _ => some
    { value := ()
      write := fun j => { j with audit := j.audit ++ [event] } }

/-! ## The service -/

/-- `workerpool.Registration`. -/
structure Registration where
  id : String
  mode : PoolMode
  jobQueueUrl : String
  jobQueueArn : String
  jobDlqUrl : String
  jobDlqArn : String
  encryptionKeyId : String
  resultKeyId : String
  encryptionPublic : Bytes
  resultPublic : Bytes
  schemaMin : Nat
  schemaMax : Nat
  mtlsFingerprint : String
  mtlsNotAfter : Time

/-- The first check of `Register`. -/
def Registration.invalid (r : Registration) (actor reason : String) (now : Time) : Bool :=
  r.id == "" || r.jobQueueUrl == "" || r.jobQueueArn == "" ||
    r.jobDlqUrl == "" || r.jobDlqArn == "" ||
    r.encryptionPublic.length != 32 || r.resultPublic.length != 32 ||
    r.encryptionKeyId == "" || r.resultKeyId == "" || decide (r.schemaMin < 1) ||
    decide (2 < r.schemaMax) || decide (r.schemaMax < r.schemaMin) ||
    actor == "" || reason == "" ||
    (r.mode == .customerVpc && (r.mtlsFingerprint == "" ||
      r.mtlsNotAfter == zeroTime || decide (now + 31 * day < r.mtlsNotAfter)))

/-- The row of a pool that has just been registered. -/
def Registration.pool (r : Registration) : WorkerPool :=
  { mode := r.mode, enabled := false, lifecycleState := .provisioning
    schemaMin := r.schemaMin, schemaMax := r.schemaMax
    networkPolicyVersion := 1
    encryptionKeyId := some r.encryptionKeyId
    encryptionPublicKey := some r.encryptionPublic
    resultKeyId := some r.resultKeyId
    resultPublicKey := some r.resultPublic
    jobQueueUrl := some r.jobQueueUrl, jobQueueArn := some r.jobQueueArn
    jobDlqUrl := some r.jobDlqUrl, jobDlqArn := some r.jobDlqArn }

def errInvalidAudit : Failure := .message "invalid audit identity or reason"

def audit (event : AuditEvent) : Prog (Except Failure Unit) := do
  if event.actor.utf8ByteSize == 0 || decide (128 < event.actor.utf8ByteSize) ||
      event.reason.utf8ByteSize == 0 ||
      decide (240 < event.reason.utf8ByteSize) then
    return .error errInvalidAudit
  let .ok () ← query (insertWorkerPoolAudit event) | return .error .database
  return .ok ()

/-- The audit event, and the commit. -/
def auditAndCommit (event : AuditEvent) : Prog (Except Failure Unit) := do
  match ← audit event with
  | .error failure => return .error failure
  | .ok () =>
    let .ok () ← commit | return .error .database
    return .ok ()

/-- The credentials of a registration, after the pool's own row. -/
def registerCredentials (sha256Hex : Bytes → String) (r : Registration) :
    Prog (Except Failure Unit) := do
  let .ok () ← query (insertWorkerPoolCredential r.id .jobEncryption
    r.encryptionKeyId r.encryptionPublic (sha256Hex r.encryptionPublic))
    | return .error .database
  let .ok () ← query (insertWorkerPoolCredential r.id .resultSigning
    r.resultKeyId r.resultPublic (sha256Hex r.resultPublic))
    | return .error .database
  if r.mode = .customerVpc then
    let .ok () ← query (insertWorkerPoolMTLSCredential r.id
      ("mtls-" ++ r.encryptionKeyId) r.mtlsFingerprint r.mtlsNotAfter)
      | return .error .database
    return .ok ()
  else return .ok ()

def register (sha256Hex : Bytes → String) (r : Registration)
    (actor reason : String) : Prog (Except Failure Unit) := do
  let now ← clock
  if r.invalid actor reason now then
    return .error (.message "invalid worker-pool registration")
  let .ok () ← start | return .error .database
  let .ok () ← query (registerWorkerPool r.id r.pool)
    | return .error .database
  let .ok () ← registerCredentials sha256Hex r | return .error .database
  auditAndCommit
    { workerPoolId := r.id, action := .register, actor := actor
      reason := reason }

def activate (id : String) (manifestDigest : Bytes) (gatewayMapped : Bool)
    (actor reason : String) : Prog (Except Failure Unit) := do
  if manifestDigest.length != 32 || !gatewayMapped then
    return .error (.message "pool dependencies are not verified")
  let .ok () ← start | return .error .database
  let .ok (some ready) ← query (lockWorkerPoolActivationReadiness id)
    | return .error .database
  if !ready then return .error (.message "pool is incomplete")
  let .ok () ← query (activateWorkerPool id manifestDigest)
    | return .error .database
  let .ok () ← query (activatePendingWorkerPoolCredentials id)
    | return .error .database
  auditAndCommit
    { workerPoolId := id, action := .activate, actor := actor
      reason := reason }

/-- The keys of the map `actions`. -/
def transitionAction : PoolState → Option AuditAction
  | .draining => some .drain
  | .revoked => some .revoke
  | .failed => some .fail
  | .deleting => some .deleteStart
  | .provisioning | .active => none

/-- The map `allowed`. -/
def transitionAllowed : PoolState → PoolState → Bool
  | .active, .draining | .active, .revoked | .active, .failed => true
  | .provisioning, .failed | .provisioning, .revoked => true
  | .draining, .revoked | .draining, .deleting => true
  | .revoked, .deleting => true
  | .failed, .deleting => true
  | _, _ => false

/-- The targets that take the credentials away. -/
def revokes (target : PoolState) : Bool :=
  target == .revoked || target == .deleting

def transition (id : String) (target : PoolState) (actor reason : String) :
    Prog (Except Failure Unit) := do
  let some action := transitionAction target
    | return .error (.message "invalid lifecycle target")
  let .ok () ← start | return .error .database
  let .ok (some current) ← query (lockWorkerPoolLifecycleState id)
    | return .error .database
  if !transitionAllowed current target then
    return .error (.message "invalid lifecycle transition")
  let .ok () ← query (updateWorkerPoolLifecycle id target)
    | return .error .database
  let .ok () ← (if revokes target then query (revokeWorkerPoolCredentials id)
    else return .ok ()) | return .error .database
  auditAndCommit
    { workerPoolId := id, action := action, actor := actor
      reason := reason }

end WatchTrace.Model
