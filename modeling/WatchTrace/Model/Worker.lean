import WatchTrace.Proc.Script
import WatchTrace.Tx.Table
import WatchTrace.Model.Outside

/-!
# The worker

`internal/modworker/worker.go` with the journal it keeps
(`internal/workerjournal/journal.go`), the job half of `internal/envelope` and the
part of `internal/checkengine/engine.go` that turns a response into a result. A
worker has no database: it pulls a job over its transport, looks into its journal
whether it has done it before, does it, and publishes the result.

The journal is a file and survives a restart; the publication a worker still owes
is kept in memory and does not. A write to the journal may fail, before or after it
has reached the file.
-/

namespace WatchTrace.Model.Worker

open Tx
open Proc (Script Handler Process perform)

/-! ## Jobs -/

structure SealedJob where
  schemaVersion : Int
  ephemeralPublicKey : Bytes
  nonce : Bytes
  ciphertext : Bytes

structure SignedJob where
  job : Job
  signature : Bytes

/-- `envelope.ExpiredAcknowledgement`. -/
structure ExpiredAcknowledgement where
  schemaVersion : Int
  jobId : IdText
  snapshotHash : String
  workerPoolId : String
  workerId : String
  expiredAt : Time
  resultKeyId : String

/-- What the worker takes from libraries. -/
structure Library where
  unmarshalSealed : Bytes → Option SealedJob
  /-- the agreed key, the opened ciphertext and what strict decoding makes of it -/
  decrypt : Bytes → SealedJob → Attributes → Option SignedJob
  /-- `ed25519.Verify` over the attributes and the canonical encoding of the job -/
  verifyJob : Bytes → Attributes → Job → Bytes → Bool
  /-- `sha256` of the canonical encoding, in hexadecimal digits -/
  snapshotHash : Job → String
  /-- the encoding of the result with its signature -/
  marshalResult : Bytes → Result → Option Bytes
  marshalExpired : Bytes → ExpiredAcknowledgement → Option Bytes

def privateKeySize : Nat := 64

section Envelope

variable (L : Library)

/-- Signature, hash and attributes agree with the job. -/
def authentic (attrs : Attributes) (platformPublic : Bytes) (signed : SignedJob) : Bool :=
  signed.signature.length == signatureSize &&
    L.verifyJob platformPublic attrs signed.job signed.signature &&
    L.snapshotHash signed.job == attrs.snapshotHash &&
    signed.job.schemaVersion == attrs.schemaVersion &&
    IdText.canonical signed.job.jobId == attrs.jobId &&
    signed.job.workerPoolId == attrs.workerPoolId &&
    signed.job.platformKeyId == attrs.platformKeyId &&
    signed.job.workerEncryptionKeyId == attrs.workerEncryptionKeyId &&
    signed.job.expiresAt == attrs.expiresAt

def openJob (data : Bytes) (attrs : Attributes) (workerPrivate platformPublic : Bytes)
    (now tolerance : Time) : Option Job :=
  if data.length == 0 || decide (maxMessageBytes < data.length) ||
      !supportsSchema attrs.schemaVersion || platformPublic.length != publicKeySize ||
      decide (tolerance < 0) || decide (30 * second < tolerance) then none
  else
    match L.unmarshalSealed data with
    | none => none
    | some sealed =>
      if sealed.schemaVersion != attrs.schemaVersion ||
          sealed.ephemeralPublicKey.length != 32 || sealed.nonce.length != 12 then none
      else
        match L.decrypt workerPrivate sealed attrs with
        | none => none
        | some signed =>
          if authentic L attrs platformPublic signed &&
              validateJob signed.job (now - tolerance) false then some signed.job
          else none

def signResult (result : Result) (key : Bytes) : Option Bytes :=
  if key.length != privateKeySize || !validateResult result then none
  else (L.marshalResult key result).filter fun out => out.length ≤ maxMessageBytes

def validateExpired (value : ExpiredAcknowledgement) : Bool :=
  supportsSchema value.schemaVersion && !value.jobId.isEmpty &&
    value.snapshotHash.utf8ByteSize == 64 && value.workerPoolId != "" &&
    value.workerId != "" && value.resultKeyId != "" && value.expiredAt != zeroTime

def signExpired (value : ExpiredAcknowledgement) (key : Bytes) : Option Bytes :=
  if key.length != privateKeySize || !validateExpired value then none
  else (L.marshalExpired key value).filter fun out => out.length ≤ maxMessageBytes

end Envelope

/-! ## The journal -/

inductive JournalState
  | accepted
  | completed
  deriving DecidableEq

/-- `worker_jobs`. -/
structure JournalRow where
  snapshotHash : String
  state : JournalState
  result : Option Bytes
  updatedAt : Int

abbrev Journal := Table IdText JournalRow

/-- How a write to the file ends: well, not at all, or done but reported as failed. -/
inductive Disk
  | ok
  | failed
  | unreported
  deriving DecidableEq

def errJournalConflict : Failure := .message "journal snapshot conflict"

/-- No row is inserted or updated: `errJournalConflict`. -/
def Journal.accept (j : Journal) (jobId : IdText) (hash : String) (unix : Int) : Option Journal :=
  match j.find jobId with
  | none => some (j.put jobId
      { snapshotHash := hash, state := .accepted, result := none, updatedAt := unix })
  | some row =>
    if row.snapshotHash = hash then some (j.put jobId { row with updatedAt := unix })
    else none

def Journal.storeResult (j : Journal) (jobId : IdText) (hash : String) (result : Bytes)
    (unix : Int) : Option Journal :=
  match j.find jobId with
  | none => none
  | some row =>
    if row.snapshotHash = hash then
      some (j.put jobId { row with
        state := .completed, result := some result, updatedAt := unix })
    else none

def Journal.result (j : Journal) (jobId : IdText) (hash : String) : Option Bytes :=
  match j.find jobId with
  | none => none
  | some row =>
    if row.snapshotHash = hash ∧ row.state = .completed then some (row.result.getD []) else none

/-! ## What the worker does -/

/-- `workqueue.Delivery`. -/
structure Delivery where
  body : Bytes
  attributes : Attributes
  leaseToken : String
  receiveCount : Nat

structure PendingPublication where
  delivery : Delivery
  body : Bytes
  expired : Bool := false

/-- `checkengine.Request`. -/
structure CheckRequest where
  jobId : IdText
  url : String
  method : String
  headers : List (String × String)
  timeout : Time
  expectedMin : Int
  expectedMax : Int
  maxResponseBytes : Int

/-- What becomes of a request: it cannot be built, the worker is interrupted, the
client fails, answers nothing, or answers a status with so many bytes that could or
could not be read to the end. -/
inductive Fetch
  | invalidTarget
  | interrupted
  | failed (category : String)
  | noResponse
  | response (status : Int) (read : Int) (broken : Bool)

structure Timings where
  dns : Option Time := none
  connect : Option Time := none
  tls : Option Time := none
  firstByte : Option Time := none

/-- `checkengine.Result`. -/
structure CheckResult where
  startedAt : Time
  completedAt : Time
  succeeded : Bool
  statusCode : Option Int
  errorCategory : Option String
  timings : Timings
  total : Time

/-- The operations of a worker. `execute` marks the call of the engine, and for which
snapshot it is made. -/
inductive Op : Type → Type
  | pending : Op (Option PendingPublication)
  | setPending (p : Option PendingPublication) : Op Unit
  | now : Op Time
  | randomId : Op IdText
  | pull : Op (Pull Delivery)
  | publishResultAndAcknowledge (d : Delivery) (body : Bytes) : Op Bool
  | acknowledgeExpired (d : Delivery) (body : Bytes) : Op Bool
  | journalResult (jobId : IdText) (hash : String) : Op (Except Failure (Option Bytes))
  | journalAccept (jobId : IdText) (hash : String) : Op (Except Failure Unit)
  | journalStore (jobId : IdText) (hash : String) (body : Bytes) : Op (Except Failure Unit)
  | execute (hash : String) (request : CheckRequest) : Op Unit
  | fetch (request : CheckRequest) : Op (Fetch × Timings)
  | signed (result : Result) : Op Unit

/-- What the outside does at an operation. -/
structure Env where
  wall : Time
  id : IdText
  pulled : Pull Delivery
  publishes : Delivery → Bytes → Bool
  acknowledges : Delivery → Bytes → Bool
  disk : Disk
  fetched : Fetch
  timings : Timings := {}

/-- What a run is told by: pulls with the publication pending then, calls of the
engine with what the journal had under the job's id, signed results, results that were stored, and
results handed to the transport. -/
inductive Event
  | pulled (pending : Option PendingPublication)
  | executed (jobId : IdText) (hash : String) (journaled : Option JournalRow)
  | signed (result : Result)
  | stored (jobId : IdText) (hash : String) (body : Bytes)
  | published (jobId : IdText) (hash : String) (body : Bytes)

/-- Memory, file, and the story so far, the last event first. -/
structure State where
  pending : Option PendingPublication
  journal : Journal
  log : List Event

def State.note (s : State) (e : Event) : State := { s with log := e :: s.log }

/-- `time.Time.Unix`. -/
def unix (t : Time) : Int := t / second

/-- A statement about the journal that changes a row, or does not find one to change;
`event` is noted when it is known to have succeeded. -/
def write (disk : Disk) (s : State) (changed : Option Journal) (event : Option Event) :
    Except Failure Unit × State :=
  match disk, changed with
  | .failed, _ => (.error .service, s)
  | .ok, none => (.error errJournalConflict, s)
  | .unreported, none => (.error .service, s)
  | .ok, some j => (.ok (), { s with journal := j, log := event.toList ++ s.log })
  | .unreported, some j => (.error .service, { s with journal := j })

def act (env : Env) : {β : Type} → Op β → State → β × State
  | _, .pending, s => (s.pending, s)
  | _, .setPending p, s => ((), { s with pending := p })
  | _, .now, s => (env.wall, s)
  | _, .randomId, s => (env.id, s)
  | _, .pull, s => (env.pulled, s.note (.pulled s.pending))
  | _, .publishResultAndAcknowledge d body, s =>
    (env.publishes d body, s.note (.published d.attributes.jobId d.attributes.snapshotHash body))
  | _, .acknowledgeExpired d body, s => (env.acknowledges d body, s)
  | _, .journalResult jobId hash, s =>
    match env.disk with
    | .ok => (.ok (s.journal.result jobId hash), s)
    | _ => (.error .service, s)
  | _, .journalAccept jobId hash, s =>
    write env.disk s (s.journal.accept jobId hash (unix env.wall)) none
  | _, .journalStore jobId hash body, s =>
    write env.disk s (s.journal.storeResult jobId hash body (unix env.wall))
      (some (.stored jobId hash body))
  | _, .execute hash request, s =>
    ((), s.note (.executed request.jobId hash (s.journal.find request.jobId)))
  | _, .fetch _, s => ((env.fetched, env.timings), s)
  | _, .signed result, s => ((), s.note (.signed result))

def handler : Handler Op State Env := { act := fun env o s => act env o s }

/-! ## The check engine -/

def errInvalidCheckRequest : Failure := .message "invalid check request"

def CheckRequest.valid (input : CheckRequest) : Bool :=
  !input.jobId.isEmpty && (input.method == "GET" || input.method == "HEAD") &&
    !decide (input.timeout < second) && !decide (10 * second < input.timeout) &&
    !decide (input.expectedMin < 100) && !decide (599 < input.expectedMax) &&
    !decide (input.expectedMax < input.expectedMin) &&
    !decide (input.maxResponseBytes < 1) && !decide (1024 * 1024 < input.maxResponseBytes)

def finish (start stop : Time) (status : Int) (category : String) (timings : Timings) :
    CheckResult :=
  let stop := if stop < start then start else stop
  { startedAt := start, completedAt := stop, succeeded := category == ""
    statusCode := if 0 < status then some status else none
    errorCategory := if category != "" then some category else none
    timings, total := stop - start }

/-- Status, error category and timings of what was fetched, unless the worker was
interrupted. -/
def verdict (input : CheckRequest) (timings : Timings) : Fetch → Option (Int × String × Timings)
  | .invalidTarget => some (0, "invalid_target", {})
  | .interrupted => none
  | .failed category => some (0, category, timings)
  | .noResponse => some (0, "http_protocol", timings)
  | .response status read broken =>
    if input.maxResponseBytes < read then some (status, "response_too_large", timings)
    else if broken then some (status, "response_body", timings)
    else if status < input.expectedMin ∨ input.expectedMax < status then
      some (status, "unexpected_status", timings)
    else some (status, "", timings)

def execute (hash : String) (input : CheckRequest) : Script Op (Except Failure CheckResult) := do
  perform (.execute hash input)
  if !input.valid then return .error errInvalidCheckRequest
  let start ← perform .now
  let fetched ← perform (.fetch input)
  match verdict input fetched.2 fetched.1 with
  | none => return .error .service
  | some (status, category, timings) =>
    let stop ← perform .now
    return .ok (finish start stop status category timings)

/-! ## One round -/

structure Config where
  workerId : String
  workerPoolId : String
  platformKeyId : String
  workerEncryptionKeyId : String
  resultKeyId : String
  clockTolerance : Time
  workerPrivate : Option Bytes
  platformPublic : Bytes
  resultPrivate : Bytes
  workerPrivateKeys : Table String Bytes
  platformPublicKeys : Table String Bytes
  revokedKeyIds : List String

/-- `New`: the single keys join the rings. -/
def newWorker (c : Config) : Except Failure Config :=
  let workerPrivateKeys := match c.workerPrivate with
    | some key => if c.workerEncryptionKeyId != "" then
        c.workerPrivateKeys.put c.workerEncryptionKeyId key else c.workerPrivateKeys
    | none => c.workerPrivateKeys
  let platformPublicKeys :=
    if c.platformPublic.length == publicKeySize && c.platformKeyId != "" then
      c.platformPublicKeys.put c.platformKeyId c.platformPublic else c.platformPublicKeys
  if c.workerId == "" || c.workerPoolId == "" || c.resultKeyId == "" ||
      workerPrivateKeys.rows.isEmpty || platformPublicKeys.rows.isEmpty ||
      c.resultPrivate.length != privateKeySize then
    .error (.message "invalid worker configuration")
  else if c.clockTolerance < 0 ∨ 30 * second < c.clockTolerance then
    .error (.message "invalid clock tolerance")
  else .ok { c with workerPrivateKeys, platformPublicKeys }

variable (L : Library) (c : Config)

/-- The keys a delivery names, when neither is revoked or unknown. -/
def Config.keys (d : Delivery) : Option (Bytes × Bytes) :=
  if c.revokedKeyIds.contains d.attributes.platformKeyId ||
      c.revokedKeyIds.contains d.attributes.workerEncryptionKeyId then none
  else
    match c.workerPrivateKeys.find d.attributes.workerEncryptionKeyId,
        c.platformPublicKeys.find d.attributes.platformKeyId with
    | some workerPrivate, some platformPublic => some (workerPrivate, platformPublic)
    | _, _ => none

/-- A publication that fails is owed. -/
def publish (d : Delivery) (body : Bytes) : Script Op (Bool × Option Failure) := do
  if ← perform (.publishResultAndAcknowledge d body) then return (true, none)
  perform (.setPending (some { delivery := d, body }))
  return (true, some .service)

def reportExpired (d : Delivery) (job : Job) : Script Op (Bool × Option Failure) := do
  let expiredAt ← perform .now
  let some ack := signExpired L
    { schemaVersion := job.schemaVersion, jobId := .canonical job.jobId
      snapshotHash := d.attributes.snapshotHash, workerPoolId := job.workerPoolId
      workerId := c.workerId, expiredAt, resultKeyId := c.resultKeyId } c.resultPrivate
    | return (true, some errInvalid)
  if ← perform (.acknowledgeExpired d ack) then return (true, none)
  perform (.setPending (some { delivery := d, body := ack, expired := true }))
  return (true, some .service)

def checkRequest (job : Job) : CheckRequest :=
  { jobId := .canonical job.jobId, url := job.targetUrl, method := job.method
    headers := job.headers, timeout := job.timeoutSeconds * second
    expectedMin := job.expectedStatusMin, expectedMax := job.expectedStatusMax
    maxResponseBytes := job.limits.maxResponseBytes }

def micros (v : Time) : Int := v.tdiv 1000

def resultOf (d : Delivery) (job : Job) (attempt resultId : IdText) (r : CheckResult) :
    Result :=
  { schemaVersion := job.schemaVersion, resultId, jobId := .canonical job.jobId
    snapshotHash := d.attributes.snapshotHash, workerPoolId := job.workerPoolId
    workerId := c.workerId, attemptId := attempt, scheduledAt := job.scheduledAt
    startedAt := r.startedAt, completedAt := r.completedAt, succeeded := r.succeeded
    statusCode := r.statusCode, errorCategory := r.errorCategory
    dnsMicros := r.timings.dns.map micros, connectMicros := r.timings.connect.map micros
    tlsMicros := r.timings.tls.map micros
    firstByteMicros := r.timings.firstByte.map micros
    totalMicros := micros r.total, resultKeyId := c.resultKeyId }

/-- A result is stored before it is published. -/
def complete (d : Delivery) (job : Job) (result : Result) :
    Script Op (Bool × Option Failure) := do
  match signResult L result c.resultPrivate with
  | none => return (true, some errInvalid)
  | some body =>
    perform (.signed result)
    match ← perform (.journalStore (.canonical job.jobId) d.attributes.snapshotHash body) with
    | .error failure => return (true, some failure)
    | .ok () => publish d body

/-- From the acceptance in the journal to the publication. -/
def check (d : Delivery) (job : Job) : Script Op (Bool × Option Failure) := do
  match ← perform (.journalAccept (.canonical job.jobId) d.attributes.snapshotHash) with
  | .error failure => return (true, some failure)
  | .ok () =>
    let attempt ← perform .randomId
    let resultId ← perform .randomId
    match ← execute d.attributes.snapshotHash (checkRequest job) with
    | .error failure => return (true, some failure)
    | .ok r => complete L c d job (resultOf c d job attempt resultId r)

/-- A job that has been opened. -/
def handle (d : Delivery) (job : Job) : Script Op (Bool × Option Failure) := do
  match ← perform (.journalResult (.canonical job.jobId) d.attributes.snapshotHash) with
  | .error failure => return (true, some failure)
  | .ok (some stored) => publish d stored
  | .ok none =>
    let now ← perform .now
    if job.expiresAt + c.clockTolerance < now then reportExpired L c d job
    else check L c d job

def receive (d : Delivery) : Script Op (Bool × Option Failure) := do
  match c.keys d with
  | none => return (true, some errInvalid)
  | some (workerPrivate, platformPublic) =>
    let now ← perform .now
    match openJob L d.body d.attributes workerPrivate platformPublic now c.clockTolerance with
    | none => return (true, some errInvalid)
    | some job =>
      if job.workerPoolId != c.workerPoolId then return (true, some errInvalid)
      handle L c d job

def retry (p : PendingPublication) : Script Op (Bool × Option Failure) := do
  let accepted ← if p.expired then perform (.acknowledgeExpired p.delivery p.body)
    else perform (.publishResultAndAcknowledge p.delivery p.body)
  if !accepted then return (true, some .service)
  perform (.setPending none)
  return (true, none)

/-- `RunOne`: whether there was something to do, and what went wrong. -/
def runOne : Script Op (Bool × Option Failure) := do
  match ← perform .pending with
  | some p => retry p
  | none =>
    match ← perform .pull with
    | .noMessage => return (false, none)
    | .failed => return (false, some .service)
    | .message d => receive L c d

/-- A worker in its loop. A restart forgets the publication that is owed. -/
def worker : Process Op (Bool × Option Failure) State Env :=
  { main := runOne L c, handler, restart := fun s => { s with pending := none } }

end WatchTrace.Model.Worker
