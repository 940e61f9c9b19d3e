import WatchTrace.Model.Worker

/-!
# The queue gateway

`internal/queuegateway/gateway.go`, the HTTPS adapter between a worker and the
queues, and the transport of `internal/workqueue/https.go` that talks to it. A pull
hands out a lease, sealed into a token that only the gateway can open; to publish a
result or to report an expired job the worker has to bring the token back before the
lease ends.

A handler is a script over the gateway's clock, the locked sections on its limits,
and the queue behind the pool.
-/

namespace WatchTrace.Model.QueueGateway

open Tx
open Proc (Script Handler perform)
open Worker (Delivery ExpiredAcknowledgement)

structure Lease where
  poolId : String
  receipt : String
  jobId : IdText
  snapshotHash : String
  schemaVersion : Int
  expiresAt : Time
  leaseExpiresAt : Time
  deriving DecidableEq

structure Pool where
  id : String
  resultKeyId : String
  resultPublic : Bytes
  schemaMin : Int := 0
  schemaMax : Int := 0
  maxRequestsPerMinute : Int := 0
  maxBytesPerMinute : Int := 0
  maxConcurrentPulls : Int := 0
  maxResultsPerMinute : Int := 0
  revokedCertificateSerials : List String := []

/-- `New` for one pool: the defaults, unless it is then not admissible. -/
def Pool.normalize (p : Pool) : Option Pool :=
  let p := { p with
    schemaMin := if p.schemaMin = 0 then previousSchemaVersion else p.schemaMin
    schemaMax := if p.schemaMax = 0 then schemaVersion else p.schemaMax
    maxRequestsPerMinute := if p.maxRequestsPerMinute = 0 then 120 else p.maxRequestsPerMinute
    maxBytesPerMinute :=
      if p.maxBytesPerMinute = 0 then 8 * 1024 * 1024 else p.maxBytesPerMinute
    maxConcurrentPulls := if p.maxConcurrentPulls = 0 then 2 else p.maxConcurrentPulls
    maxResultsPerMinute := if p.maxResultsPerMinute = 0 then 120 else p.maxResultsPerMinute }
  if p.id == "" || p.resultKeyId == "" || p.resultPublic.length != publicKeySize ||
      decide (p.schemaMin < previousSchemaVersion) || decide (schemaVersion < p.schemaMax) ||
      decide (p.schemaMax < p.schemaMin) || decide (p.maxRequestsPerMinute < 1) ||
      decide (p.maxBytesPerMinute < 1024) || decide (p.maxConcurrentPulls < 1) ||
      decide (p.maxResultsPerMinute < 1) then none
  else some p

structure PoolLimit where
  window : Time := zeroTime
  requests : Int := 0
  bytes : Int := 0
  results : Int := 0
  activePull : Int := 0

structure Gateway where
  pools : Table String Pool
  tolerance : Time
  limits : Table String PoolLimit
  dependencyUnavailableUntil : Option Time

/-- `New`: a pool of an identifier that is configured twice is the last one. -/
def newGateway (pools : List Pool) (key : Bytes) (tolerance : Time) : Option Gateway :=
  if key.length ≠ 32 then none
  else
    pools.foldlM (fun g p => p.normalize.map fun p =>
        { g with pools := g.pools.put p.id p, limits := g.limits.put p.id {} })
      { pools := .empty, tolerance, limits := .empty, dependencyUnavailableUntil := none }

structure Certificate where
  commonName : String
  notBefore : Time
  notAfter : Time
  serialNumber : String

/-- `actionRequest`; the body as base64 decoding leaves it. -/
structure ActionRequest where
  leaseToken : String
  body : Option Bytes
  seconds : Int := 0

structure HttpRequest where
  certificate : Option Certificate
  contentLength : Int
  /-- what strict decoding makes of the body -/
  action : Option ActionRequest

/-- What the gateway takes from libraries besides the envelope's. -/
structure Library where
  envelope : Primitives
  verifyExpired : Bytes → Bytes → Option ExpiredAcknowledgement
  /-- base64, the authenticated decryption and the decoding of a token -/
  openToken : String → Option Lease
  sealToken : Nat → Lease → String

inductive Op : Type → Type
  | now : Op Time
  | acquire (pool : Pool) (bytes : Int) (pull result : Bool) : Op Bool
  | releasePull (poolId : String) : Op Unit
  | recordDependency (healthy : Bool) : Op Unit
  | nonce : Op (Option Nat)
  | pull : Op (Pull Delivery)
  | extend (d : Delivery) (duration : Time) : Op Bool
  | publishResultAndAcknowledge (d : Delivery) (body : Bytes) : Op Bool
  | acknowledgeExpired (d : Delivery) (body : Bytes) : Op Bool

structure Env where
  wall : Time
  nonce : Option Nat
  pulled : Pull Delivery
  accepted : Bool

/-! ## Locked sections -/

/-- The counters of a minute; another one begins with none. -/
def PoolLimit.inMinute (limit : PoolLimit) (now : Time) : PoolLimit :=
  if limit.window = zeroTime ∨ limit.window ≠ now then
    { limit with window := now, requests := 0, bytes := 0, results := 0 }
  else limit

/-- The sums are those of an `int64`. -/
def Gateway.acquire (g : Gateway) (now : Time) (pool : Pool) (bytes : Int) (pull result : Bool) :
    Bool × Gateway :=
  let limit := ((g.limits.find pool.id).getD {}).inMinute (now - now % minute)
  if decide (pool.maxRequestsPerMinute < int64 (limit.requests + 1)) ||
      decide (pool.maxBytesPerMinute < int64 (limit.bytes + bytes)) ||
      (pull && decide (pool.maxConcurrentPulls ≤ limit.activePull)) ||
      (result && decide (pool.maxResultsPerMinute < int64 (limit.results + 1))) then
    (false, { g with limits := g.limits.put pool.id limit })
  else
    (true, { g with
      limits := g.limits.put pool.id
        { limit with
          requests := int64 (limit.requests + 1), bytes := int64 (limit.bytes + bytes)
          activePull := if pull then limit.activePull + 1 else limit.activePull
          results := if result then int64 (limit.results + 1) else limit.results } })

def Gateway.releasePull (g : Gateway) (poolId : String) : Gateway :=
  match g.limits.find poolId with
  | none => g
  | some limit =>
    if 0 < limit.activePull then
      { g with limits := g.limits.put poolId { limit with activePull := limit.activePull - 1 } }
    else g

def Gateway.recordDependency (g : Gateway) (now : Time) (healthy : Bool) : Gateway :=
  { g with dependencyUnavailableUntil := if healthy then none else some (now + 5 * second) }

def act (env : Env) : {β : Type} → Op β → Gateway → β × Gateway
  | _, .now, g => (env.wall, g)
  | _, .acquire pool bytes pull result, g => g.acquire env.wall pool bytes pull result
  | _, .releasePull poolId, g => ((), g.releasePull poolId)
  | _, .recordDependency healthy, g => ((), g.recordDependency env.wall healthy)
  | _, .nonce, g => (env.nonce, g)
  | _, .pull, g => (env.pulled, g)
  | _, .extend _ _, g => (env.accepted, g)
  | _, .publishResultAndAcknowledge _ _, g => (env.accepted, g)
  | _, .acknowledgeExpired _ _, g => (env.accepted, g)

def handler : Handler Op Gateway Env := { act := fun env o g => act env o g }

/-! ## Handlers -/

variable (L : Library) (pools : Table String Pool) (tolerance : Time)

/-- The pool of a client certificate. The clock is looked at for each of the two
ends of its validity. -/
def pool (request : HttpRequest) : Script Op (Option Pool) := do
  match request.certificate with
  | none => return pools.find ""
  | some certificate =>
    let now ← perform .now
    let now' ← perform .now
    if 31 * day < certificate.notAfter - certificate.notBefore ∨ now < certificate.notBefore ∨
        certificate.notAfter < now' then return none
    match pools.find certificate.commonName with
    | none => return none
    | some p =>
      if p.revokedCertificateSerials.contains certificate.serialNumber then return none
      return some p

/-- `open`: the lease in a token, unless it has ended. -/
def openLease (token : String) (now : Time) : Option Lease :=
  match L.openToken token with
  | none => none
  | some value =>
    if value.receipt == "" || value.jobId.isEmpty || value.leaseExpiresAt == zeroTime ||
        decide (value.leaseExpiresAt + tolerance < now) then none
    else some value

def Lease.delivery (l : Lease) : Delivery :=
  { body := [], leaseToken := l.receipt, receiveCount := 0
    attributes :=
      { schemaVersion := l.schemaVersion, jobId := l.jobId, workerPoolId := l.poolId
        snapshotHash := l.snapshotHash, expiresAt := l.expiresAt, resultId := .foreign ""
        resultKeyId := "", platformKeyId := "", workerEncryptionKeyId := "" } }

/-- The pool, the leased delivery and the request; or the status to answer. -/
def action (request : HttpRequest) :
    Script Op (Except Nat (Pool × Delivery × ActionRequest)) := do
  match ← pool pools request with
  | none => return .error 401
  | some p =>
    if !(← perform (.acquire p (max 0 request.contentLength) false false)) then
      return .error 429
    match request.action with
    | none => return .error 400
    | some asked =>
      let now ← perform .now
      match openLease L tolerance asked.leaseToken now with
      | none => return .error 401
      | some l =>
        if l.poolId ≠ p.id then return .error 401
        return .ok (p, l.delivery, asked)

/-- The times of a result. -/
def timely (msg : Delivery) (result : Result) (now : Time) : Bool :=
  !decide (result.startedAt < result.scheduledAt - tolerance) &&
    !decide (msg.attributes.expiresAt + tolerance < result.startedAt) &&
    !decide (now + tolerance < result.completedAt)

def admissibleResult (p : Pool) (msg : Delivery) (result : Result) (now : Time) : Bool :=
  result.schemaVersion == msg.attributes.schemaVersion &&
    !decide (result.schemaVersion < p.schemaMin) &&
    !decide (p.schemaMax < result.schemaVersion) &&
    result.jobId == msg.attributes.jobId && result.snapshotHash == msg.attributes.snapshotHash &&
    result.workerPoolId == p.id && result.resultKeyId == p.resultKeyId &&
    timely tolerance msg result now

/-- The last part of a handler: what the queue says is recorded. -/
def forward (o : Op Bool) : Script Op Nat := do
  if ← perform o then
    perform (.recordDependency true)
    return 204
  perform (.recordDependency false)
  return 503

def result (request : HttpRequest) : Script Op Nat := do
  match ← action L pools tolerance request with
  | .error status => return status
  | .ok (p, msg, asked) =>
    match asked.body.filter fun body => body.length ≤ maxMessageBytes with
    | none => return 422
    | some body =>
      if !(← perform (.acquire p body.length false true)) then return 429
      let verified := verifyResult L.envelope body p.resultPublic
      let now ← perform .now
      match verified.filter fun result => admissibleResult tolerance p msg result now with
      | none => return 422
      | some _ => forward (.publishResultAndAcknowledge msg body)

def admissibleExpiry (p : Pool) (msg : Delivery) (ack : ExpiredAcknowledgement) (now : Time) :
    Bool :=
  ack.schemaVersion == msg.attributes.schemaVersion &&
    !decide (ack.schemaVersion < p.schemaMin) && !decide (p.schemaMax < ack.schemaVersion) &&
    ack.jobId == msg.attributes.jobId && ack.snapshotHash == msg.attributes.snapshotHash &&
    ack.workerPoolId == p.id && ack.resultKeyId == p.resultKeyId &&
    !decide (now < msg.attributes.expiresAt - tolerance) &&
    !decide (ack.expiredAt < msg.attributes.expiresAt - tolerance) &&
    !decide (now + tolerance < ack.expiredAt)

/-- A body that does not decode is answered with nothing, which is a success. -/
def expired (request : HttpRequest) : Script Op Nat := do
  match ← action L pools tolerance request with
  | .error status => return status
  | .ok (p, msg, asked) =>
    match asked.body with
    | none => return 200
    | some body =>
      let verified := L.verifyExpired body p.resultPublic
      let now ← perform .now
      match verified.filter fun ack => admissibleExpiry tolerance p msg ack now with
      | none => return 422
      | some _ => forward (.acknowledgeExpired msg body)

def extend (request : HttpRequest) : Script Op Nat := do
  match ← action L pools tolerance request with
  | .error status => return status
  | .ok (_, msg, asked) =>
    if asked.seconds < 1 ∨ 90 < asked.seconds then return 422
    forward (.extend msg (asked.seconds * second))

/-- The delivery with its lease. -/
def leased (p : Pool) (msg : Delivery) : Script Op (Nat × Option Delivery) := do
  let now ← perform .now
  match ← perform .nonce with
  | none => return (500, none)
  | some nonce =>
    let token := L.sealToken nonce
      { poolId := p.id, receipt := msg.leaseToken, jobId := msg.attributes.jobId
        snapshotHash := msg.attributes.snapshotHash
        schemaVersion := msg.attributes.schemaVersion, expiresAt := msg.attributes.expiresAt
        leaseExpiresAt := now + 2 * minute }
    return (200, some { msg with leaseToken := token })

def pull (request : HttpRequest) : Script Op (Nat × Option Delivery) := do
  match ← pool pools request with
  | none => return (401, none)
  | some p =>
    if !(← perform (.acquire p 0 true false)) then return (429, none)
    let answer ← perform .pull
    perform (.recordDependency (match answer with | .failed => false | _ => true))
    let response ← match answer with
      | .noMessage => pure (204, none)
      | .failed => pure (503, none)
      | .message msg => leased L p msg
    perform (.releasePull p.id)
    return response

/-! ## The transport -/

/-- `HTTPS.call`: an answer that is no error. -/
def success (status : Nat) : Bool := decide (200 ≤ status ∧ status < 300)

end WatchTrace.Model.QueueGateway
