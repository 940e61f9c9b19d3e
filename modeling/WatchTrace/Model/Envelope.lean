import WatchTrace.Model.Schema

/-!
# The worker envelope

The messages the platform and its workers exchange, and the checks a result
passes before anything believes it. Encoding and cryptography are parameters:
a `Primitives` says what strict CBOR decoding makes of a byte string, which
signatures a key accepts, and what the header keyring opens. Everything the
code itself compares is spelled out.
-/

namespace WatchTrace.Model

/-- `envelope.Attributes`, the unsigned companion of a message. -/
structure Attributes where
  schemaVersion : Int
  jobId : IdText
  workerPoolId : String
  snapshotHash : String
  expiresAt : Time
  resultId : IdText
  resultKeyId : String
  platformKeyId : String
  workerEncryptionKeyId : String

/-- `envelope.Result`. -/
structure Result where
  schemaVersion : Int
  resultId : IdText
  jobId : IdText
  snapshotHash : String
  workerPoolId : String
  workerId : String
  attemptId : IdText
  scheduledAt : Time
  startedAt : Time
  completedAt : Time
  succeeded : Bool
  statusCode : Option Int
  errorCategory : Option String
  dnsMicros : Option Int
  connectMicros : Option Int
  tlsMicros : Option Int
  firstByteMicros : Option Int
  totalMicros : Int
  resultKeyId : String

structure SignedResult where
  result : Result
  signature : Bytes

structure RequestLimits where
  maxResponseBytes : Int
  maxHeaderBytes : Int
  maxRedirects : Int

/-- `envelope.Job`. -/
structure Job where
  schemaVersion : Int
  jobId : Uuid
  jobType : JobType
  workerPoolId : String
  networkPolicyVersion : Int
  scheduledAt : Time
  expiresAt : Time
  targetUrl : String
  method : String
  timeoutSeconds : Int
  expectedStatusMin : Int
  expectedStatusMax : Int
  headers : List (String × String)
  limits : RequestLimits
  platformKeyId : String
  workerEncryptionKeyId : String

/-- What the code takes from libraries. `verify key result signature` is
`ed25519.Verify` over the domain-separated canonical encoding of the result. -/
structure Primitives where
  unmarshalResult : Bytes → Option SignedResult
  verify : Bytes → Result → Bytes → Bool
  decryptHeaders : Option Bytes → Int → Option (List (String × String))
  base64 : Bytes → Bytes

def previousSchemaVersion : Int := 1

def schemaVersion : Int := 2

def maxMessageBytes : Nat := 64 * 1024

def publicKeySize : Nat := 32

def signatureSize : Nat := 64

/-- The zero value of `time.Time`, the start of year 1. -/
def zeroTime : Time := -62135596800 * second

def supportsSchema (version : Int) : Bool :=
  version == previousSchemaVersion || version == schemaVersion

def validateResult (r : Result) : Bool :=
  supportsSchema r.schemaVersion && !r.resultId.isEmpty && !r.jobId.isEmpty &&
    r.snapshotHash.utf8ByteSize == 64 && r.workerPoolId != "" &&
    r.workerId != "" && !r.attemptId.isEmpty && r.resultKeyId != "" &&
    r.scheduledAt != zeroTime && r.startedAt != zeroTime &&
    !decide (r.completedAt < r.startedAt) && !decide (r.totalMicros < 0) &&
    (match r.statusCode with
      | none => true
      | some code => !decide (code < 100) && !decide (599 < code)) &&
    !(!r.succeeded && r.errorCategory.isNone) &&
    !(r.succeeded && (r.statusCode.isNone || r.errorCategory.isSome))

def validateJob (job : Job) (now : Time) (requireFuture : Bool) : Bool :=
  supportsSchema job.schemaVersion && job.workerPoolId != "" &&
    !decide (job.networkPolicyVersion < 1) && job.platformKeyId != "" &&
    job.workerEncryptionKeyId != "" &&
    (job.method == "GET" || job.method == "HEAD") &&
    decide (1 ≤ job.timeoutSeconds ∧ job.timeoutSeconds ≤ 10) &&
    !decide (job.expectedStatusMin < 100) &&
    !decide (599 < job.expectedStatusMax) &&
    !decide (job.expectedStatusMax < job.expectedStatusMin) &&
    job.targetUrl.utf8ByteSize != 0 &&
    decide (job.targetUrl.utf8ByteSize ≤ 2048) &&
    job.scheduledAt != zeroTime && !decide (job.expiresAt < job.scheduledAt) &&
    !decide (2 * minute < job.expiresAt - job.scheduledAt) &&
    decide (1 ≤ job.limits.maxResponseBytes ∧ job.limits.maxResponseBytes ≤ 1024 * 1024) &&
    decide (1 ≤ job.limits.maxHeaderBytes ∧ job.limits.maxHeaderBytes ≤ 64 * 1024) &&
    decide (0 ≤ job.limits.maxRedirects ∧ job.limits.maxRedirects ≤ 5) &&
    decide (job.headers.length ≤ 32) &&
    !(requireFuture && decide (job.expiresAt < now))

variable (P : Primitives)

def peekResult (data : Bytes) : Option Result :=
  if data.length == 0 || decide (maxMessageBytes < data.length) then none
  else
    match P.unmarshalResult data with
    | none => none
    | some signed => if validateResult signed.result then some signed.result else none

def verifyResult (data key : Bytes) : Option Result :=
  match peekResult P data with
  | none => none
  | some result =>
    if key.length != publicKeySize then none
    else
      match P.unmarshalResult data with
      | none => none
      | some signed =>
        if signed.signature.length != signatureSize then none
        else if P.verify key signed.result signed.signature then some result
        else none

variable {P}

/-- A result that verifies is the one a peek shows. -/
theorem peekResult_of_verifyResult {data key : Bytes} {r : Result}
    (h : verifyResult P data key = some r) : peekResult P data = some r := by
  unfold verifyResult at h
  split at h
  · cases h
  next result hpeek =>
  split at h
  · cases h
  split at h
  · cases h
  split at h
  · cases h
  · split at h
    · rw [hpeek]; exact h
    · cases h

/-! ## Domain separation -/

/-- A `uint32`, the most significant byte first. -/
def lengthBytes (length : UInt32) : Bytes :=
  [(length >>> 24).toUInt8, (length >>> 16).toUInt8, (length >>> 8).toUInt8, length.toUInt8]

def appendDomain (domain : Bytes) (parts : List Bytes) : Bytes :=
  domain ++ 0 :: parts.flatMap fun part => lengthBytes (UInt32.ofNat part.length) ++ part

def domainBytes (domain : String) : Bytes := domain.toUTF8.data.toList

/-- What `SealJob` signs, for the encoded attributes and job. -/
def jobSignatureInput (aad plain : Bytes) : Bytes :=
  appendDomain (domainBytes "watchtrace-job-signature") [aad, plain]

/-- What `SignResult` signs, for the encoded result. -/
def resultSignatureInput (raw : Bytes) : Bytes :=
  appendDomain (domainBytes "watchtrace-result-signature") [raw]

/-- What `SignExpired` signs, for the encoded acknowledgement. -/
def expiredSignatureInput (raw : Bytes) : Bytes :=
  appendDomain (domainBytes "watchtrace-expired-signature") [raw]

end WatchTrace.Model
