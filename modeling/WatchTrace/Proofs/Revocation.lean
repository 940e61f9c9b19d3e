import WatchTrace.Proofs.Lifecycle
import WatchTrace.Proofs.Outbox

/-!
# Results signed with a revoked key

Revoking a pool revokes its credentials, and neither the consumer nor the
recovery command looks at a revoked one. Both have a second place to look: the
key in the pool's own row, which nothing ever takes away. The consumer uses it
if the result names the key id of that row, the recovery command in any case.
`Register` puts the same key in both places, so the key of an ordinary pool
goes on being trusted after its revocation.

Where the pool's row carries another key, the law holds: from the state in
which the job is locked, or the verification is read, nothing more comes of the
call.
-/

namespace WatchTrace.Proofs

open Tx Model Spec

/-- A signature is good for one key only, which is what Ed25519 is for. -/
def OneKey (P : Primitives) : Prop :=
  ∀ key key' result signature, P.verify key result signature = true →
    P.verify key' result signature = true → key = key'

/-- The signed bytes verify with the key. -/
def Signed (P : Primitives) (body key : Bytes) : Prop :=
  (verifyResult P body key).isSome = true

instance (P : Primitives) (body key : Bytes) : Decidable (Signed P body key) :=
  inferInstanceAs (Decidable (_ = true))

/-- The key of a signing credential of the pool that is revoked. -/
def RevokedKey (c : Core) (id : String) (key : Bytes) : Prop :=
  ∃ k ∈ credentialsOf c id, k.purpose = .resultSigning ∧ k.status = .revoked ∧
    k.publicMaterial = some key

/-- Nothing more comes of the call: no statement, no transaction, and nothing
that the outside would notice. -/
def Spent {α : Type} : Prog α → Prop
  | .ret _ => True
  | .rollback k => Spent k
  | .call c k => (∀ i r w, remote.observe i c r w = w) ∧ ∀ r, Spent (k r)
  | .start _ => False
  | .query _ _ => False
  | .commit _ => False

variable {P : Primitives}

/-! ## Keys -/

variable {data : Bytes}

variable {key : Bytes}

theorem verifyResult_some {r : Result} (h : verifyResult P data key = some r) :
    key.length = publicKeySize ∧ ∃ signed, P.unmarshalResult data = some signed ∧
      P.verify key signed.result signed.signature = true := by
  unfold verifyResult at h
  split at h
  · cases h
  split at h
  · cases h
  next hlen =>
  split at h
  · cases h
  next signed hsigned =>
  split at h
  · cases h
  split at h
  · next hverify =>
    exact ⟨by simpa using hlen, signed, hsigned, hverify⟩
  · cases h

theorem verifyResult_other (hP : OneKey P) {key' : Bytes} (h : Signed P data key)
    (hne : key' ≠ key) : verifyResult P data key' = none := by
  obtain ⟨r, hr⟩ := Option.isSome_iff_exists.mp h
  cases hr' : verifyResult P data key' with
  | none => rfl
  | some r' =>
  obtain ⟨-, signed, hsigned, hverify⟩ := verifyResult_some hr
  obtain ⟨-, signed', hsigned', hverify'⟩ := verifyResult_some hr'
  rw [hsigned] at hsigned'
  cases hsigned'
  exact absurd (hP _ _ _ _ hverify' hverify) hne

/-- The missing key verifies nothing. -/
theorem verifyResult_nil (data : Bytes) : verifyResult P data [] = none := by
  cases h : verifyResult P data [] with
  | none => rfl
  | some r => exact absurd (verifyResult_some h).1 (by decide)

variable {resultKeyId : String}

/-- A pool that is sealed has no signing credential. -/
theorem signingCredential_none {c : Core} {id : String} {pool : WorkerPool} (h : Safe id c)
    (hpool : c.pools.find id = some pool) (hrev : revokes pool.lifecycleState = true) :
    signingCredential c id resultKeyId = none := by
  have hnone : c.credentials.filter (fun k => k.workerPoolId == id &&
      k.purpose == .resultSigning && k.keyId == resultKeyId &&
      (k.status == .active || k.status == .retired)) = [] := by
    rw [List.filter_eq_nil_iff]
    intro k hk hcond
    simp only [Bool.and_eq_true, Bool.or_eq_true, beq_iff_eq] at hcond
    have hstatus := h pool hpool hrev k (mem_credentialsOf.mpr ⟨hk, hcond.1.1.1⟩)
    rw [hstatus] at hcond
    simp at hcond
  unfold signingCredential
  rw [hnone]
  rfl

/-! ## The two look-ups -/

variable {begun : Env}

variable {job : LockedJob}

/-- The job of a locked result, with the key its signature is checked with. -/
theorem lockResultCheckJob_key {jobId : IdText} {env : Env} {busy : Key → Bool} {db : Database}
    {e : Effect Database Key (Option LockedJob)} (hv : e.value = some job)
    (h : lockResultCheckJob resultKeyId jobId begun env busy db = some e) :
    ∃ pool, db.core.pools.find job.row.workerPoolId = some pool ∧ job.resultPublicKey =
        (resultPublicKey db.core job.row.workerPoolId pool resultKeyId).getD [] := by
  unfold lockResultCheckJob at h
  split at h
  · cases h
  split at h
  · cases h
    cases hv
  split at h
  · cases h
    cases hv
  next pool hpool =>
  cases h
  cases hv
  exact ⟨pool, hpool, rfl⟩

section Sealed

variable {c : Core} {id : String} {pool : WorkerPool} {key : Bytes}

/-- What the consumer makes of a result signed with a key that is not the one
in the pool's row under the id the result names. -/
theorem resultPublicKey_refuses (hP : OneKey P) (h : Safe id c)
    (hpool : c.pools.find id = some pool) (hrev : revokes pool.lifecycleState = true)
    (hsigned : Signed P data key)
    (hother : ¬(pool.resultKeyId = some resultKeyId ∧ pool.resultPublicKey = some key)) :
    verifyResult P data ((resultPublicKey c id pool resultKeyId).getD []) = none := by
  unfold resultPublicKey
  rw [signingCredential_none h hpool hrev]
  dsimp only
  split
  · next hid =>
    cases hown : pool.resultPublicKey with
    | none => exact verifyResult_nil data
    | some own =>
    refine verifyResult_other hP hsigned fun hkey => hother ⟨hid, ?_⟩
    rw [hown]
    exact congrArg some hkey
  · exact verifyResult_nil data

/-- What the recovery command makes of it. -/
theorem recoveryPublicKey_refuses (hP : OneKey P) (h : Safe id c)
    (hpool : c.pools.find id = some pool) (hrev : revokes pool.lifecycleState = true)
    (hsigned : Signed P data key) (hother : pool.resultPublicKey ≠ some key) :
    verifyResult P data ((recoveryPublicKey c id pool resultKeyId).getD []) = none := by
  unfold recoveryPublicKey
  rw [signingCredential_none h hpool hrev]
  dsimp only
  cases hown : pool.resultPublicKey with
  | none => exact verifyResult_nil data
  | some own =>
  refine verifyResult_other hP hsigned fun hkey => hother ?_
  rw [hown]
  exact congrArg some hkey

end Sealed

/-! ## The calls -/

/-- A consumer that has begun its transaction for a delivery: its next step is
the lock on the job. -/
def locking (P : Primitives) (d : ResultDelivery) (peeked : Result) (begun : Env) :
    Process Database Key Env Call :=
  ⟨(consumeDelivery P d peeked >>= fun _ => pure ()).begun, .active (.fresh begun)⟩

/-- A recovery that has opened its record: its next step reads the key to verify
the result with. -/
def verifying (P : Primitives) (queueUrl : String) (id : Uuid) (execute : Bool)
    (approver reason : String) (r : RecoveredResult) (begun : Env) :
    Process Database Key Env Call :=
  ⟨(verifyAndRedrive P queueUrl id execute approver reason r >>=
    fun _ => pure ()).begun, .active (.fresh begun)⟩

variable {d : ResultDelivery} {peeked : Result}

section Calls

variable {s s' : System} {i : Nat} {env : Env} {fate : Fate}
variable {id : String} {pool : WorkerPool} {key : Bytes}

/-- The verification fails where the signature does, and where the result is of
another pool than the job. -/
theorem verifiedFor_refused (hpeek : peekDelivery P d = some peeked)
    (h : peeked.workerPoolId = job.row.workerPoolId →
      verifyResult P d.body job.resultPublicKey = none) (now : Time) :
    verifiedFor P job d now = none := by
  unfold verifiedFor
  split
  · rfl
  next result hresult =>
  have hbody := peekResult_of_verifyResult hresult
  rw [peekResult_of_peekDelivery hpeek] at hbody
  cases hbody
  refine if_neg fun hagree => ?_
  rw [h hagree.1] at hresult
  cases hresult

theorem locking_refuses (hP : OneKey P) (hsafe : Safe id s.db.core)
    (hpool : s.db.core.pools.find id = some pool) (hrev : revokes pool.lifecycleState = true)
    (hstep : s.step remote (.step i env fate) = some s')
    (hi : s.procs[i]? = some (locking P d peeked begun))
    (hpeek : peekDelivery P d = some peeked) (hid : peeked.workerPoolId = id)
    (hsigned : Signed P d.body key) (hother : ¬(pool.resultKeyId = some peeked.resultKeyId ∧
      pool.resultPublicKey = some key)) :
    ∃ rest ses, s'.procs[i]? = some ⟨rest, ses⟩ ∧ Spent rest := by
  obtain ⟨r, ses, hproc, hr⟩ := Sys.step_query hi hstep
  refine ⟨_, ses, hproc, ?_⟩
  rcases hr with ⟨f, rfl⟩ | ⟨e, he, rfl⟩
  · trivial
  cases hv : e.value with
  | none => trivial
  | some job =>
  refine ⟨fun _ _ _ => rfl, fun now => ?_⟩
  have hnone : verifiedFor P job d now = none := by
    refine verifiedFor_refused hpeek (fun hjob => ?_) now
    obtain ⟨pool', hpool', hkey⟩ := lockResultCheckJob_key hv he
    rw [← hjob, hid] at hpool' hkey
    have hsame : pool' = pool := Option.some.inj (hpool'.symm.trans hpool)
    rw [hkey, hsame]
    exact resultPublicKey_refuses hP hsafe hpool hrev hsigned hother
  simp [Prog.bind, rollback, Spent, hnone]

theorem verifying_refuses (hP : OneKey P) (hsafe : Safe id s.db.core)
    (hpool : s.db.core.pools.find id = some pool) (hrev : revokes pool.lifecycleState = true)
    (hstep : s.step remote (.step i env fate) = some s') {queueUrl : String} {recordId : Uuid}
    {execute : Bool} {approver reason : String} {r : RecoveredResult} (hi : s.procs[i]? =
      some (verifying P queueUrl recordId execute approver reason r begun))
    (hid : r.workerPoolId = id) (hsigned : Signed P r.plain key)
    (hother : pool.resultPublicKey ≠ some key) :
    ∃ rest ses, s'.procs[i]? = some ⟨rest, ses⟩ ∧ Spent rest := by
  obtain ⟨v, ses, hproc, hr⟩ := Sys.step_query hi hstep
  refine ⟨_, ses, hproc, ?_⟩
  rcases hr with ⟨f, rfl⟩ | ⟨e, he, rfl⟩
  · trivial
  cases hv : e.value with
  | none => trivial
  | some found =>
  have hnone : verifyResult P r.plain (found.1.getD []) = none := by
    cases he
    dsimp only at hv
    split at hv
    · cases hv
    split at hv
    · next job _ hjob =>
      rw [hjob, hid] at hv
      rw [show (Open.fresh begun : Transaction).write s.db = s.db from rfl, hpool] at hv
      cases hv
      exact recoveryPublicKey_refuses hP hsafe hpool hrev hsigned hother
    · cases hv
  obtain ⟨key', state⟩ := found
  dsimp only at hnone
  simp [Prog.bind, rollback, Spent, hnone]

end Calls

/-! ## The law, and where it fails -/

namespace Sample

def signingKey : Bytes := List.replicate 32 1

/-- The signature of every result is good for one key. -/
def signed : Primitives :=
  { primitives with verify := fun key _ _ => key == signingKey }

theorem oneKey_signed : OneKey signed := by
  intro key key' result signature h h'
  have hk : key = signingKey := by simpa [signed] using h
  have hk' : key' = signingKey := by simpa [signed] using h'
  rw [hk, hk']

/-- The credential with the key is revoked; the pool's row has another key. -/
def rotated : Core :=
  { core with
    pools := Table.empty.put "pool" { pool with
      enabled := false, lifecycleState := .revoked
      resultPublicKey := some (List.replicate 32 2) }
    credentials := [{
      workerPoolId := "pool", purpose := .resultSigning, keyId := "key"
      publicMaterial := some signingKey, status := .revoked, activatesAt := 0 }] }

theorem sealed_rotated : Sealed rotated := by
  intro id pool _ _ k hk
  have hmem := (mem_credentialsOf.mp hk).1
  simp only [rotated, List.mem_singleton] at hmem
  rw [hmem]

/-- A consumer at the step that decides. -/
def deciding : System :=
  { db := ⟨Ledger.empty, rotated, Journal.empty⟩
    world := { World.empty with
      pulled := fun j => if j = 0 then some (delivery 21) else none }
    procs := [locking signed (delivery 21) (result 21) (moment 62 13 21)] }

def registration : Registration :=
  { id := "pool", mode := .hosted, jobQueueUrl := "queue", jobQueueArn := "arn"
    jobDlqUrl := "dlq", jobDlqArn := "dlq-arn", encryptionKeyId := "box"
    resultKeyId := "key", encryptionPublic := List.replicate 32 0
    resultPublic := signingKey, schemaMin := 1, schemaMax := 2
    mtlsFingerprint := "", mtlsNotAfter := zeroTime }

def record : QuarantineRow :=
  { id := 31, queueKind := .result, jobId := some 11, resultId := some 21
    workerPoolId := some "pool", snapshotHash := some snapshotHash
    safeReason := "result DLQ recovery"
    encryptedPayload :=
      { nonce := 0, plain := [21], associated := ("result:", some (.canonical 21)) }
    expiresAt := 14 * day }

/-- One call after the other. -/
def after {α : Type} (p : Prog α) (seconds : Int) (db : Database) : Database :=
  (p.solo remote 0 (fun _ => moment seconds 11 21) 0 .idle db World.empty).2.1

/-- The pool is registered and activated, its monitor is scheduled, a result is
quarantined, and then the pool is revoked. -/
def revokedPool : Database :=
  let configured : Database :=
    ⟨Ledger.empty, { core with pools := .empty }, Journal.empty⟩
  let active := after (activate "pool" (List.replicate 32 0) true "operator" "go")
    51 (after (register (fun _ => "print") registration "operator" "new") 50 configured)
  let scheduled := after (scheduleDue signed "platform" 1) 60 active
  let quarantined := { scheduled with ledger := { scheduled.ledger with
    quarantine := scheduled.ledger.quarantine.add record } }
  after (transition "pool" .revoked "operator" "leaked") 61 quarantined

end Sample

open Sample

end WatchTrace.Proofs
