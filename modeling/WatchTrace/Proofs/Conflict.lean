import WatchTrace.Tx.Serial
import WatchTrace.Proofs.Outbox

/-!
# Conflicting results

A second result of a job that verifies, but is not the accepted one, is put on
record twice: in `check_result_conflicts` and in `monitoring_quarantine`. The
first insert tolerates a row that is already there, the second does not. Both
answers are dropped, but a statement that fails leaves a transaction in which
nothing works any more, the commit included.

This file follows `ConsumeNext` through that branch, alone on any rows.
-/

namespace WatchTrace.Proofs

open Tx Tx.Prog Model Spec

variable {P : Primitives} {i : Nat} {env : Nat → Env} {db : Database} {w : World}
variable {d : ResultDelivery} {seen result : Result} {job : LockedJob}
variable {row : HealthCheck}

/-- The call pulls `d`, finds its job with another result accepted, and nothing
outside the database fails on the way. -/
structure Conflicting (P : Primitives) (env : Nat → Env) (db : Database)
    (d : ResultDelivery) (seen : Result) (job : LockedJob) (row : HealthCheck)
    (result : Result) : Prop where
  pulled : (env 3).result = .message d
  peeked : peekDelivery P d = some seen
  locked : ∃ e, lockResultCheckJob seen.resultKeyId seen.jobId (env 4) (env 5)
    (fun _ => false) db = some e ∧ e.value = some job
  verified : verifiedFor P job d (env 6).wall = some result
  accepted : db.ledger.checks.find job.id = some row
  other : row.sameIdentity result = false
  nonce : (env 8).nonce.isSome = true
  acknowledges : (env 13).acknowledged = true

/-- The call has committed and acknowledged the delivery, and there is exactly
one row for its result in both tables. -/
structure Recorded (d : ResultDelivery) (result : Result) (w : World)
    (out : (Bool × Option Failure) × Database × World) : Prop where
  answer : out.1 = (true, none)
  acknowledged : out.2.2.acknowledged = w.acknowledged ++ [d]
  rows : ∃ id, result.resultId.toUuid? = some id ∧ (out.2.1.ledger.conflicts.under id).length = 1 ∧
    (out.2.1.ledger.quarantine.under id).length = 1

/-! ## Up to the branch -/

/-- A delivery of the queue that passes the first check. -/
theorem consumeNext_pulled (hpulled : (env 3).result = .message d)
    (hpeek : peekDelivery P d = some seen) :
    (consumeNext P).solo remote i env 0 .idle db w =
      (consumeDelivery P d seen).solo remote i env 4 .idle db
        (remote.observe i .pullResult (.message d) w) := by
  show (Tx.call .pullResult >>= _).solo remote i env 3 .idle db w = _
  rw [solo_call, show remote.answer (env 3) .pullResult = .message d from hpulled]
  dsimp only
  rw [hpeek]

/-- The transaction as the branch finds it: begun, and nothing written. -/
theorem Conflicting.reaches (h : Conflicting P env db d seen job row result) :
    ∃ o : Open Database Key Env, o.write db = db ∧ (consumeNext P).solo remote i env 0 .idle db w =
        (recordConflict d job result).solo remote i env 8 (.active o) db
          (remote.observe i .pullResult (.message d) w) := by
  obtain ⟨e, he, hvalue⟩ := h.locked
  have hsame : ((Open.fresh (env 4)).extend e : Open Database Key Env).write db = db := by
    show e.write db = db
    rw [(lockResultCheckJob_some he).1]
    rfl
  have hread : getAcceptedHealthCheck job.id ((Open.fresh (env 4)).extend e).begun (env 7)
      (fun _ => false) (((Open.fresh (env 4)).extend e).write db) =
        some (ledgerEffect { value := some row }) := by
    rw [hsame, ← h.accepted]
    rfl
  refine ⟨((Open.fresh (env 4)).extend e).extend (ledgerEffect { value := some row }), hsame, ?_⟩
  · rw [consumeNext_pulled h.pulled h.peeked]
    show (Tx.query (lockResultCheckJob seen.resultKeyId seen.jobId) >>= _).solo remote i
      env 5 (.active (.fresh (env 4))) db _ = _
    rw [solo_query he, hvalue]
    show (Tx.call .now >>= _).solo remote i env 6 _ db _ = _
    rw [solo_call]
    erw [h.verified]
    show (Tx.query (getAcceptedHealthCheck job.id) >>= _).solo remote i env 7
      (.active ((Open.fresh (env 4)).extend e)) db _ = _
    rw [solo_query hread]
    show (if row.sameIdentity result = true then _ else recordConflict d job result).solo
      remote i env 8 _ db _ = _
    rw [h.other]
    rfl

/-! ## Inside the branch -/

variable {t : IdText} {id : Uuid}

theorem octets_le (h : t.toUuid? = some id) : t.octets ≤ 41 := by
  cases t with
  | canonical u => exact (by decide : 36 ≤ 41)
  | spelled u text => exact min_le_right _ _
  | foreign text => cases h

/-- A delivery that was peeked at is not empty and not too long. -/
theorem length_of_peek (h : peekDelivery P d = some seen) :
    d.body.length ≠ 0 ∧ d.body.length ≤ 64 * 1024 := by
  have hpeek := peekResult_of_peekDelivery h
  unfold peekResult at hpeek
  split at hpeek
  · cases hpeek
  · next hsize =>
    simp only [Bool.or_eq_true, beq_iff_eq, decide_eq_true_eq, not_or, not_lt] at hsize
    exact hsize

/-- What the branch does with the sealed payload. -/
def fileConflict (d : ResultDelivery) (job : LockedJob) (result : Result)
    (payload : SealedPayload) : Prog (Bool × Option Failure) := do
  let _ ← query (insertResultConflict job.id result.resultId job.row.workerPoolId
    job.row.snapshotHash payload)
  let _ ← query (insertConflictingResultQuarantine job.id result.resultId
    job.row.workerPoolId job.row.snapshotHash payload)
  let _ ← query (insertMonitoringOperationalEvent .resultConflict result.jobId
    job.row.workerPoolId "conflicting valid result")
  commitAndAcknowledge d

variable {o : Open Database Key Env} {payload : SealedPayload}

variable {plain : Bytes}

theorem sealPayload_of_fits (hsize : plain.length ≠ 0 ∧ plain.length ≤ 64 * 1024)
    (ht : 7 + t.octets ≤ 1024) :
    sealPayload plain ("result:", some t) = (do
      let drawn ← call .nonce
      match drawn with
      | none => return .error .service
      | some nonce => return .ok ⟨nonce, plain, ("result:", some t)⟩) := by
  refine if_neg ?_
  have hlabel : "result:".utf8ByteSize = 7 := by decide
  simp only [hlabel, Bool.or_eq_true, beq_iff_eq, decide_eq_true_eq]
  omega

theorem sealPayload_of_long (ht : ¬ 7 + t.octets ≤ 1024) :
    sealPayload plain ("result:", some t) = return .error errQuarantinePayload := by
  refine if_pos ?_
  have hlabel : "result:".utf8ByteSize = 7 := by decide
  simp only [hlabel, Bool.or_eq_true, beq_iff_eq, decide_eq_true_eq]
  omega

/-- From the sealed payload on. -/
theorem recordConflict_fits {nonce : Nat} (hsize : d.body.length ≠ 0 ∧ d.body.length ≤ 64 * 1024)
    (ht : 7 + result.resultId.octets ≤ 1024) (hnonce : (env 8).nonce = some nonce) :
    (recordConflict d job result).solo remote i env 8 (.active o) db w =
      (fileConflict d job result ⟨nonce, d.body, ("result:", some result.resultId)⟩).solo
        remote i env 9 (.active o) db w := by
  unfold recordConflict
  rw [sealPayload_of_fits hsize ht]
  show (Tx.call .nonce >>= _).solo remote i env 8 (.active o) db w = _
  rw [solo_call, show remote.answer (env 8) .nonce = some nonce from hnonce]
  rfl

/-- Once a statement has failed, the call ends with an error. -/
theorem fileConflict_failed {n : Nat} :
    (do let _ ← query (insertMonitoringOperationalEvent .resultConflict result.jobId
          job.row.workerPoolId "conflicting valid result")
        commitAndAcknowledge d : Prog (Bool × Option Failure)).solo remote i env n
      .failed db w = ((true, some .database), db, w) := rfl

/-- The first insert: a row for the result is there afterwards, and the
quarantine is as it was. -/
theorem insertResultConflict_answers (j : Uuid) (pool hash : String) (payload : SealedPayload)
    (begun env : Env) (v : Database) (hid : result.resultId.toUuid? = some id) :
    ∃ e, insertResultConflict j result.resultId pool hash payload begun env
        (fun _ => false) v = some e ∧
      (e.write v).ledger.conflicts.holds id = true ∧
      (e.write v).ledger.quarantine = v.ledger.quarantine := by
  have hsome : (insertResultConflict j result.resultId pool hash payload begun env
      (fun _ => false) v).isSome = true := by
    simp only [insertResultConflict, onLedger, Stmt.zoom, hid]
    split <;> rfl
  obtain ⟨e, he⟩ := Option.isSome_iff_exists.mp hsome
  obtain ⟨id', hid', hrow⟩ := insertResultConflict_some he
  rw [hid] at hid'
  cases hid'
  refine ⟨e, he, ?_⟩
  rcases hrow with ⟨hheld, hsame⟩ | ⟨-, -, c, -, hc, -, hwrite⟩
  · rw [hsame]
    exact ⟨hheld, rfl⟩
  · rw [hwrite]
    exact ⟨Indexed.holds_add (by rw [← hc]), rfl⟩

variable {v : Database}

/-- The second insert is refused when the result is in quarantine already. -/
theorem insertConflictingResultQuarantine_refused (j : Uuid) (pool hash : String)
    (payload : SealedPayload) (begun env : Env) (hid : result.resultId.toUuid? = some id)
    (hheld : v.ledger.quarantine.holds id = true) :
    insertConflictingResultQuarantine j result.resultId pool hash payload begun env
      (fun _ => false) v = none := by
  simp only [insertConflictingResultQuarantine, onLedger, Stmt.zoom, hid, hheld, if_true]
  rfl

theorem insertConflictingResultQuarantine_answers (j : Uuid) (pool hash : String)
    (payload : SealedPayload) (begun env : Env) (hid : result.resultId.toUuid? = some id)
    (hfree : v.ledger.quarantine.holds id = false) :
    ∃ e, insertConflictingResultQuarantine j result.resultId pool hash payload begun
        env (fun _ => false) v = some e ∧
      (e.write v).ledger.quarantine.holds id = true ∧
      (e.write v).ledger.conflicts = v.ledger.conflicts := by
  have hsome : (insertConflictingResultQuarantine j result.resultId pool hash payload
      begun env (fun _ => false) v).isSome = true := by
    simp only [insertConflictingResultQuarantine, onLedger, Stmt.zoom, hid, hfree]
    rfl
  obtain ⟨e, he⟩ := Option.isSome_iff_exists.mp hsome
  obtain ⟨-, q, hq, hwrite⟩ := insertConflictingResultQuarantine_some hid he
  refine ⟨e, he, ?_⟩
  rw [hwrite]
  exact ⟨Indexed.holds_add hq, rfl⟩

/-- The operational event, for a job id that is one. -/
theorem insertMonitoringOperationalEvent_answers (type : OperationalEventType)
    (pool text : String) (begun env : Env) (v : Database) {jobId : IdText} {j : Uuid}
    (hjob : jobId.toUuid? = some j) :
    ∃ e, insertMonitoringOperationalEvent type jobId pool text begun env
        (fun _ => false) v = some e ∧ (e.write v).ledger = v.ledger := by
  have hnullable : ∃ job, jobId.nullable? = some job := by
    unfold IdText.nullable?
    split
    · exact ⟨none, rfl⟩
    · rw [hjob]
      exact ⟨some j, rfl⟩
  obtain ⟨job, hnullable⟩ := hnullable
  have hsome : (insertMonitoringOperationalEvent type jobId pool text begun env
      (fun _ => false) v).isSome = true := by
    simp only [insertMonitoringOperationalEvent, onJournal, Stmt.zoom, hnullable]
    rfl
  obtain ⟨e, he⟩ := Option.isSome_iff_exists.mp hsome
  exact ⟨e, he, (insertMonitoringOperationalEvent_some he v).1⟩

/-! ## Both ways through -/

section Branch

variable {id j : Uuid}

/-- Not in quarantine yet: the call ends well. -/
theorem fileConflict_recorded (hid : result.resultId.toUuid? = some id)
    (hjob : result.jobId.toUuid? = some j) (hack : (env 13).acknowledged = true)
    (hfree : (o.write db).ledger.quarantine.holds id = false) :
    Recorded d result w ((fileConflict d job result payload).solo remote i env 9
      (.active o) db w) := by
  obtain ⟨e₁, he₁, hconflict, hsame⟩ := insertResultConflict_answers job.id
    job.row.workerPoolId job.row.snapshotHash payload o.begun (env 9) (o.write db) hid
  rw [← hsame] at hfree
  obtain ⟨e₂, he₂, hquarantine, hconflicts⟩ := insertConflictingResultQuarantine_answers
    job.id job.row.workerPoolId job.row.snapshotHash payload o.begun (env 10) hid hfree
  obtain ⟨e₃, he₃, hledger⟩ := insertMonitoringOperationalEvent_answers .resultConflict
    job.row.workerPoolId "conflicting valid result" o.begun (env 11)
    (e₂.write (e₁.write (o.write db))) hjob
  have hrun : (fileConflict d job result payload).solo remote i env 9 (.active o) db w =
      ((true, none), e₃.write (e₂.write (e₁.write (o.write db))),
        remote.observe i (.acknowledgeResult d) true w) := by
    unfold fileConflict
    rw [solo_query he₁]
    show (Tx.query _ >>= _).solo remote i env 10 (.active (o.extend e₁)) db w = _
    rw [solo_query (o := o.extend e₁) he₂]
    show (Tx.query _ >>= _).solo remote i env 11 (.active ((o.extend e₁).extend e₂)) db w = _
    rw [solo_query (o := (o.extend e₁).extend e₂) he₃]
    show (if (env 13).acknowledged = true then
        (return (true, none) : Prog (Bool × Option Failure))
      else return (true, some .service)).solo remote i env 14 .idle _
        (remote.observe i (.acknowledgeResult d) (env 13).acknowledged w) = _
    rw [hack]
    rfl
  rw [hrun]
  refine ⟨rfl, rfl, id, hid, ?_, ?_⟩
  · refine Indexed.length_under ?_
    rw [hledger, hconflicts]
    exact hconflict
  · refine Indexed.length_under ?_
    rw [hledger]
    exact hquarantine

/-- In quarantine already: the second insert fails, and with it the commit. -/
theorem fileConflict_refused (hid : result.resultId.toUuid? = some id)
    (hheld : (o.write db).ledger.quarantine.holds id = true) :
    (fileConflict d job result payload).solo remote i env 9 (.active o) db w =
      ((true, some .database), db, w) := by
  obtain ⟨e₁, he₁, -, hsame⟩ := insertResultConflict_answers job.id
    job.row.workerPoolId job.row.snapshotHash payload o.begun (env 9) (o.write db) hid
  rw [← hsame] at hheld
  have he₂ := insertConflictingResultQuarantine_refused job.id job.row.workerPoolId
    job.row.snapshotHash payload o.begun (env 10) hid hheld
  unfold fileConflict
  rw [solo_query he₁]
  show (Tx.query _ >>= _).solo remote i env 10 (.active (o.extend e₁)) db w = _
  rw [solo_query_refused (o := o.extend e₁) he₂]
  exact fileConflict_failed

/-- An id that is no uuid: the first insert fails. -/
theorem fileConflict_foreign (hid : result.resultId.toUuid? = none) :
    (fileConflict d job result payload).solo remote i env 9 (.active o) db w =
      ((true, some .database), db, w) := by
  have he₁ : insertResultConflict job.id result.resultId job.row.workerPoolId
      job.row.snapshotHash payload o.begun (env 9) (fun _ => false) (o.write db) = none := by
    simp only [insertResultConflict, onLedger, Stmt.zoom, hid]
    rfl
  unfold fileConflict
  rw [solo_query_refused he₁]
  rfl

end Branch

/-- Conflict handling, call by call: a delivery that reaches the conflict
branch is recorded once, committed and acknowledged, if and only if its result
has a uuid for an id and is not in quarantine already. -/
theorem conflict_recorded_iff (h : Conflicting P env db d seen job row result) :
    Recorded d result w ((consumeNext P).solo remote i env 0 .idle db w) ↔
      ∃ id, result.resultId.toUuid? = some id ∧
        db.ledger.quarantine.holds id = false := by
  obtain ⟨o, ho, hreach⟩ := h.reaches (i := i) (w := w)
  obtain ⟨nonce, hnonce⟩ := Option.isSome_iff_exists.mp h.nonce
  have hsize := length_of_peek h.peeked
  rw [hreach]
  generalize hw : remote.observe i Call.pullResult (.message d) w = w'
  have hacks : w'.acknowledged = w.acknowledged := by rw [← hw]; rfl
  constructor
  · intro hrec
    have hanswer := hrec.answer
    by_cases hlong : 7 + result.resultId.octets ≤ 1024
    · rw [recordConflict_fits hsize hlong hnonce] at hanswer
      cases hid : result.resultId.toUuid? with
      | none =>
        rw [fileConflict_foreign hid] at hanswer
        cases hanswer
      | some id =>
      refine ⟨id, rfl, ?_⟩
      rw [← Bool.not_eq_true]
      intro hheld
      rw [← ho] at hheld
      rw [fileConflict_refused hid hheld] at hanswer
      cases hanswer
    · unfold recordConflict at hanswer
      rw [sealPayload_of_long hlong] at hanswer
      cases hanswer
  · rintro ⟨id, hid, hfree⟩
    have hfits : 7 + result.resultId.octets ≤ 1024 := by
      have := octets_le hid
      omega
    have hjob : result.jobId.toUuid? = some job.id := by
      obtain ⟨e, he, hvalue⟩ := h.locked
      rw [(verifiedFor_some h.peeked h.verified).1]
      exact ((lockResultCheckJob_some he).2 job hvalue).1
    rw [recordConflict_fits hsize hfits hnonce]
    rw [← ho] at hfree
    have hrec : Recorded d result w' ((fileConflict d job result
        ⟨nonce, d.body, ("result:", some result.resultId)⟩).solo remote i env 9
        (.active o) db w') :=
      fileConflict_recorded hid hjob h.acknowledges hfree
    exact ⟨hrec.answer, hrec.acknowledged.trans (by rw [hacks]), hrec.rows⟩

namespace Sample

/-- The job is scheduled, and its result 21 is accepted. -/
def settled : Database :=
  let scheduled := (scheduleDue primitives "platform" 1).solo remote 0
    (fun _ => moment 60 11 21) 0 .idle ⟨Ledger.empty, core, Journal.empty⟩ World.empty
  ((consumeNext primitives).solo remote 0 (fun _ => moment 62 13 21) 0 .idle
    scheduled.2.1 World.empty).2.1

/-- Result 22 of the same job is delivered. -/
def dispute (db : Database) : (Bool × Option Failure) × Database × World :=
  (consumeNext primitives).solo remote 0 (fun _ => moment 63 13 22) 0 .idle db World.empty

end Sample

open Sample

/-- The first delivery of a conflicting result. -/
theorem conflict_recorded_iff_sample : ∃ seen job row result,
    Conflicting primitives (fun _ => moment 63 13 22) settled (delivery 22) seen job row result ∧
    Recorded (delivery 22) result World.empty (dispute settled) := by
  obtain ⟨seen, job, row, h⟩ : ∃ seen job row, Conflicting primitives
      (fun _ => moment 63 13 22) settled (delivery 22) seen job row
      (result 22) :=
    ⟨_, _, _, rfl, rfl, ⟨_, rfl, rfl⟩, rfl, rfl, by decide +kernel, rfl, rfl⟩
  refine ⟨seen, job, row, _, h, (conflict_recorded_iff h).mpr ⟨22, rfl, ?_⟩⟩
  decide +kernel

/-- The second delivery finds the result in quarantine: it is not committed and
not acknowledged, and so is every one after it. -/
theorem redelivered_conflict_fails : (dispute settled).1 = (true, none) ∧
    (dispute (dispute settled).2.1).1 = (true, some .database) ∧
    (dispute (dispute settled).2.1).2.2.acknowledged.length = 0 := by
  decide +kernel

end WatchTrace.Proofs
