import WatchTrace.Tx.Alone
import WatchTrace.Proofs.Outbox

/-!
# One batch of due monitors

`ScheduleDue` creates the jobs of a batch in one transaction, monitor by
monitor, and the first thing that is wrong with one of them ends the call: no
pool to send to, headers that do not decrypt, no common schema, a job that does
not seal. The transaction is then rolled back with the jobs of all the others,
and the next call meets the same monitors again, in the same order.

Here is what that comes to for a single monitor with which nothing is wrong: it
gets its job if and only if nothing is wrong with any other in the batch, and
there has never been a job for its slot.
-/

namespace WatchTrace.Proofs

open Tx Model Spec

variable {P : Primitives} {platformKeyId : String} {env : Nat → Env} {now : Time}
variable {m x : DueMonitor} {n : Nat} {w : World}

/-! ## The turn of a monitor -/

/-- The slot a job is created for: a due one that can no longer start in time is
given up for the present. -/
def startOf (m : DueMonitor) (now : Time) : Time :=
  if m.monitor.nextCheckAt + jobStartWindow < now then now else m.monitor.nextCheckAt

def slotOf (m : DueMonitor) (now : Time) : Uuid × Time := (m.id, startOf m now)

/-- What sealing comes to, if the clock is read at one moment and the message
sealed at another. -/
def sealedIn (P : Primitives) (job : Job) (queueUrl : String) (clockAt sealAt : Env) :
    Option DispatchPayload :=
  if !validateJob job clockAt.wall true then none
  else
    match sealAt.sealed with
    | none => none
    | some (body, hash) =>
      if body.length == 0 || decide (maxMessageBytes < body.length) then none
      else some (dispatchPayload P job queueUrl body hash)

/-- What the turn of a monitor puts into the outbox, if it passes every check on
the way there. -/
def turnPayload (P : Primitives) (platformKeyId : String) (now : Time) (m : DueMonitor)
    (jobId : Uuid) (clockAt sealAt : Env) : Option DispatchPayload :=
  match nextSchedule m.monitor.nextCheckAt now m.monitor.intervalSeconds,
    decryptHeaders P m.monitor.headersCiphertext m.monitor.headerKeyVersion,
    chosenSchema m.pool with
  | some _, some headers, some version =>
    if provisioned m.pool then
      sealedIn P (m.job platformKeyId version headers jobId (startOf m now))
        (m.pool.jobQueueUrl.getD "") clockAt sealAt
    else none
  | _, _, _ => none

/-- Nothing is wrong with the monitor: at whatever moment its turn comes, it gets
as far as a row the outbox admits. -/
def Schedulable (P : Primitives) (platformKeyId : String) (env : Nat → Env)
    (now : Time) (m : DueMonitor) : Prop :=
  ∀ n jobId, ∃ payload,
    turnPayload P platformKeyId now m jobId (env n) (env (n + 1)) = some payload ∧
      payload.admissible jobId = true

/-- Something is wrong with it, at whatever moment its turn comes. -/
def Unschedulable (P : Primitives) (platformKeyId : String) (env : Nat → Env)
    (now : Time) (m : DueMonitor) : Prop :=
  ∀ n jobId, turnPayload P platformKeyId now m jobId (env n) (env (n + 1)) = none

variable {jobId : Uuid} {payload : DispatchPayload}

theorem turnPayload_some {clockAt sealAt : Env}
    (h : turnPayload P platformKeyId now m jobId clockAt sealAt = some payload) :
    ∃ next headers version,
      nextSchedule m.monitor.nextCheckAt now m.monitor.intervalSeconds = some next ∧
      decryptHeaders P m.monitor.headersCiphertext m.monitor.headerKeyVersion = some headers ∧
      chosenSchema m.pool = some version ∧ provisioned m.pool = true ∧
      sealedIn P (m.job platformKeyId version headers jobId (startOf m now))
        (m.pool.jobQueueUrl.getD "") clockAt sealAt = some payload := by
  unfold turnPayload at h
  repeat' split at h
  all_goals try cases h
  exact ⟨_, _, _, ‹_›, ‹_›, ‹_›, ‹_›, h⟩

theorem sealedPayload_exec (env : Nat → Env) (n : Nat) (w : World) (job : Job)
    (queueUrl : String) (ses : Session Database Key Env) (db : Database) :
    ∃ n', n < n' ∧ (sealedPayload P job queueUrl).exec remote 0 env ⟨n, ses, db, w⟩ =
        (sealedIn P job queueUrl (env n) (env (n + 1)), ⟨n', ses, db, w⟩) := by
  have hclock : (clock : Prog Time).exec remote 0 env ⟨n, ses, db, w⟩ =
      ((env n).wall, ⟨n + 1, ses, db, w⟩) := rfl
  unfold sealedPayload sealJob sealedIn
  rw [Prog.exec_bind, Prog.exec_then hclock]
  by_cases hvalid : validateJob job (env n).wall true = true
  · have hseal : (call (Call.sealJob job) : Prog _).exec remote 0 env
        ⟨n + 1, ses, db, w⟩ = ((env (n + 1)).sealed, ⟨n + 2, ses, db, w⟩) := rfl
    simp only [hvalid, Bool.not_true, Bool.false_eq_true, if_false]
    rw [Prog.exec_then hseal]
    refine ⟨n + 2, by omega, ?_⟩
    cases (env (n + 1)).sealed with
    | none => rfl
    | some bodyHash =>
      dsimp only
      split_ifs <;> rfl
  · rw [Bool.not_eq_true] at hvalid
    simp only [hvalid, Bool.not_false, if_true]
    exact ⟨n + 1, by omega, rfl⟩

/-- Two views that agree on everything but coverage gaps. -/
structure Unmoved (v v' : Database) : Prop where
  core : v'.core = v.core
  jobs : v'.ledger.jobs = v.ledger.jobs
  outbox : v'.ledger.outbox = v.ledger.outbox

variable {v : Database}

theorem Unmoved.rfl : Unmoved v v := ⟨Eq.refl _, Eq.refl _, Eq.refl _⟩

/-- A coverage gap is recorded, or was already there. -/
theorem insertMonitoringCoverageGap_aside (key : GapKey)
    (organizationId environmentId : Uuid) (begun e : Env) (busy : Key → Bool)
    (v : Database) :
    ∃ f, insertMonitoringCoverageGap key organizationId environmentId begun e busy v =
      some f ∧ ∀ v', Unmoved v' (f.write v') := by
  cases hfind : v.ledger.gaps.find key
  all_goals
    simp only [insertMonitoringCoverageGap, onLedger, Tx.Stmt.zoom, hfind]
    exact ⟨_, rfl, fun _ => ⟨rfl, rfl, rfl⟩⟩

theorem recordMissed_exec (env : Nat → Env) (n : Nat) (w : World) (m : DueMonitor)
    (now : Time) (o : Open Database Key Env) (db : Database) :
    ∃ n' o', n ≤ n' ∧ o'.begun = o.begun ∧ Unmoved (o.write db) (o'.write db) ∧
      (recordMissed m now).exec remote 0 env ⟨n, .active o, db, w⟩ =
        (.ok (startOf m now), ⟨n', .active o', db, w⟩) := by
  unfold recordMissed startOf
  split
  · obtain ⟨e, he, haside⟩ := insertMonitoringCoverageGap_aside
      ⟨m.id, m.monitor.nextCheckAt, .missed⟩ m.monitor.organizationId
      m.monitor.environmentId o.begun (env n) (fun _ => false) (o.write db)
    refine ⟨n + 1, o.extend e, by omega, rfl, haside _, ?_⟩
    rw [Prog.exec_then (Prog.exec_query he)]
    rfl
  · exact ⟨n, o, Nat.le_refl _, rfl, .rfl, rfl⟩

/-! ## What a turn does -/

/-- The rows after the turn of a monitor, given those before it. A slot that is
taken gets no second job, but the monitor moves on all the same. -/
structure Turned (now : Time) (m : DueMonitor) (jobId : Uuid) (v v' : Database) :
    Prop where
  monitors : ∃ next, nextSchedule m.monitor.nextCheckAt now m.monitor.intervalSeconds = some next ∧
    v'.core.monitors = v.core.monitors.put m.id { m.monitor with nextCheckAt := next }
  taken : v.ledger.slotTaken (slotOf m now) = true →
    v'.ledger.jobs = v.ledger.jobs ∧ v'.ledger.outbox = v.ledger.outbox
  free : v.ledger.slotTaken (slotOf m now) = false → ∃ hash dispatch,
    dispatch.publishState = .pending ∧
    v'.ledger.jobs = v.ledger.jobs.put jobId (m.row (startOf m now) hash) ∧
    v'.ledger.outbox = v.ledger.outbox.put jobId dispatch

/-- What the turn of a monitor relies on: its row is as listed, it has no job
outstanding, and the next identifier is a new one. -/
structure Awaits (m : DueMonitor) (jobId : Uuid) (v : Database) : Prop where
  row : v.core.monitors.find m.id = some m.monitor
  idle : v.ledger.outstanding m.id = false
  job : v.ledger.jobs.find jobId = none
  dispatch : v.ledger.outbox.find jobId = none

variable {v' : Database}

theorem Awaits.aside (h : Awaits m jobId v) (ha : Unmoved v v') : Awaits m jobId v' where
  row := ha.core ▸ h.row
  idle := by
    rw [Ledger.outstanding, ha.jobs]
    exact h.idle
  job := ha.jobs ▸ h.job
  dispatch := ha.outbox ▸ h.dispatch

theorem slotTaken_aside (ha : Unmoved v v') (slot : Uuid × Time) :
    v'.ledger.slotTaken slot = v.ledger.slotTaken slot := by
  rw [Ledger.slotTaken, ha.jobs, Ledger.slotTaken]

/-- The outbox row of a new job. -/
def newDispatch (payload : DispatchPayload) (now : Time) : Dispatch :=
  { payload := payload, nextAttemptAt := now, createdAt := now, updatedAt := now }

/-- The effect of the outbox insert of a new job. -/
def dispatchEffect (jobId : Uuid) (payload : DispatchPayload) (now : Time) :
    Effect Ledger Key Unit :=
  { value := ()
    write := fun l => { l with outbox := l.outbox.put jobId (newDispatch payload now) }
    locks := [.dispatch jobId] }

variable {job : CheckJob}

section Inserts

variable {jobId : Uuid} {begun e : Env} {busy : Key → Bool} {v : Database}

theorem createScheduledCheckJob_taken (h : v.ledger.slotTaken job.slot = true) :
    createScheduledCheckJob jobId job begun e busy v =
      some (ledgerEffect { value := 0 }) := onLedger_of (if_pos h)

theorem createScheduledCheckJob_free (h : v.ledger.slotTaken job.slot = false)
    (hjob : v.ledger.jobs.find jobId = none)
    (hidle : v.ledger.outstanding job.monitorId = false) :
    createScheduledCheckJob jobId job begun e busy v =
      some (ledgerEffect (insertJob jobId job Nat 1)) := by
  exact onLedger_of ((if_neg (Bool.eq_false_iff.mp h)).trans (if_neg (by simp [hjob, hidle])))

theorem createScheduledDispatchOutbox_free (hadm : payload.admissible jobId = true)
    (h : v.ledger.outbox.find jobId = none) :
    createScheduledDispatchOutbox jobId payload begun e busy v =
      some (ledgerEffect (dispatchEffect jobId payload begun.now)) := by
  unfold createScheduledDispatchOutbox createDispatchOutbox
  exact onLedger_of (if_neg (by simp [hadm, h]))

end Inserts

/-- The rows after the two inserts of a turn. -/
structure Entered (now : Time) (m : DueMonitor) (jobId : Uuid) (v v' : Database) :
    Prop where
  core : v'.core = v.core
  taken : v.ledger.slotTaken (slotOf m now) = true →
    v'.ledger.jobs = v.ledger.jobs ∧ v'.ledger.outbox = v.ledger.outbox
  free : v.ledger.slotTaken (slotOf m now) = false → ∃ hash dispatch,
    dispatch.publishState = .pending ∧
    v'.ledger.jobs = v.ledger.jobs.put jobId (m.row (startOf m now) hash) ∧
    v'.ledger.outbox = v.ledger.outbox.put jobId dispatch

variable {o : Open Database Key Env} {db : Database}

theorem insertScheduled_exec (env : Nat → Env) (n : Nat) (w : World) (now : Time)
    (h : Awaits m jobId (o.write db)) (hadm : payload.admissible jobId = true) :
    ∃ n' o', n < n' ∧ o'.begun = o.begun ∧ Entered now m jobId (o.write db) (o'.write db) ∧
      (insertScheduled jobId (m.row (startOf m now) payload.snapshotHash) payload).exec
        remote 0 env ⟨n, .active o, db, w⟩ = (.ok (!(o.write db).ledger.slotTaken (slotOf m now)),
            ⟨n', .active o', db, w⟩) := by
  let row := m.row (startOf m now) payload.snapshotHash
  unfold insertScheduled
  cases hslot : (o.write db).ledger.slotTaken (slotOf m now) with
  | true =>
    rw [Prog.exec_then (Prog.exec_query (createScheduledCheckJob_taken hslot))]
    exact ⟨n + 1, o.extend (ledgerEffect { value := 0 }), by omega, rfl,
      ⟨rfl, fun _ => ⟨rfl, rfl⟩, fun hfree => by rw [hslot] at hfree; cases hfree⟩,
      rfl⟩
  | false =>
  let o₁ := o.extend (ledgerEffect (insertJob jobId row Nat 1))
  have hdispatch : (o₁.write db).ledger.outbox.find jobId = none := h.dispatch
  rw [Prog.exec_then (Prog.exec_query (createScheduledCheckJob_free hslot h.job h.idle))]
  show ∃ n' o', _ ∧ _ ∧ _ ∧ (query (createScheduledDispatchOutbox jobId payload) >>=
    _).exec remote 0 env ⟨n + 1, .active o₁, db, w⟩ = _
  rw [Prog.exec_then (Prog.exec_query (createScheduledDispatchOutbox_free hadm hdispatch))]
  refine ⟨n + 2, o₁.extend (ledgerEffect (dispatchEffect jobId payload o.begun.now)),
    by omega, rfl, ⟨rfl, fun htaken => ?_, fun _ => ?_⟩, rfl⟩
  · rw [hslot] at htaken
    cases htaken
  · exact ⟨payload.snapshotHash, newDispatch payload o.begun.now, rfl, rfl, rfl⟩

/-- The monitor moves on to its next slot. -/
def nextCheckEffect (m : DueMonitor) (next : Time) : Effect Core Key Unit :=
  { value := ()
    write := fun c => { c with
      monitors := c.monitors.put m.id { m.monitor with nextCheckAt := next } }
    locks := [.monitor m.id] }

theorem updateMonitorNextCheck_listed {begun e : Env} {busy : Key → Bool} {next : Time}
    (h : v.core.monitors.find m.id = some m.monitor) :
    updateMonitorNextCheck m.id next m.monitor.nextCheckAt begun e busy v =
      some (coreEffect (nextCheckEffect m next)) := by
  unfold updateMonitorNextCheck
  refine onCore_of ?_
  simp only [h, if_true]
  rfl

/-- The turn of a monitor with which nothing is wrong. -/
theorem scheduleMonitor_exec {outstanding : Nat} (hgood : Schedulable P platformKeyId env now m)
    (hlimit : outstanding < globalScheduledLimit) (h : Awaits m (env n).uuid (o.write db)) :
    ∃ n' o', n < n' ∧ o'.begun = o.begun ∧ Turned now m (env n).uuid (o.write db) (o'.write db) ∧
      (scheduleMonitor P platformKeyId now outstanding m).exec remote 0 env ⟨n, .active o, db, w⟩ =
          (.ok (!(o.write db).ledger.slotTaken (slotOf m now)),
            ⟨n', .active o', db, w⟩) := by
  obtain ⟨_, hpayload₀, -⟩ := hgood 0 0
  obtain ⟨next, headers, version, hnext, hheaders, hversion, hprov, -⟩ :=
    turnPayload_some hpayload₀
  let o₁ := o.extend { value := (env n).uuid }
  obtain ⟨n₂, o₂, hn₂, hbegun₂, haside, hmissed⟩ :=
    recordMissed_exec env (n + 1) w m now o₁ db
  obtain ⟨payload, hpayload, hadm⟩ := hgood n₂ (env n).uuid
  obtain ⟨_, _, _, -, hheaders', hversion', -, hsealed⟩ := turnPayload_some hpayload
  cases hheaders.symm.trans hheaders'
  cases hversion.symm.trans hversion'
  obtain ⟨n₃, hn₃, hseal⟩ := sealedPayload_exec env n₂ w
    (m.job platformKeyId version headers (env n).uuid (startOf m now))
    (m.pool.jobQueueUrl.getD "") (.active o₂) db
  rw [hsealed] at hseal
  have hawaits : Awaits m (env n).uuid (o₂.write db) := h.aside haside
  obtain ⟨n₄, o₄, hn₄, hbegun₄, hins, hinsert⟩ :=
    insertScheduled_exec env n₃ w now hawaits hadm
  have hrow : (o₄.write db).core.monitors.find m.id = some m.monitor := by
    rw [hins.core]
    exact hawaits.row
  have hslot := slotTaken_aside haside (slotOf m now)
  refine ⟨n₄ + 1, o₄.extend (coreEffect (nextCheckEffect m next)), by omega, ?_, ?_, ?_⟩
  · exact hbegun₄.trans hbegun₂
  · refine ⟨⟨next, hnext, ?_⟩, fun htaken => ?_, fun hfree => ?_⟩
    · show (o₄.write db).core.monitors.put _ _ = _
      rw [hins.core, haside.core]
      rfl
    · obtain ⟨hjobs, houtbox⟩ := hins.taken (hslot.trans htaken)
      exact ⟨hjobs.trans haside.jobs, houtbox.trans haside.outbox⟩
    · obtain ⟨hash, dispatch, hpending, hjobs, houtbox⟩ := hins.free (hslot.trans hfree)
      rw [haside.jobs] at hjobs
      rw [haside.outbox] at houtbox
      exact ⟨hash, dispatch, hpending, hjobs, houtbox⟩
  · have hid : (query newJobId : Prog _).exec remote 0 env ⟨n, .active o, db, w⟩ =
        (.ok (env n).uuid, ⟨n + 1, .active o₁, db, w⟩) := rfl
    unfold scheduleMonitor
    simp only [hnext, Nat.not_le.mpr hlimit, if_false, hprov, Bool.not_true,
      Bool.false_eq_true, hheaders, hversion]
    rw [Prog.exec_then hid, Prog.exec_then hmissed, Prog.exec_then hseal, Prog.exec_then hinsert,
      Prog.exec_then (Prog.exec_query (updateMonitorNextCheck_listed hrow)), hslot]
    rfl

/-- The turn of a monitor with which something is wrong: the call is over. -/
theorem scheduleMonitor_exec_error (n : Nat) (w : World) (o : Open Database Key Env)
    (db : Database) {outstanding : Nat} (hbad : Unschedulable P platformKeyId env now m)
    (hlimit : outstanding < globalScheduledLimit) :
    ∃ failure c, c.db = db ∧ (scheduleMonitor P platformKeyId now outstanding m).exec remote 0 env
        ⟨n, .active o, db, w⟩ = (.error failure, c) := by
  unfold scheduleMonitor
  cases hnext : nextSchedule m.monitor.nextCheckAt now m.monitor.intervalSeconds with
  | none => exact ⟨_, _, rfl, rfl⟩
  | some next =>
  simp only [Nat.not_le.mpr hlimit, if_false]
  cases hprov : provisioned m.pool with
  | false => exact ⟨_, _, rfl, rfl⟩
  | true =>
  simp only [Bool.not_true, Bool.false_eq_true, if_false]
  cases hheaders : decryptHeaders P m.monitor.headersCiphertext
      m.monitor.headerKeyVersion with
  | none => exact ⟨_, _, rfl, rfl⟩
  | some headers =>
    let o₁ := o.extend { value := (env n).uuid }
    have hid : (query newJobId : Prog _).exec remote 0 env ⟨n, .active o, db, w⟩ =
          (.ok (env n).uuid, ⟨n + 1, .active o₁, db, w⟩) := rfl
    obtain ⟨n₂, o₂, -, -, -, hmissed⟩ :=
      recordMissed_exec env (n + 1) w m now o₁ db
    dsimp only
    rw [Prog.exec_then hid, Prog.exec_then hmissed]
    cases hversion : chosenSchema m.pool with
    | none => exact ⟨_, _, rfl, rfl⟩
    | some version =>
    obtain ⟨n₃, -, hseal⟩ := sealedPayload_exec env n₂ w
      (m.job platformKeyId version headers (env n).uuid (startOf m now))
      (m.pool.jobQueueUrl.getD "") (.active o₂) db
    have hnone := hbad n₂ (env n).uuid
    simp only [turnPayload, hnext, hheaders, hversion, hprov, if_true] at hnone
    rw [hnone] at hseal
    dsimp only
    rw [Prog.exec_then hseal]
    exact ⟨_, _, rfl, rfl⟩

/-! ## The batch -/

/-- What the turns still to come rely on, from step `n` on. -/
structure Ahead (env : Nat → Env) (n : Nat) (rest : List DueMonitor) (v : Database) :
    Prop where
  rows : ∀ x ∈ rest, v.core.monitors.find x.id = some x.monitor
  idle : ∀ x ∈ rest, v.ledger.outstanding x.id = false
  fresh : ∀ k, n ≤ k → v.ledger.jobs.find (env k).uuid = none ∧
    v.ledger.outbox.find (env k).uuid = none

variable {j : Uuid} {d : Dispatch}

section Turned

variable {jobId : Uuid} {v v' : Database}

/-- The jobs and outbox rows after a turn: those before it, and at most one of each
more, under the new identifier. -/
theorem Turned.jobs (h : Turned now m jobId v v') :
    (v'.ledger.jobs = v.ledger.jobs ∨ ∃ hash, v'.ledger.jobs =
      v.ledger.jobs.put jobId (m.row (startOf m now) hash)) ∧
    ∀ j, j ≠ jobId → v'.ledger.outbox.find j = v.ledger.outbox.find j := by
  cases hslot : v.ledger.slotTaken (slotOf m now) with
  | true =>
    obtain ⟨hjobs, houtbox⟩ := h.taken hslot
    exact ⟨.inl hjobs, fun j _ => by rw [houtbox]⟩
  | false =>
  obtain ⟨hash, dispatch, -, hjobs, houtbox⟩ := h.free hslot
  refine ⟨.inr ⟨hash, hjobs⟩, fun j hj => ?_⟩
  rw [houtbox, Table.find_put_ne _ _ hj]

/-- A test of jobs that those of one monitor fail is not affected by its turn. -/
theorem Turned.any_jobs (h : Turned now m jobId v v')
    (hnew : v.ledger.jobs.find jobId = none) (f : Uuid × CheckJob → Bool)
    (hf : ∀ j (job : CheckJob), job.monitorId = m.id → f (j, job) = false) :
    v'.ledger.jobs.rows.any f = v.ledger.jobs.rows.any f := by
  rcases h.jobs.1 with hsame | ⟨hash, hput⟩
  · rw [hsame]
  · rw [hput, Table.any_rows_put hnew, hf _ _ rfl, Bool.false_or]

theorem Turned.outstanding (h : Turned now m jobId v v')
    (hnew : v.ledger.jobs.find jobId = none) {id : Uuid} (hid : id ≠ m.id) :
    v'.ledger.outstanding id = v.ledger.outstanding id := by
  refine h.any_jobs hnew _ fun j job hjob => ?_
  simp [hjob, Ne.symm hid]

theorem Turned.slotTaken (h : Turned now m jobId v v')
    (hnew : v.ledger.jobs.find jobId = none) {id : Uuid} (hid : id ≠ m.id) (t : Time) :
    v'.ledger.slotTaken (id, t) = v.ledger.slotTaken (id, t) := by
  refine h.any_jobs hnew _ fun j job hjob => ?_
  simp [CheckJob.slot, hjob, Ne.symm hid]

/-- A job that is there stays, since the new one has another identifier. -/
theorem Turned.find_job (h : Turned now m jobId v v') (hj : j ≠ jobId) :
    v'.ledger.jobs.find j = v.ledger.jobs.find j := by
  rcases h.jobs.1 with hsame | ⟨hash, hput⟩
  · rw [hsame]
  · rw [hput, Table.find_put_ne _ _ hj]

theorem Turned.keeps_monitor {id : Uuid} (h : Turned now m jobId v v')
    (hid : id ≠ m.id) : v'.core.monitors.find id = v.core.monitors.find id := by
  obtain ⟨next, -, hmonitors⟩ := h.monitors
  rw [hmonitors, Table.find_put_ne _ _ hid]

theorem Turned.keeps_job (h : Turned now m jobId v v') (hnew : v.ledger.jobs.find jobId = none)
    (hj : v.ledger.jobs.find j = some job) : v'.ledger.jobs.find j = some job := by
  rw [h.find_job fun heq => by simp [heq, hnew] at hj, hj]

theorem Turned.keeps_dispatch (h : Turned now m jobId v v')
    (hnew : v.ledger.outbox.find jobId = none) (hj : v.ledger.outbox.find j = some d) :
    v'.ledger.outbox.find j = some d := by
  rw [h.jobs.2 j fun heq => by simp [heq, hnew] at hj, hj]

end Turned

variable {rest : List DueMonitor}

theorem Ahead.turned {n' : Nat} (hp : Ahead env n (m :: rest) v)
    (h : Turned now m (env n).uuid v v') (hids : ((m :: rest).map DueMonitor.id).Nodup)
    (huuid : ∀ k k', (env k).uuid = (env k').uuid → k = k') (hn : n < n') :
    Ahead env n' rest v' := by
  have hnew := (hp.fresh n (Nat.le_refl n)).1
  have hother : ∀ x ∈ rest, x.id ≠ m.id := by
    intro x hx heq
    rw [List.map_cons, List.nodup_cons] at hids
    exact hids.1 (List.mem_map.mpr ⟨x, hx, heq⟩)
  refine ⟨fun x hx => ?_, fun x hx => ?_, fun k hk => ?_⟩
  · rw [h.keeps_monitor (hother x hx)]
    exact hp.rows x (List.mem_cons_of_mem _ hx)
  · rw [h.outstanding hnew (hother x hx)]
    exact hp.idle x (List.mem_cons_of_mem _ hx)
  · have hne : (env k).uuid ≠ (env n).uuid := by
      intro heq
      have := huuid _ _ heq
      omega
    obtain ⟨hjob, hdispatch⟩ := hp.fresh k (by omega)
    exact ⟨(h.find_job hne).trans hjob, (h.jobs.2 _ hne).trans hdispatch⟩

/-- The turns of a list of monitors, one after the other, each with a new
identifier. -/
inductive Turns (now : Time) : List DueMonitor → Database → Database → Prop
  | nil (v : Database) : Turns now [] v v
  | cons {m : DueMonitor} {rest : List DueMonitor} {jobId : Uuid} {v v₁ v' : Database}
      (turn : Turned now m jobId v v₁) (job : v.ledger.jobs.find jobId = none)
      (dispatch : v.ledger.outbox.find jobId = none) (later : Turns now rest v₁ v') :
      Turns now (m :: rest) v v'

section Turns

variable {rest : List DueMonitor} {v v' : Database} {j : Uuid}

theorem Turns.keeps_job (h : Turns now rest v v') (hj : v.ledger.jobs.find j = some job) :
    v'.ledger.jobs.find j = some job := by
  induction h with
  | nil v => exact hj
  | cons turn hjob hdispatch _ ih => exact ih (turn.keeps_job hjob hj)

theorem Turns.keeps_dispatch (h : Turns now rest v v') (hj : v.ledger.outbox.find j = some d) :
    v'.ledger.outbox.find j = some d := by
  induction h with
  | nil v => exact hj
  | cons turn hjob hdispatch _ ih => exact ih (turn.keeps_dispatch hdispatch hj)

theorem Turns.keeps_monitor (h : Turns now rest v v') {id : Uuid}
    (hid : id ∉ rest.map DueMonitor.id) :
    v'.core.monitors.find id = v.core.monitors.find id := by
  induction h with
  | nil v => rfl
  | cons turn hjob hdispatch _ ih =>
    rw [List.map_cons, List.mem_cons, not_or] at hid
    rw [ih hid.2, turn.keeps_monitor hid.1]

/-- A monitor whose slots are all taken gets no job. -/
theorem Turns.no_job (h : Turns now rest v v') {id : Uuid} (hids : (rest.map DueMonitor.id).Nodup)
    (htaken : ∀ x ∈ rest, x.id = id → v.ledger.slotTaken (slotOf x now) = true)
    (hj : v'.ledger.jobs.find j = some job) (hid : job.monitorId = id) :
    v.ledger.jobs.find j = some job := by
  induction h with
  | nil v => exact hj
  | @cons x rest jobId v v₁ v' turn hjob hdispatch _ ih =>
    rw [List.map_cons, List.nodup_cons] at hids
    have hold : v₁.ledger.jobs.find j = some job := by
      refine ih hids.2 (fun y hy hyid => ?_) hj
      have hne : y.id ≠ x.id := fun heq => hids.1 (List.mem_map.mpr ⟨y, hy, heq⟩)
      rw [slotOf, turn.slotTaken hjob hne]
      exact htaken y (List.mem_cons_of_mem _ hy) hyid
    by_cases hx : x.id = id
    · rw [(turn.taken (htaken x (List.mem_cons_self ..) hx)).1] at hold
      exact hold
    rcases turn.jobs.1 with hsame | ⟨hash, hput⟩
    · exact hsame ▸ hold
    · rw [hput, Table.find_put_some] at hold
      rcases hold with ⟨-, rfl⟩ | ⟨-, hold⟩
      · exact absurd hid hx
      · exact hold

end Turns

/-! ## The next slot -/

/-- The product `nextSchedule` computes fits into an `int64`. -/
def InRange (scheduled now seconds : Int) : Prop :=
  (now - scheduled) / (seconds * second) * (seconds * second) + seconds * second < 2 ^ 63

variable {next seconds : Int}

/-- As long as it does, the next slot is the first one in the future. -/
theorem nextSchedule_spec {scheduled now : Int}
    (h : nextSchedule scheduled now seconds = some next) (hdue : scheduled ≤ now)
    (hrange : InRange scheduled now seconds) :
    now < next ∧ next ≤ now + seconds * second ∧ 0 < seconds ∧
      next = scheduled + ((now - scheduled) / (seconds * second) + 1) *
        (seconds * second) := by
  unfold nextSchedule at h
  unfold InRange at hrange
  split at h
  · cases h
  next hpositive =>
  have hinterval : 0 < seconds * second := by
    unfold second
    omega
  generalize seconds * second = interval at h hinterval hrange ⊢
  have hlow := Int.ediv_mul_le (now - scheduled) (by omega : interval ≠ 0)
  have hhigh := Int.lt_ediv_add_one_mul_self (now - scheduled) hinterval
  have hquot : 0 ≤ (now - scheduled) / interval :=
    Int.ediv_nonneg (by omega) (by omega)
  have hsplit : ((now - scheduled) / interval + 1) * interval =
      (now - scheduled) / interval * interval + interval := by
    rw [Int.add_mul, Int.one_mul]
  have hsub : subTime now scheduled = now - scheduled := by
    unfold subTime
    omega
  have hquot' : (now - scheduled) / interval ≤ now - scheduled :=
    Int.ediv_le_self _ (by omega)
  simp only [hsub, Int.tdiv_eq_ediv_of_nonneg (by omega : 0 ≤ now - scheduled)] at h
  generalize (now - scheduled) / interval = q at *
  have hperiods : int64 (q + 1) = q + 1 := Int.bmod_eq_of_le (by omega) (by omega)
  have hprod : int64 ((q + 1) * interval) = (q + 1) * interval :=
    Int.bmod_eq_of_le (by omega) (by omega)
  simp only [hperiods, if_neg (by omega : ¬q + 1 < 1), hprod, Option.some.injEq] at h
  have hfuture : now < scheduled + (q + 1) * interval := by omega
  rw [if_pos hfuture] at h
  refine ⟨h ▸ hfuture, ?_, by omega, h.symm⟩
  rw [← h, hsplit]
  omega

/-- Nothing `nextSchedule` computes on the way leaves an `int64`. -/
structure Exact (scheduled now seconds : Int) : Prop where
  interval : int64 (seconds * second) = seconds * second
  elapsed : subTime now scheduled = now - scheduled
  periods : int64 ((now - scheduled).tdiv (seconds * second) + 1) =
    (now - scheduled).tdiv (seconds * second) + 1
  product : int64 (((now - scheduled).tdiv (seconds * second) + 1) * (seconds * second)) =
    ((now - scheduled).tdiv (seconds * second) + 1) * (seconds * second)

/-- The times of a schedule that begins at `start` and goes on whenever it is due. -/
inductive Iterated (seconds : Int) (start : Time) : Time → Prop
  | start : Iterated seconds start start
  | next {scheduled now next : Time} : Iterated seconds start scheduled → scheduled ≤ now →
      now - scheduled < 2 ^ 62 → nextSchedule scheduled now seconds = some next →
      Iterated seconds start next

section

variable {scheduled now next seconds : Int} (hpos : 0 < seconds) (hint : seconds < 2 ^ 31)

include hpos hint

/-- It does for a century and more. -/
theorem inRange_of_span (hdue : scheduled ≤ now) (hspan : now - scheduled < 2 ^ 62) :
    InRange scheduled now seconds := by
  have hinterval : 0 < seconds * second ∧ seconds * second < 2 ^ 62 := by
    unfold second
    constructor <;> omega
  have hlow := Int.ediv_mul_le (now - scheduled) (by omega : seconds * second ≠ 0)
  unfold InRange
  omega

theorem exact_of_span (hdue : scheduled ≤ now) (hspan : now - scheduled < 2 ^ 62) :
    Exact scheduled now seconds := by
  have hinterval : 0 < seconds * second ∧ seconds * second < 2 ^ 62 := by
    unfold second
    constructor <;> omega
  have hrange := inRange_of_span hpos hint hdue hspan
  unfold InRange at hrange
  have hquot := Int.ediv_nonneg (by omega : 0 ≤ now - scheduled) hinterval.1.le
  have hquot' := Int.ediv_le_self (seconds * second) (by omega : 0 ≤ now - scheduled)
  have hproduct := Int.mul_nonneg hquot hinterval.1.le
  refine ⟨Int.bmod_eq_of_le (by omega) (by omega), by unfold subTime; omega, ?_, ?_⟩
  all_goals rw [Int.tdiv_eq_ediv_of_nonneg (by omega)]
  · exact Int.bmod_eq_of_le (by omega) (by omega)
  · rw [Int.add_mul, Int.one_mul]
    exact Int.bmod_eq_of_le (by omega) (by omega)

/-- The least multiple of the interval that is later than now. -/
theorem nextSchedule_first (hdue : scheduled ≤ now) (hspan : now - scheduled < 2 ^ 62) :
    ∃ k, nextSchedule scheduled now seconds = some (scheduled + k * (seconds * second)) ∧
      1 ≤ k ∧ now < scheduled + k * (seconds * second) ∧
      ∀ j, now < scheduled + j * (seconds * second) → k ≤ j := by
  obtain ⟨next, hnext⟩ : ∃ next, nextSchedule scheduled now seconds = some next :=
    ⟨_, if_neg (by omega)⟩
  obtain ⟨hlater, hsoon, -, heq⟩ :=
    nextSchedule_spec hnext hdue (inRange_of_span hpos hint hdue hspan)
  have hinterval : 0 < seconds * second := Int.mul_pos hpos (by decide)
  refine ⟨(now - scheduled) / (seconds * second) + 1, by rw [hnext, heq], ?_, heq ▸ hlater,
    fun j hj => ?_⟩
  · have := Int.ediv_nonneg (by omega : 0 ≤ now - scheduled) hinterval.le
    omega
  · -- A smaller multiple is not later.
    have : (now - scheduled) / (seconds * second) < j :=
      Int.ediv_lt_of_lt_mul hinterval (by omega)
    omega

theorem iterated_multiple {start : Time} (h : Iterated seconds start scheduled) :
    ∃ a, scheduled = start + a * (seconds * second) := by
  induction h with
  | start => exact ⟨0, by omega⟩
  | next _ hdue hspan hnext ih =>
    obtain ⟨a, rfl⟩ := ih
    obtain ⟨k, hk, -⟩ := nextSchedule_first hpos hint hdue hspan
    refine ⟨a + k, ?_⟩
    rw [hk, Option.some.injEq] at hnext
    rw [← hnext, Int.add_mul, Int.add_assoc]

/-- **Next slot arithmetic.** -/
theorem nextSchedule_least : (∀ scheduled now : Int, scheduled ≤ now → now - scheduled < 2 ^ 62 →
      Exact scheduled now seconds ∧
      ∃ k, nextSchedule scheduled now seconds = some (scheduled + k * (seconds * second)) ∧
        (1 ≤ k ∧ now < scheduled + k * (seconds * second)) ∧
        ∀ j, 1 ≤ j → now < scheduled + j * (seconds * second) → k ≤ j) ∧
    ∀ start scheduled now : Int, Iterated seconds start scheduled → scheduled ≤ now →
      now - scheduled < 2 ^ 62 →
      ∃ next : Int, nextSchedule scheduled now seconds = some next ∧ now < next ∧
        (∃ k, next = start + k * (seconds * second)) ∧
        ∀ j, now < start + j * (seconds * second) → next ≤ start + j * (seconds * second) := by
  refine ⟨fun scheduled now hdue hspan => ?_, fun start scheduled now h hdue hspan => ?_⟩
  · obtain ⟨k, hnext, hk, hlater, hleast⟩ := nextSchedule_first hpos hint hdue hspan
    exact ⟨exact_of_span hpos hint hdue hspan, k, hnext, ⟨hk, hlater⟩, fun j _ => hleast j⟩
  · obtain ⟨a, rfl⟩ := iterated_multiple hpos hint h
    obtain ⟨k, hnext, hk, hlater, hleast⟩ := nextSchedule_first hpos hint hdue hspan
    refine ⟨_, hnext, hlater, ⟨a + k, by rw [Int.add_mul, Int.add_assoc]⟩, fun j hj => ?_⟩
    have hkj : k ≤ j - a := hleast (j - a) (by rw [Int.sub_mul]; omega)
    have := Int.mul_le_mul_of_nonneg_right hkj (Int.mul_pos hpos (by decide : 0 < second)).le
    rw [Int.sub_mul] at this
    omega

end

theorem nextSchedule_least_sample : nextSchedule 0 (7 * minute) 60 = some (8 * minute) ∧
      ∃ next : Int, nextSchedule 0 (7 * minute) 60 = some next ∧ 7 * minute < next ∧
        (∃ k, next = 0 + k * (60 * second)) ∧
        ∀ j, 7 * minute < 0 + j * (60 * second) → next ≤ 0 + j * (60 * second) :=
  ⟨by decide, (nextSchedule_least (by decide) (by decide)).2 0 0 _ .start (by decide) (by decide)⟩

theorem nextSchedule_later {scheduled now : Int}
    (h : nextSchedule scheduled now seconds = some next) (hdue : scheduled ≤ now)
    (hspan : now - scheduled < 2 ^ 62) (hseconds : seconds < 2 ^ 31) : now < next := by
  have hpositive : 0 < seconds := by
    unfold nextSchedule at h
    split at h
    · cases h
    · omega
  exact (nextSchedule_spec h hdue (inRange_of_span hpositive hseconds hdue hspan)).1

/-- The monitor has a new job, which waits to be published, and a later time for
its next check. -/
structure Scheduled (m : DueMonitor) (v v' : Database) : Prop where
  job : ∃ j job dispatch, v.ledger.jobs.find j = none ∧
    v'.ledger.jobs.find j = some job ∧ job.monitorId = m.id ∧
    job.jobType = .scheduled ∧ job.state = .pendingPublish ∧
    v'.ledger.outbox.find j = some dispatch ∧ dispatch.publishState = .pending
  next : ∃ row, v'.core.monitors.find m.id = some row ∧ m.monitor.nextCheckAt < row.nextCheckAt

theorem Turned.scheduled (h : Turned now m jobId v v') (hnew : v.ledger.jobs.find jobId = none)
    (hslot : v.ledger.slotTaken (slotOf m now) = false) (hdue : m.monitor.nextCheckAt ≤ now)
    (hspan : now - m.monitor.nextCheckAt < 2 ^ 62)
    (hseconds : m.monitor.intervalSeconds < 2 ^ 31) : Scheduled m v v' := by
  obtain ⟨hash, dispatch, hpending, hjobs, houtbox⟩ := h.free hslot
  obtain ⟨next, hnext, hmonitors⟩ := h.monitors
  have hlater := nextSchedule_later hnext hdue hspan hseconds
  refine ⟨⟨jobId, m.row (startOf m now) hash, dispatch, hnew, ?_, rfl, rfl, rfl, ?_,
    hpending⟩, { m.monitor with nextCheckAt := next }, ?_, ?_⟩
  · rw [hjobs, Table.find_put]
  · rw [houtbox, Table.find_put]
  · rw [hmonitors, Table.find_put]
  · exact Int.lt_of_le_of_lt hdue hlater

/-- A job that came after some turns had no row before them. -/
theorem Turned.none_before (h : Turned now m jobId v v')
    (hnew : v.ledger.jobs.find jobId = none) (hj : v'.ledger.jobs.find j = none) :
    v.ledger.jobs.find j = none := by
  cases hold : v.ledger.jobs.find j with
  | none => rfl
  | some job => simp [h.keeps_job hnew hold] at hj

theorem Turns.scheduled (h : Turns now rest v v') (hids : (rest.map DueMonitor.id).Nodup)
    (hm : m ∈ rest) (hslot : v.ledger.slotTaken (slotOf m now) = false)
    (hdue : m.monitor.nextCheckAt ≤ now) (hspan : now - m.monitor.nextCheckAt < 2 ^ 62)
    (hseconds : m.monitor.intervalSeconds < 2 ^ 31) : Scheduled m v v' := by
  induction h with
  | nil v => cases hm
  | @cons x rest jobId v v₁ v' turn hjob hdispatch later ih =>
    rw [List.map_cons, List.nodup_cons] at hids
    rcases List.mem_cons.mp hm with rfl | hrest
    · obtain ⟨⟨j, job, d, hnone, hfind, hid, htype, hstate, hd, hpending⟩, row, hrow,
        hnext⟩ := turn.scheduled hjob hslot hdue hspan hseconds
      refine ⟨⟨j, job, d, hnone, later.keeps_job hfind, hid, htype, hstate,
        later.keeps_dispatch hd, hpending⟩, row, ?_, hnext⟩
      rw [later.keeps_monitor hids.1]
      exact hrow
    · have hne : m.id ≠ x.id := fun heq => hids.1 (List.mem_map.mpr ⟨m, hrest, heq⟩)
      obtain ⟨⟨j, job, d, hnone, hjob'⟩, hnext⟩ := ih hids.2 hrest
        ((turn.slotTaken hjob hne _).trans hslot)
      exact ⟨⟨j, job, d, turn.none_before hjob hnone, hjob'⟩, hnext⟩

/-! ## The loop -/

theorem Unschedulable.not_schedulable (h : Unschedulable P platformKeyId env now m) :
    ¬Schedulable P platformKeyId env now m := by
  intro hgood
  obtain ⟨payload, hpayload, -⟩ := hgood 0 0
  rw [h 0 0] at hpayload
  cases hpayload

/-- The loop takes the turn of each monitor, if nothing is wrong with any of them.
Otherwise it stops, and nothing has been committed. -/
theorem scheduleMonitors_exec :
    ∀ (n outstanding created : Nat) (o : Open Database Key Env) (db : Database),
      (∀ x ∈ rest, Schedulable P platformKeyId env now x ∨
        Unschedulable P platformKeyId env now x) →
      outstanding + rest.length ≤ globalScheduledLimit →
      (rest.map DueMonitor.id).Nodup →
      (∀ k k', (env k).uuid = (env k').uuid → k = k') →
      Ahead env n rest (o.write db) →
      ((∀ x ∈ rest, Schedulable P platformKeyId env now x) ∧
        ∃ count n' o', Turns now rest (o.write db) (o'.write db) ∧
          (scheduleMonitors P platformKeyId now outstanding created rest).exec remote 0 env
            ⟨n, .active o, db, w⟩ = (.ok count, ⟨n', .active o', db, w⟩)) ∨
      ((∃ x ∈ rest, ¬Schedulable P platformKeyId env now x) ∧ ∃ failure c, c.db = db ∧
          (scheduleMonitors P platformKeyId now outstanding created rest).exec remote 0 env
            ⟨n, .active o, db, w⟩ = (.error failure, c)) := by
  induction rest with
  | nil =>
    intro n outstanding created o db _ _ _ _ _
    exact .inl ⟨List.forall_mem_nil _, created, n, o, Turns.nil _, rfl⟩
  | cons x rest ih =>
    intro n outstanding created o db hmix hlimit hids huuid hp
    rw [List.length_cons] at hlimit
    rw [List.forall_mem_cons] at hmix ⊢
    unfold scheduleMonitors
    rcases hmix.1 with hgood | hbad
    · obtain ⟨hjob, hdispatch⟩ := hp.fresh n (Nat.le_refl n)
      have hawaits : Awaits x (env n).uuid (o.write db) :=
        ⟨hp.rows x (List.mem_cons_self ..), hp.idle x (List.mem_cons_self ..), hjob, hdispatch⟩
      obtain ⟨n₁, o₁, hn, -, hturn, hexec⟩ := scheduleMonitor_exec (w := w) hgood
        (by omega : outstanding < _) hawaits
      have hpending := hp.turned hturn hids huuid hn
      rw [List.map_cons, List.nodup_cons] at hids
      rw [Prog.exec_then hexec]
      -- a job that was created counts, and the rest goes on in the same way
      cases (o.write db).ledger.slotTaken (slotOf x now)
      case' true => have hrest := ih n₁ outstanding created o₁ db hmix.2 (by omega)
      case' false => have hrest := ih n₁ (outstanding + 1) (created + 1) o₁ db hmix.2 (by omega)
      all_goals
        rcases hrest hids.2 huuid hpending with
          ⟨hall, count, n', o', hturns, hloop⟩ | ⟨⟨y, hy, hnot⟩, hstop⟩
        · exact .inl ⟨⟨hgood, hall⟩, count, n', o', .cons hturn hjob hdispatch hturns, hloop⟩
        · exact .inr ⟨⟨y, List.mem_cons_of_mem x hy, hnot⟩, hstop⟩
    · obtain ⟨failure, c, hc, hexec⟩ := scheduleMonitor_exec_error n w o db hbad
        (by omega : outstanding < _)
      rw [Prog.exec_then hexec]
      exact .inr ⟨⟨x, List.mem_cons_self .., hbad.not_schedulable⟩, failure, c, hc, rfl⟩

/-! ## The call -/

theorem mem_dueMonitors (h : x ∈ dueMonitors now db) : db.core.monitors.find x.id = some x.monitor ∧
      db.ledger.outstanding x.id = false ∧ x.monitor.nextCheckAt ≤ now ∧
      x.monitor.pausedAt = none ∧ x.monitor.deletedAt = none := by
  rw [dueMonitors, List.mem_insertionSort, List.mem_filterMap] at h
  obtain ⟨⟨id, monitor⟩, hmem, hdue⟩ := h
  unfold dueMonitor? at hdue
  repeat' split at hdue
  all_goals cases hdue
  simp_all [Table.mem_rows]

theorem dueMonitor?_id {e : Uuid × Monitor} (h : dueMonitor? now db e = some x) :
    x.id = e.1 := by
  unfold dueMonitor? at h
  repeat' split at h
  all_goals cases h
  rfl

theorem nodup_dueMonitors (now : Time) (db : Database) :
    ((dueMonitors now db).map DueMonitor.id).Nodup := by
  have hrows := db.core.monitors.nodup_keys
  rw [dueMonitors, ((List.perm_insertionSort _ _).map DueMonitor.id).nodup_iff]
  rw [List.Nodup, List.pairwise_map, List.pairwise_filterMap]
  rw [List.Nodup, List.pairwise_map] at hrows
  refine hrows.imp fun hne x hx y hy => ?_
  rw [dueMonitor?_id hx, dueMonitor?_id hy]
  exact hne

/-- The batch that a call which begins at the time `now` picks up. -/
def batchOf (batch : Nat) (now : Time) (db : Database) : List DueMonitor :=
  (dueMonitors now db).take batch

theorem listDueScheduledMonitors_alone (batch : Nat) (begun e : Env) (db : Database) :
    listDueScheduledMonitors batch begun e (fun _ => false) db = some
      { value := batchOf batch begun.now db
        locks := (batchOf batch begun.now db).map fun d => .monitor d.id } := by
  simp only [listDueScheduledMonitors, batchOf, Bool.not_false, List.filter_true]

/-- The call up to its loop. -/
theorem scheduleDue_exec {batch : Nat} (hbatch : 1 ≤ batch ∧ batch ≤ maxBatch) :
    ∃ o : Open Database Key Env, o.write db = db ∧
      (scheduleDue P platformKeyId batch).exec remote 0 env ⟨0, .idle, db, w⟩ =
        (scheduleMonitors P platformKeyId (env 0).now
          (db.ledger.countActive .scheduled) 0 (batchOf batch (env 0).now db) >>=
            fun r => match r with
              | .error failure => pure (.error failure)
              | .ok created => commit >>= fun r => match r with
                | .ok () => pure (.ok created)
                | _ => pure (.error .database)).exec remote 0 env
                  ⟨4, .active o, db, w⟩ := by
  have hok : ¬(decide (batch < 1) || decide (maxBatch < batch)) = true := by
    simp only [Bool.or_eq_true, decide_eq_true_eq]
    omega
  let o₁ : Open Database Key Env := (Open.fresh (env 0)).extend
    (ledgerEffect { value := db.ledger.countActive .scheduled })
  let o₂ := o₁.extend { value := (env 0).now }
  have hcount : (query countActiveScheduledJobs : Prog _).exec remote 0 env
      ⟨1, .active (.fresh (env 0)), db, w⟩ =
        (.ok (db.ledger.countActive .scheduled), ⟨2, .active o₁, db, w⟩) := rfl
  have htime : (query getDatabaseTime : Prog _).exec remote 0 env
      ⟨2, .active o₁, db, w⟩ = (.ok (env 0).now, ⟨3, .active o₂, db, w⟩) := rfl
  have hlist := Prog.exec_query (R := remote) (i := 0) (w := w) (o := o₂)
    (listDueScheduledMonitors_alone batch (env 0) (env 3) db)
  refine ⟨o₂.extend { value := batchOf batch (env 0).now db
                      locks := (batchOf batch (env 0).now db).map fun d =>
                        .monitor d.id }, rfl, ?_⟩
  unfold scheduleDue
  rw [if_neg hok, Prog.exec_then Prog.exec_start, Prog.exec_then hcount, Prog.exec_then htime]
  exact Prog.exec_then hlist

/-- A monitor of the batch with which nothing is wrong gets its job if and only if
nothing is wrong with the others either, and its slot has no job yet. No failure
of the database: identifiers are new ones, the admission limit is not reached,
and a job that seals makes a row the outbox admits. -/
theorem batch_schedules_iff {batch : Nat} {db : Database} (w : World)
    (hbatch : 1 ≤ batch ∧ batch ≤ maxBatch)
    (hlimit : db.ledger.countActive .scheduled + (batchOf batch (env 0).now db).length ≤
      globalScheduledLimit)
    (huuid : ∀ k k', (env k).uuid = (env k').uuid → k = k')
    (hfresh : ∀ k, db.ledger.jobs.find (env k).uuid = none ∧
      db.ledger.outbox.find (env k).uuid = none)
    (hmix : ∀ x ∈ batchOf batch (env 0).now db, Schedulable P platformKeyId env (env 0).now x ∨
        Unschedulable P platformKeyId env (env 0).now x)
    (hm : m ∈ batchOf batch (env 0).now db)
    (hspan : (env 0).now - m.monitor.nextCheckAt < 2 ^ 62)
    (hseconds : m.monitor.intervalSeconds < 2 ^ 31) :
    Scheduled m db ((scheduleDue P platformKeyId batch).solo remote 0 env 0 .idle db w).2.1 ↔
      (∀ x ∈ batchOf batch (env 0).now db, Schedulable P platformKeyId env (env 0).now x) ∧
      db.ledger.slotTaken (slotOf m (env 0).now) = false := by
  obtain ⟨o, ho, hcall⟩ := scheduleDue_exec (P := P) (w := w) hbatch
  have hids : ((batchOf batch (env 0).now db).map DueMonitor.id).Nodup :=
    (nodup_dueMonitors _ _).sublist ((List.take_sublist _ _).map _)
  have hlisted : ∀ x ∈ batchOf batch (env 0).now db, db.core.monitors.find x.id = some x.monitor ∧
        db.ledger.outstanding x.id = false ∧ x.monitor.nextCheckAt ≤ (env 0).now :=
    fun x hx => (mem_dueMonitors (List.mem_of_mem_take hx)).imp_right fun h => h.imp_right And.left
  have hpending : Ahead env 4 (batchOf batch (env 0).now db) (o.write db) := by
    rw [ho]
    exact ⟨fun x hx => (hlisted x hx).1, fun x hx => (hlisted x hx).2.1, fun k _ => hfresh k⟩
  rw [Prog.solo_eq, hcall]
  rcases scheduleMonitors_exec (w := w) 4 _ 0 o db hmix hlimit hids huuid hpending with
    ⟨hall, count, n', o', hturns, hloop⟩ | ⟨⟨x, hx, hwrong⟩, failure, c, hc, hloop⟩
  · rw [ho] at hturns
    rw [Prog.exec_then hloop]
    show Scheduled m db (o'.write db) ↔ _
    constructor
    · intro hsched
      refine ⟨hall, Bool.eq_false_iff.mpr fun htaken => ?_⟩
      obtain ⟨j, job, _, hnone, hfind, hid, -⟩ := hsched.job
      have hsame : ∀ x ∈ batchOf batch (env 0).now db, x.id = m.id →
          db.ledger.slotTaken (slotOf x (env 0).now) = true := by
        intro x hx hxid
        have hrow := (hlisted x hx).1
        rw [hxid, (hlisted m hm).1] at hrow
        rw [slotOf, startOf, hxid, ← Option.some.inj hrow]
        exact htaken
      rw [hturns.no_job hids hsame hfind hid] at hnone
      cases hnone
    · intro ⟨_, hslot⟩
      exact hturns.scheduled hids hm hslot (hlisted m hm).2.2 hspan hseconds
  · rw [Prog.exec_then hloop]
    show Scheduled m db c.db ↔ _
    constructor
    · intro hsched
      obtain ⟨row, hrow, hlater⟩ := hsched.next
      rw [hc, (hlisted m hm).1] at hrow
      cases hrow
      exact absurd hlater (Int.lt_irrefl _)
    · intro h
      exact absurd (h.1 x hx) hwrong

namespace Sample

/-- A minute has passed, and every identifier is new. -/
def minuteOne (n : Nat) : Env := moment 60 (11 + n) 21

def due : DueMonitor := ⟨1, monitor, pool⟩

/-- Headers cannot be decrypted: the key is gone. -/
def keyless : Primitives := { primitives with decryptHeaders := fun _ _ => none }

/-- Next to the usual monitor there is one with headers. -/
def withHeaders : Database :=
  ⟨Ledger.empty, { core with
    monitors := core.monitors.put 2 { monitor with
      headersCiphertext := some [0], headerKeyVersion := some 1 } }, Journal.empty⟩

theorem schedulable_due (hP : P.base64 = id) :
    Schedulable P "platform" minuteOne (60 * second) due := by
  intro n jobId
  refine ⟨dispatchPayload P (due.job "platform" 2 [] jobId (60 * second)) "queue" [0]
    snapshotHash, rfl, ?_⟩
  have hbody : (P.base64 [0]).length = 1 := by rw [hP]; rfl
  have hsizes : "queue".utf8ByteSize ≤ 2048 ∧ "platform".utf8ByteSize = 8 ∧
      "box".utf8ByteSize = 3 ∧ snapshotHash.utf8ByteSize = 64 := by
    decide +kernel
  simp only [DispatchPayload.admissible, dispatchPayload, DueMonitor.job, due, pool,
    Option.getD_some, hbody, hsizes]
  simp

theorem batchOf_one : batchOf 1 (60 * second) ⟨Ledger.empty, core, Journal.empty⟩ = [due] := rfl

theorem due_mem : due ∈ batchOf 100 (60 * second) withHeaders := by
  have h : batchOf 100 (60 * second) withHeaders = [due, _] := rfl
  rw [h]
  exact List.mem_cons_self ..

end Sample

open Sample

theorem batch_schedules_iff_sample : Scheduled due ⟨Ledger.empty, core, Journal.empty⟩
      ((scheduleDue primitives "platform" 1).solo remote 0 minuteOne 0 .idle
        ⟨Ledger.empty, core, Journal.empty⟩ World.empty).2.1 := by
  have hgood : ∀ x ∈ batchOf 1 (60 * second) ⟨Ledger.empty, core, Journal.empty⟩,
      Schedulable primitives "platform" minuteOne (60 * second) x := by
    intro x hx
    rw [batchOf_one, List.mem_singleton] at hx
    rw [hx]
    exact schedulable_due rfl
  refine (batch_schedules_iff World.empty (by decide) (by decide +kernel) ?_ ?_
    (fun x hx => .inl (hgood x hx)) ?_ (by decide) (by decide)).mpr ⟨hgood, rfl⟩
  · intro k k' h
    exact Nat.add_left_cancel h
  · intro k
    exact ⟨Table.find_empty _, Table.find_empty _⟩
  · rw [show batchOf 1 (minuteOne 0).now
      ⟨Ledger.empty, core, Journal.empty⟩ = [due] from batchOf_one]
    exact List.mem_cons_self ..

/-- The headers of one monitor cannot be decrypted, and the other one, which has
none, is not scheduled. -/
theorem batch_stopped : due ∈ batchOf 100 (60 * second) withHeaders ∧
    Schedulable keyless "platform" minuteOne (60 * second) due ∧
    ¬Scheduled due withHeaders ((scheduleDue keyless "platform" 100).solo remote 0 minuteOne 0 .idle
        withHeaders World.empty).2.1 := by
  refine ⟨due_mem, schedulable_due rfl, fun h => ?_⟩
  have hnext : (((scheduleDue keyless "platform" 100).solo remote 0
      minuteOne 0 .idle withHeaders World.empty).2.1.core.monitors.find
        1).map Monitor.nextCheckAt = some (60 * second) := by
    decide +kernel
  obtain ⟨row, hrow, hlater⟩ := h.next
  rw [show due.id = 1 from rfl] at hrow
  rw [hrow, Option.map_some, Option.some.injEq] at hnext
  rw [hnext] at hlater
  exact absurd hlater (by decide)

end WatchTrace.Proofs
