import WatchTrace.Proofs.Publisher
import WatchTrace.Proofs.Revocation

/-!
# Publication after a revocation

A revoked pool gets no new dispatches: the two calls that create them look for
an active pool. The dispatches it already has are another matter. A publisher
claims the oldest row that is due and sends it to the queue the row names; that
the pool behind the queue is gone is recorded in a table it does not read.

So everything is decided at the claim. If no row that a claim may take goes to
the queue of a revoked pool, no call that starts after the revocation sends
anything there; and if one does, the claim is two steps away from sending it.
-/

namespace WatchTrace.Proofs

open Tx Model Spec

variable {P : Primitives} {queue : String}

/-- The rows a claim may take: due, not owned by another transaction, and the
oldest of those. -/
def takeable (now : Time) (busy : Key → Bool) (l : Ledger) : List (Uuid × Dispatch) :=
  oldestOf (l.outbox.rows.filter fun e => e.2.claimable now && !busy (.dispatch e.1))

/-- The job queue of a revoked pool. -/
def RetiredQueue (db : Database) (queue : String) : Prop :=
  ∃ id pool, db.core.pools.find id = some pool ∧ pool.lifecycleState = .revoked ∧
    pool.jobQueueUrl = some queue

/-- A publisher whose transaction has begun: its next step is the claim. -/
def claiming (begun : Env) : Process Database Key Env Call :=
  ⟨(publishNext >>= fun _ => pure ()).begun, .active (.fresh begun)⟩

/-- The next step is a send to the queue. -/
def Sending (queue : String) (p : Process Database Key Env Call) : Prop :=
  ∃ input k, p.prog = .call (.send input) k ∧ input.queueUrl = queue

/-- Every call but a send to the queue. -/
def Elsewhere (queue : String) : {β : Type} → Call β → Prop
  | _, .send input => input.queueUrl ≠ queue
  | _, _ => True

/-- The calls around a revocation: those that create, publish and reclaim
dispatches, the transitions, and any others that send nothing. -/
inductive Dispatching (P : Primitives) : Prog Unit → Prop
  | scheduleDue (platformKeyId : String) (batch : Nat) :
      Dispatching P (scheduleDue P platformKeyId batch >>= fun _ => pure ())
  | testNow (signingKeyId : String) (userId environmentId monitorId : Uuid) :
      Dispatching P (testNow P signingKeyId userId environmentId monitorId >>= fun _ => pure ())
  | publishNext : Dispatching P (publishNext >>= fun _ => pure ())
  | transition (id : String) (target : PoolState) (actor reason : String) :
      Dispatching P (transition id target actor reason >>= fun _ => pure ())
  | reclaimPublisherLeases : Dispatching P (reclaimPublisherLeases >>= fun _ => pure ())
  | silent (p : Prog Unit) (hp : ∀ queue, p.Calls (Elsewhere queue)) : Dispatching P p

/-- A step after the state `s₁`: if it is the claim of a call started since, no
row it may take goes to the queue of a pool that was revoked then. -/
def Cleared (s₁ s : System) : Act Database Key Env Call → Prop
  | .step i _ _ => s₁.procs.length ≤ i → ∀ begun, s.procs[i]? = some (claiming begun) →
      ∀ e ∈ takeable begun.now (s.busy i) s.db.ledger, ¬RetiredQueue s₁.db e.2.payload.queueUrl
  | _ => True

/-- The run of a machine all of whose claims are cleared. -/
def ClearedRun (P : Primitives) (s₁ : System) : System → System → Prop :=
  Relation.ReflTransGen fun s s' =>
    ∃ a, a.within (Dispatching P) ∧ s.step remote a = some s' ∧ Cleared s₁ s a

/-! ## Calls that send nothing -/

theorem sealedPayload_calls (job : Job) (url : String) :
    (sealedPayload P job url).Calls (Elsewhere queue) := by
  simp [sealedPayload, sealJob, clock, Elsewhere]

theorem scheduleMonitor_calls (platformKeyId : String) (now : Time)
    (outstanding : Nat) (m : DueMonitor) :
    (scheduleMonitor P platformKeyId now outstanding m).Calls (Elsewhere queue) := by
  unfold scheduleMonitor
  split
  · split
    · simp [recordAdmissionLimit]
    split
    · trivial
    split
    · refine Prog.calls_then Prog.calls_query (fun jobId => ?_) fun _ => trivial
      refine Prog.calls_then (by simp [recordMissed]) (fun scheduledAt => ?_) fun _ => trivial
      dsimp only
      split
      · refine Prog.calls_bind (sealedPayload_calls _ _) fun sealed => ?_
        cases sealed <;> simp [insertScheduled]
      · trivial
    · trivial
  · trivial

theorem scheduleMonitors_calls (platformKeyId : String) (now : Time) :
    ∀ (due : List DueMonitor) (outstanding created : Nat),
      (scheduleMonitors P platformKeyId now outstanding created due).Calls (Elsewhere queue) := by
  intro due
  induction due with
  | nil => exact fun _ _ => trivial
  | cons m rest ih =>
    intro outstanding created
    refine Prog.calls_then (scheduleMonitor_calls platformKeyId now _ m) ?_ fun _ => trivial
    simp [ih]

theorem scheduleDue_calls (platformKeyId : String) (batch : Nat) :
    (scheduleDue P platformKeyId batch).Calls (Elsewhere queue) := by
  unfold scheduleDue
  split
  · trivial
  refine Prog.calls_then Prog.calls_start (fun _ => ?_) fun _ => trivial
  refine Prog.calls_then Prog.calls_query (fun outstanding => ?_) fun _ => trivial
  refine Prog.calls_then Prog.calls_query (fun now => ?_) fun _ => trivial
  refine Prog.calls_then Prog.calls_query (fun due => ?_) fun _ => trivial
  exact Prog.calls_then (scheduleMonitors_calls platformKeyId now due outstanding 0) (by simp)
    fun _ => trivial

theorem testNow_calls (signingKeyId : String) (userId environmentId monitorId : Uuid) :
    (testNow P signingKeyId userId environmentId monitorId).Calls
      (Elsewhere queue) := by
  refine Prog.calls_then Prog.calls_start (fun _ => ?_) fun _ => trivial
  refine Prog.calls_then (by simp [lockManaged]) (fun monitor => ?_) fun _ => trivial
  refine Prog.calls_then (by simp [admitManualTest]) (fun _ => ?_) fun _ => trivial
  refine Prog.calls_then Prog.calls_query (fun found => ?_) fun _ => trivial
  cases found with
  | none => trivial
  | some pool =>
  dsimp only
  split
  · trivial
  split
  · refine Prog.calls_then Prog.calls_query (fun jobId => ?_) fun _ => trivial
    refine Prog.calls_then Prog.calls_query (fun scheduledAt => ?_) fun _ => trivial
    refine Prog.calls_bind (sealedPayload_calls _ _) fun sealed => ?_
    cases sealed <;> simp
  · trivial

theorem transition_calls (id : String) (target : PoolState) (actor reason : String) :
    (transition id target actor reason).Calls (Elsewhere queue) := by
  unfold transition
  split <;> simp [auditAndCommit, audit]

theorem reclaimEach_calls : ∀ (ids : List Uuid) (count : Nat),
    (reclaimEach ids count).Calls (Elsewhere queue) := by
  intro ids
  induction ids with
  | nil => simp [reclaimEach]
  | cons jobId rest ih => simp [reclaimEach, ih]

theorem reclaimPublisherLeases_calls :
    reclaimPublisherLeases.Calls (Elsewhere queue) := by
  refine Prog.calls_then Prog.calls_start (fun _ => ?_) fun _ => trivial
  exact Prog.calls_then (by simp [reclaimDispatchPublisherLeases, reclaimEach_calls]) (by simp)
    fun _ => trivial

/-! ## A publisher, step by step -/

variable {begun env : Env} {busy : Key → Bool} {db : Database}

variable {e : Effect Database Key (Option (Uuid × Dispatch))}

/-- A claim answers nothing, or a row it may take. -/
theorem claimDispatchOutbox_takes (h : claimDispatchOutbox begun env busy db = some e) :
    e.value = none ∨ ∃ x ∈ takeable begun.now busy db.ledger,
      e.value = some (x.1, x.2.claimed env.uuid begun.now) := by
  obtain ⟨e', he', rfl⟩ := onLedger_some h
  dsimp only at he'
  split at he'
  · cases he'
    exact .inl rfl
  next j row hget =>
  refine .inr ⟨(j, row), List.mem_of_getElem? hget, ?_⟩
  simp only [updateDispatch] at he'
  split at he'
  · cases he'
    rfl
  · cases he'

theorem recordSend_calls (jobId token : Uuid) (attempts : Nat) (outcome : Except Unit String) :
    (recordSend jobId token attempts outcome).Calls (Elsewhere queue) := by
  cases outcome <;> simp [recordSend]

/-- What follows the claim sends to the queue of the row and to no other. -/
theorem sendClaimed_calls {jobId token : Uuid} {row : Dispatch} (h : row.payload.queueUrl ≠ queue) :
    (sendClaimed jobId token row).Calls (Elsewhere queue) := by
  refine Prog.calls_bind (Prog.calls_call h) fun outcome => ?_
  refine Prog.calls_then Prog.calls_start (fun _ => ?_) fun _ => trivial
  refine Prog.calls_then (recordSend_calls _ _ _ _) ?_ fun _ => trivial
  cases outcome <;> simp

theorem expireClaimed_calls (jobId token : Uuid) :
    (expireClaimed jobId token).Calls (Elsewhere queue) := by
  simp [expireClaimed]

/-- A call that will not send to the queue, as far as it has got: a publisher
has nothing decided before its claim. -/
def Restrained (queue : String) (p : Process Database Key Env Call) : Prop :=
  p.prog.Calls (Elsewhere queue) ∨ p.prog = (publishNext >>= fun _ => pure ()) ∨
    ∃ begun, p = claiming begun

variable {p : Process Database Key Env Call}

theorem Restrained.not_sending (h : Restrained queue p) : ¬Sending queue p := by
  rintro ⟨input, k, hprog, hqueue⟩
  rcases h with hcalls | hstart | ⟨begun, rfl⟩
  · rw [hprog] at hcalls
    exact hcalls.1 hqueue
  · rw [hprog] at hstart
    cases hstart
  · cases hprog

theorem restrained_of_dispatching {p : Prog Unit} (h : Dispatching P p) :
    Restrained queue ⟨p, .idle⟩ := by
  have hleft : ∀ {α : Type} {q : Prog α}, q.Calls (Elsewhere queue) →
      Restrained queue ⟨q >>= fun _ => pure (), .idle⟩ := fun hq =>
    .inl (Prog.calls_bind hq fun _ => trivial)
  cases h with
  | scheduleDue platformKeyId batch => exact hleft (scheduleDue_calls _ _)
  | testNow signingKeyId userId environmentId monitorId => exact hleft (testNow_calls _ _ _ _)
  | publishNext => exact .inr (.inl rfl)
  | transition id target actor reason => exact hleft (transition_calls _ _ _ _)
  | reclaimPublisherLeases => exact hleft reclaimPublisherLeases_calls
  | silent p hp => exact .inl (hp queue)

/-- The rest of a publisher once its claim has been answered. -/
theorem claimed_calls {k : Except Fault (Option (Uuid × Dispatch)) → Prog Unit}
    (hk : (claiming begun).prog = .query claimDispatchOutbox k)
    (he : claimDispatchOutbox begun env busy db = some e)
    (hclear : ∀ x ∈ takeable begun.now busy db.ledger, x.2.payload.queueUrl ≠ queue) :
    (k (.ok e.value)).Calls (Elsewhere queue) := by
  cases hk
  rcases claimDispatchOutbox_takes he with hnone | ⟨x, hx, hsome⟩
  · rw [hnone]
    trivial
  · rw [hsome]
    refine ⟨trivial, fun now => Prog.calls_bind ?_ fun _ => trivial⟩
    simp only [Prog.bind]
    split
    · exact expireClaimed_calls _ _
    · refine Prog.calls_then Prog.calls_commit (fun _ => ?_) fun _ => trivial
      exact sendClaimed_calls (hclear x hx)

variable {i : Nat}

variable {w : World}

/-- One step of a restrained call. Only the claim has something to decide. -/
theorem Restrained.step {fate : Fate} {p' : Process Database Key Env Call} {db' : Database}
    {w' : World} (h : Restrained queue p) (hclear : ∀ begun, p = claiming begun →
      ∀ x ∈ takeable begun.now busy db.ledger, x.2.payload.queueUrl ≠ queue)
    (hstep : advance remote i busy env fate db w p = some (p', db', w')) :
    Restrained queue p' := by
  obtain ⟨prog, ses⟩ := p
  rcases h with hcalls | hstart | ⟨begun, heq⟩
  · exact .inl (hcalls.advance hstep)
  · cases hstart
    cases fate with
    | done =>
      cases hstep
      exact .inr (.inr ⟨env, rfl⟩)
    | failed | lost =>
      cases hstep
      exact .inl trivial
  · have hrows := hclear begun heq
    cases heq
    obtain ⟨⟨r, ses⟩, hr, heq⟩ := Option.map_eq_some_iff.mp hstep
    cases heq
    refine .inl ?_
    rcases stepQuery_cases hr with ⟨f, hf⟩ | ⟨e, he, hv⟩
    · cases hf
      trivial
    · cases hv
      exact claimed_calls rfl he hrows

/-! ## Runs -/

/-- What the calls started since `s₁` are like in a state. -/
def AllRestrained (queue : String) (s₁ s : System) : Prop :=
  ∀ i p, s₁.procs.length ≤ i → s.procs[i]? = some p → Restrained queue p

variable {s₁ s : System}

theorem AllRestrained.set (h : AllRestrained queue s₁ s)
    (hp : s₁.procs.length ≤ i → Restrained queue p) :
    AllRestrained queue s₁ { db := db, world := w, procs := s.procs.set i p } := by
  intro j p' hj hp'
  by_cases hij : i = j
  · subst hij
    rw [List.getElem?_set_self'] at hp'
    obtain ⟨_, -, rfl⟩ := Option.map_eq_some_iff.mp hp'
    exact hp hj
  · rw [List.getElem?_set_ne hij] at hp'
    exact h j p' hj hp'

theorem AllRestrained.step {s' : System} {a : Act Database Key Env Call}
    (hqueue : RetiredQueue s₁.db queue) (h : AllRestrained queue s₁ s)
    (hwithin : a.within (Dispatching P)) (hstep : s.step remote a = some s')
    (hclear : Cleared s₁ s a) : AllRestrained queue s₁ s' := by
  obtain ⟨p, rfl, rfl⟩ | ⟨i, rfl, rfl⟩ | ⟨i, env, fate, p, p', db, w, rfl, hp, hadv, rfl⟩ :=
    Sys.step_cases hstep
  · intro j p' hj hp'
    by_cases hlt : j < s.procs.length
    · rw [List.getElem?_append_left hlt] at hp'
      exact h j p' hj hp'
    · rw [List.getElem?_append_right (by omega)] at hp'
      rw [List.mem_singleton.mp (List.mem_of_getElem? hp')]
      exact restrained_of_dispatching hwithin
  · exact h.set fun _ => .inl trivial
  · refine h.set fun hi => (h i p hi hp).step (fun begun heq x hx hx' => ?_) hadv
    rw [heq] at hp
    exact hclear hi begun hp x hx (hx' ▸ hqueue)

theorem AllRestrained.run (hqueue : RetiredQueue s₁.db queue) (hrun : ClearedRun P s₁ s₁ s) :
    AllRestrained queue s₁ s := by
  induction hrun with
  | refl =>
    intro i p hi hp
    have := (List.getElem?_eq_some_iff.mp hp).1
    omega
  | tail _ hlast ih =>
    obtain ⟨a, hwithin, hstep, hclear⟩ := hlast
    exact ih.step hqueue hwithin hstep hclear

variable {x : Uuid × Dispatch}

/-- A claim whose choice falls on the row. -/
theorem claimDispatchOutbox_taken (hx : (takeable begun.now busy db.ledger)[env.pick]? = some x) :
    claimDispatchOutbox begun env busy db =
        some (ledgerEffect (claimEffect x.1 x.2 env.uuid begun.now)) ∧
      busy (.dispatch x.1) = false := by
  have hrow := (List.mem_filter.mp (List.mem_filter.mp (List.mem_of_getElem? hx)).1).2
  simp only [Bool.and_eq_true, Bool.not_eq_true'] at hrow
  have hattempts : x.2.publishAttempts + 1 ≤ 3 := (claimable_iff.mp hrow.1).2.1
  have hpick : (takeable begun.now busy db.ledger)[env.pick %
      (takeable begun.now busy db.ledger).length]? = some x := by
    rw [Nat.mod_eq_of_lt (List.getElem?_eq_some_iff.mp hx).1]
    exact hx
  refine ⟨?_, hrow.2⟩
  unfold takeable at hpick
  simp only [claimDispatchOutbox, onLedger, Stmt.zoom, hpick, updateDispatch]
  rw [if_pos ⟨rfl, hattempts⟩]
  rfl

/-- A row that a claim may take can be sent: the claim takes it, the clock says
that it has not expired, and the claim is committed. -/
theorem sends_taken (hp : s.procs[i]? = some (claiming begun))
    (hx : x ∈ takeable begun.now (s.busy i) s.db.ledger) :
    ∃ s' p, Steps remote (Dispatching P) s s' ∧ s'.procs[i]? = some p ∧
      Sending x.2.payload.queueUrl p := by
  obtain ⟨n, hn⟩ := List.mem_iff_getElem?.mp hx
  let env : Env := { begun with pick := n, wall := x.2.payload.expiresAt }
  obtain ⟨hclaim, hfree⟩ := claimDispatchOutbox_taken
    (show (takeable begun.now (s.busy i) s.db.ledger)[env.pick]? = some x from hn)
  have hquery := stepQuery_done (o := (Open.fresh begun : Transaction)) hclaim
    (by simpa [ledgerEffect, claimEffect, Effect.zoom] using hfree)
  have hadv : advance remote i (s.busy i) env .done s.db s.world (claiming begun) =
      some (_, _, _) := Option.map_eq_some_iff.mpr ⟨_, hquery, rfl⟩
  obtain ⟨s₁, hstep₁, hp₁⟩ := Step.of_advance (F := Dispatching P) hp hadv
  obtain ⟨s₂, hstep₂, hp₂⟩ := Step.of_advance (F := Dispatching P) hp₁
    (show advance remote i (s₁.busy i) env .done s₁.db s₁.world _ = some (_, _, _) from rfl)
  have hintime : ¬(x.2.claimed env.uuid begun.now).payload.expiresAt < env.wall :=
    Int.lt_irrefl _
  simp only [Prog.bind, show remote.answer env Call.now = env.wall from rfl, if_neg hintime] at hp₂
  obtain ⟨s₃, hstep₃, hp₃⟩ := Step.of_advance (F := Dispatching P) hp₂
    (show advance remote i (s₂.busy i) env .done s₂.db s₂.world _ = some (_, _, _) from rfl)
  exact ⟨s₃, _, ((Relation.ReflTransGen.single hstep₁).tail hstep₂).tail hstep₃, hp₃,
    _, _, rfl, rfl⟩

/-! ## The law, and where it fails -/

/-- In every run after the revocation whose claims are cleared, no call that
started since is ever about to send to the queue; and a claim that is not
cleared may end with a send to it. -/
theorem retired_queue_quiet {s₁ s : System} (hrun : ClearedRun P s₁ s₁ s)
    (hqueue : RetiredQueue s₁.db queue) {i : Nat} (hi : s₁.procs.length ≤ i)
    {p : Process Database Key Env Call} (hp : s.procs[i]? = some p) :
    ¬Sending queue p ∧ ∀ begun, p = claiming begun →
        (∃ x ∈ takeable begun.now (s.busy i) s.db.ledger, x.2.payload.queueUrl = queue) →
        ∃ s' p', Steps remote (Dispatching P) s s' ∧ s'.procs[i]? = some p' ∧
          Sending queue p' := by
  constructor
  · exact (AllRestrained.run hqueue hrun i p hi hp).not_sending
  · rintro begun rfl ⟨x, hx, rfl⟩
    exact sends_taken hp hx

namespace Sample

/-- One pool is revoked; the monitor's job waits in the outbox of another. -/
def retiredPool : Database :=
  after (scheduleDue primitives "platform" 1) 60
    ⟨Ledger.empty, { core with
      pools := core.pools.put "old" { pool with
        enabled := false, lifecycleState := .revoked
        jobQueueUrl := some "retired" } }, Journal.empty⟩

/-- Every row of the outbox goes to the active pool. -/
def onlyQueue (db : Database) : Bool :=
  db.ledger.outbox.rows.all fun e => e.2.payload.queueUrl == "queue"

theorem retiredQueue_of_find (id : String)
    (h : (db.core.pools.find id).map (fun p => (p.lifecycleState, p.jobQueueUrl)) =
      some (.revoked, some queue)) : RetiredQueue db queue := by
  obtain ⟨pool, hpool, heq⟩ := Option.map_eq_some_iff.mp h
  exact ⟨id, pool, hpool, congrArg Prod.fst heq, congrArg Prod.snd heq⟩

theorem not_retiredQueue : ¬RetiredQueue retiredPool "queue" := by
  rintro ⟨id, pool, hpool, hstate, hurl⟩
  have hall : ∀ e ∈ retiredPool.core.pools.rows, e.2.lifecycleState = .revoked →
      e.2.jobQueueUrl ≠ some "queue" := by
    decide +kernel
  exact hall (id, pool) (Table.mem_rows.mpr hpool) hstate hurl

end Sample

open Sample

theorem retired_queue_quiet_sample : ∃ s p, ClearedRun primitives (.quiet retiredPool World.empty)
      (.quiet retiredPool World.empty) s ∧
    s.world.sends.map SendInput.queueUrl = ["queue"] ∧
    RetiredQueue retiredPool "retired" ∧ s.procs[0]? = some p ∧
    ¬Sending "retired" p := by
  let acts : Script := .spawn (publishNext >>= fun _ => pure ()) :: steps 0 (moment 61 12 21) 5
  have hacts : ∀ a ∈ acts, a.within (Dispatching primitives) :=
    List.forall_mem_cons.mpr ⟨.publishNext, steps_within _ _ _ _⟩
  have hend : (((Sys.quiet retiredPool World.empty).runWhere remote
      (fun db _ => onlyQueue db) acts).map fun s =>
        (s.world.sends.map SendInput.queueUrl, s.procs.length)) =
      some (["queue"], 1) := by
    decide +kernel
  obtain ⟨s, hs, heq⟩ := Option.map_eq_some_iff.mp hend
  have hrun : ClearedRun primitives (.quiet retiredPool World.empty)
      (.quiet retiredPool World.empty) s := by
    refine Relation.ReflTransGen.mono ?_ _ _ (Sys.runWhere_steps hacts hs)
    rintro t t' ⟨⟨a, hwithin, hstep⟩, htest⟩
    refine ⟨a, hwithin, hstep, ?_⟩
    cases a with
    | spawn | crash => trivial
    | step i env fate =>
    intro _ begun _ e he
    have hrow := (List.mem_filter.mp (List.mem_filter.mp he).1).1
    rw [beq_iff_eq.mp (List.all_eq_true.mp htest e hrow)]
    exact not_retiredQueue
  have hretired : RetiredQueue retiredPool "retired" :=
    retiredQueue_of_find "old" (by decide +kernel)
  obtain ⟨p, hp⟩ : ∃ p, s.procs[0]? = some p := by
    have hlen : s.procs.length = 1 := congrArg Prod.snd heq
    exact ⟨_, List.getElem?_eq_getElem (by omega)⟩
  exact ⟨s, p, hrun, congrArg Prod.fst heq, hretired, hp,
    (retired_queue_quiet hrun hretired (Nat.zero_le _) hp).1⟩

/-- A job of the pool was waiting when the pool was revoked, and the publisher
that starts a second later sends it to the pool's queue. -/
theorem retired_queue_served : RetiredQueue revokedPool "queue" ∧
    (publishNext.solo remote 0 (fun _ => moment 62 12 21) 0 .idle
      revokedPool World.empty).2.2.sends.map SendInput.queueUrl = ["queue"] := by
  constructor
  · exact retiredQueue_of_find "pool" (by decide +kernel)
  · decide +kernel

end WatchTrace.Proofs
