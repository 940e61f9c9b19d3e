import WatchTrace.Proofs.Publisher

/-!
# Sweeping and reconciling keep to the protocol

Both end jobs that have no result. A sweep owns every job it expires from the
update to the commit, so the gap it opens is its own to open; a dead letter
does the same for one job. A dead result only ever adds to the quarantine.
-/

namespace WatchTrace.Proofs

open Tx Model Spec Protocol

variable {P : Primitives} {i : Nat} {x : State} {j : Uuid}
variable {o : Open Database Key Env} {begun env : Env} {busy : Key → Bool}

/-! ## `SweepDeadlines` -/

theorem overdue_open {job : CheckJob} {now : Time}
    (h : job.overdue now = true) : job.state ≠ .completed := by
  intro hc
  simp only [CheckJob.overdue, hc, Bool.and_eq_true] at h
  cases h.1

/-- A job that is swept is expired in what the transaction sees, and owned. -/
theorem expireOverdueJob_some {e : Effect Database Key (Option CheckJob)} (h : Draft o x)
    (he : expireOverdueJob j begun env busy (o.write x.1) = some e) :
    Draft (o.extend e) x ∧
    ∀ job, e.value = some job → Key.job j ∈ e.locks ∧
      ∀ db, ∃ job', ((o.extend e).write db).ledger.jobs.find j = some job' ∧
        job'.slot = job.slot ∧ job'.state ≠ .completed := by
  obtain ⟨e', he', rfl⟩ := onLedger_some he
  split at he'
  · cases he'
    exact ⟨h.still fun _ => rfl, fun _ hv => by cases hv⟩
  next job hfind =>
  split at he'
  · next hdue =>
    cases he'
    have hne := overdue_open hdue
    refine ⟨h.putJob hfind rfl (.inr (.inr ⟨hne, .inl rfl⟩)) hne (by intro hc; cases hc), ?_⟩
    intro job₀ hv
    cases hv
    refine ⟨List.mem_singleton.mpr rfl, fun db => ?_⟩
    exact ⟨_, Table.find_put _ _ _, rfl, by intro hc; cases hc⟩
  · cases he'
    exact ⟨h.still fun _ => rfl, fun _ hv => by cases hv⟩

theorem sweepEach_holds : ∀ (ids : List Uuid) (count : Nat)
    {o : Open Database Key Env} {x : State}, Draft o x →
    (fifo P).Holds remote Failed (fun _ o y => Draft o y) (sweepEach ids count) o x := by
  intro ids
  induction ids with
  | nil => exact fun _ _ _ h => h
  | cons j rest ih =>
    intro count o x h
    refine holds_draft h (fun _ _ _ he => (expireOverdueJob_some h he).1)
      (fun _ _ e he y hy _ => ?_) fun _ => ⟨_, rfl⟩
    have hswept := (expireOverdueJob_some h he).2
    dsimp only
    cases hv : e.value with
    | none => exact ih _ hy
    | some job =>
    obtain ⟨hlock, hjob⟩ := hswept job hv
    obtain ⟨job', hfind, hslot, hs⟩ := hjob y.1
    refine holds_draft hy (fun _ _ _ he => hy.gap (fun _ => ?_) he)
      (fun _ _ _ _ z hz _ => ih _ hz) fun _ => ⟨_, rfl⟩
    exact ⟨j, job', hfind, hslot, .inl ⟨List.mem_append_left _ hlock, hs⟩⟩

theorem sweepDeadlines_meets (hx : WellFormed x.1.ledger) :
    (fifo P).Meets remote i sweepDeadlines .idle .idle x := by
  refine meets_start (fun env y hy => ?_) fun y _ => meets_ret
  have hd := Draft.fresh env (hy hx).1
  have hbody : (fifo P).Holds remote Failed (fun _ o z => Draft o z)
      sweepExpiredCheckJobs (.fresh env) y := by
    refine holds_draft hd (fun _ _ e he => ?_)
      (fun _ _ e he z hz _ => sweepEach_holds _ _ hz) fun _ => ⟨_, rfl⟩
    obtain ⟨e', he', rfl⟩ := onLedger_some he
    cases he'
    exact hd.still fun _ => rfl
  refine meets_attempt Move.stays hbody (fun _ _ _ => meets_ret)
    fun _ o' z hz => meets_commit_draft hz fun r u _ => ?_
  cases r <;> exact meets_ret

/-! ## The job queue -/

variable {jobId : IdText} {pool : String}

theorem markCheckJobDead_some {e : Effect Database Key Nat} (h : Draft o x)
    (he : markCheckJobDead jobId pool begun env busy (o.write x.1) = some e) :
    Draft (o.extend e) x ∧
    (e.value ≠ 0 → ∃ id, jobId.toUuid? = some id ∧ Key.job id ∈ e.locks ∧
      ∀ db job, ((o.extend e).write db).ledger.jobs.find id = some job →
        job.state ≠ .completed) := by
  obtain ⟨e', he', rfl⟩ := onLedger_some he
  split at he'
  · cases he'
  next id hid =>
  split at he'
  · cases he'
    exact ⟨h.still fun _ => rfl, fun hv => absurd rfl hv⟩
  next job hfind =>
  split at he'
  · next hguard =>
    cases he'
    refine ⟨h.putJob hfind rfl (.inr (.inr ⟨hguard.2, .inr (.inl rfl)⟩)) hguard.2
      (by intro hc; cases hc), fun _ => ?_⟩
    refine ⟨id, hid, List.mem_singleton.mpr rfl, ?_⟩
    intro db job' hjob'
    replace hjob' := (Table.find_put _ _ _).symm.trans hjob'
    cases hjob'
    intro hc
    cases hc
  · cases he'
    exact ⟨h.still fun _ => rfl, fun hv => absurd rfl hv⟩

theorem reconcileJobDLQ_meets (hx : WellFormed x.1.ledger) :
    (fifo P).Meets remote i (reconcileJobDLQ jobId pool) .idle .idle x := by
  refine meets_start (fun env y hy => ?_) fun y _ => meets_ret
  have hd := Draft.fresh env (hy hx).1
  refine meets_draft hd (fun _ _ _ he => (markCheckJobDead_some hd he).1)
    (fun _ _ e he z hz _ => ?_) fun f z => meets_ret
  have hdead := (markCheckJobDead_some hd he).2
  show (fifo P).Meets remote i (if e.value = 0 then _ else _) _ _ _
  split
  · exact meets_commit_draft hz fun r u _ => by cases r <;> exact meets_ret
  next hne =>
  obtain ⟨id, hid, hlock, hstate⟩ := hdead hne
  refine meets_draft hz (fun _ _ e' he' => ?_) (fun _ _ _ _ u hu _ => ?_) ?_
  · unfold insertDeadCoverageGapFromJob at he'
    rw [hid] at he'
    refine hz.gapFromJob (fun job hjob => .inl ⟨?_, hstate _ _ hjob⟩) he'
    exact List.mem_append_left _ hlock
  · refine meets_draft hu (fun _ _ _ he => hu.still (onJournal_ledger he))
      (fun _ _ _ _ v hv _ => meets_commit_draft hv fun r w _ => ?_)
      fun f v => meets_commit_failed fun _ _ => meets_ret
    cases r <;> exact meets_ret
  · -- the statements that follow a failed one fail as well
    intro f u
    refine meets_query_failed fun f' v _ => ?_
    exact meets_commit_failed fun _ _ => meets_ret

/-! ## The result queue -/

theorem quarantineResult_holds {peeked : Option Result} {payload : SealedPayload} (h : Draft o x) :
    (fifo P).Holds remote Failed (fun _ o y => Draft o y)
      (quarantineResult peeked payload) o x := by
  cases peeked with
  | none =>
    refine holds_draft (k := pure) h (fun _ _ e he => ?_)
      (fun _ _ _ _ y hy _ => hy) fun _ => ⟨_, rfl⟩
    obtain ⟨e', he', rfl⟩ := onLedger_some he
    cases he'
    exact h.quarantine rfl
  | some result =>
  refine holds_draft h (fun _ _ e he => ?_) (fun _ _ _ _ y hy _ => ?_) fun _ => ⟨_, rfl⟩
  · obtain ⟨e', he', rfl⟩ := onLedger_some he
    repeat' split at he'
    all_goals cases he'
    · exact h.still fun _ => rfl
    · exact h.quarantine rfl
  · exact holds_draft (k := pure) hy (fun _ _ _ he => hy.still (onJournal_ledger he))
      (fun _ _ _ _ z hz _ => hz) fun _ => ⟨_, rfl⟩

theorem sealPayload_fails (plain : Bytes) (associated : String × Option IdText) :
    Prog.Fails remote (fun _ => True) (sealPayload plain associated) := by
  unfold sealPayload
  dsimp only
  repeat' split
  all_goals first
    | trivial
    | refine Prog.fails_call (fun _ _ _ => rfl) fun drawn => ?_
      cases drawn with
      | none | some => trivial

variable {d : DLQDelivery}

theorem reconcileResultDLQ_meets (hx : WellFormed x.1.ledger) :
    (fifo P).Meets remote i (reconcileResultDLQ P d) .idle .idle x := by
  refine meets_outside (sealPayload_fails _ _) hx fun r y hy => ?_
  cases r with
  | error failure => exact meets_ret
  | ok sealed =>
  refine meets_start (fun env z hz => ?_) fun z _ => meets_ret
  have hd := Draft.fresh env (hz hy).1
  refine meets_attempt Move.stays (quarantineResult_holds hd) (fun _ _ _ => meets_ret)
    fun _ o' u hu => meets_commit_draft hu fun r w _ => ?_
  cases r <;> exact meets_ret

/-! ## `ReconcileNext` -/

theorem acknowledgeDLQ_meets (r : Except Failure Unit) (ses : Session Database Key Env)
    (a : Local) (y : State) :
    (fifo P).Meets remote i (acknowledgeDLQ d r) ses a y := by
  cases r with
  | error failure => exact meets_ret
  | ok u =>
  refine meets_unseen (fun _ _ _ => rfl) fun ok z _ => ?_
  cases ok with
  | false | true => exact meets_ret

theorem reconcileNext_meets (hx : WellFormed x.1.ledger) :
    (fifo P).Meets remote i (reconcileNext P) .idle .idle x := by
  refine meets_unseen (fun _ _ _ => rfl) fun pulled y hy => ?_
  have hwf := (hy hx).1
  cases pulled with
  | failed => exact meets_ret
  | message d => exact (reconcileJobDLQ_meets hwf).andThen acknowledgeDLQ_meets
  | noMessage =>
  refine meets_unseen (fun _ _ _ => rfl) fun pulled z hz => ?_
  cases pulled with
  | failed | noMessage => exact meets_ret
  | message d => exact (reconcileResultDLQ_meets (hz hwf).1).andThen acknowledgeDLQ_meets

end WatchTrace.Proofs
