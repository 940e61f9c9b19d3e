import WatchTrace.Proofs.Incidents
import WatchTrace.Proofs.Outbox

/-!
# The order of arrival does not matter

An acceptance inserts its check first and locks the state row of the monitor
later. In between, other acceptances commit, and their results may lie before
or behind the one at hand. What saves the evaluation is that it lists the
checks after it has the lock: from then on nobody else can commit, and the
rows are a history of everything but its own result.

The protocol of this file has one kind of move, from rows that are up to date
to rows that are up to date.
-/

namespace WatchTrace.Proofs

open Tx Tx.Prog Model Spec Protocol

variable {m : Uuid} {lim : Limits}

/-! ## A new check -/

/-- `v` is `db` with one more check. -/
structure Inserted (j : Uuid) (row : HealthCheck) (db v : Database) : Prop where
  core : v.core = db.core
  checks : v.ledger.checks = db.ledger.checks.put j row

/-- The result a check is about. -/
def HealthCheck.result (row : HealthCheck) (j : Uuid) : ObservedResult :=
  ⟨j, row.scheduledAt, row.succeeded⟩

variable {r : ObservedResult}

section Inserted

variable {j : Uuid} {row : HealthCheck} {db v : Database}

theorem Inserted.mem (h : Inserted j row db v) (hfree : db.ledger.checks.find j = none)
    (hm : row.monitorId = m) (ht : row.jobType = .scheduled) :
    r ∈ scheduledChecks v.ledger m ↔
      r ∈ scheduledChecks db.ledger m ∨ r = HealthCheck.result row j := by
  rw [mem_scheduledChecks, mem_scheduledChecks, h.checks]
  constructor
  · rintro ⟨row', hfind, hm', ht', hr⟩
    rcases Table.find_put_some.mp hfind with ⟨hj, rfl⟩ | ⟨-, hfind⟩
    · right
      rw [hr, hj]
      rfl
    · exact .inl ⟨row', hfind, hm', ht', hr⟩
  · rintro (⟨row', hfind, hm', ht', hr⟩ | rfl)
    · have hne : r.jobId ≠ j := by
        intro heq
        rw [heq, hfree] at hfind
        cases hfind
      exact ⟨row', (Table.find_put_ne _ _ hne).trans hfind, hm', ht', hr⟩
    · exact ⟨row, Table.find_put _ _ _, hm, ht, rfl⟩

theorem Inserted.due (h : Inserted j row db v) (hup : UpToDate m lim db)
    (hfree : db.ledger.checks.find j = none) (hm : row.monitorId = m)
    (ht : row.jobType = .scheduled) :
    Due m lim (some ⟨j, row.scheduledAt⟩) v := by
  refine ⟨fun j' e hfind => ?_, scheduledChecks db.ledger m,
    ascending_scheduledChecks _ _, ?_, ?_, ?_⟩
  · rw [h.core] at hfind
    obtain ⟨row', hcheck, hmon⟩ := hup.rooted j' e hfind
    have hne : j' ≠ j := by
      intro heq
      rw [heq, hfree] at hcheck
      cases hcheck
    refine ⟨row', ?_, hmon⟩
    rw [h.checks]
    exact (Table.find_put_ne _ _ hne).trans hcheck
  · rw [h.core]
    exact hup.evaluated
  · exact fun r hr => (h.mem hfree hm ht).mpr (.inl hr)
  · intro r hr
    rcases (h.mem hfree hm ht).mp hr with hr | rfl
    · exact .inl hr
    · exact .inr ⟨_, rfl, rfl⟩

end Inserted

variable {begun env : Env} {busy : Key → Bool} {v : Database} {j : Uuid} {result : Result}
variable {e : Effect Database Key Unit}

theorem insertAcceptedHealthCheck_inserted {job : CheckJob}
    (he : insertAcceptedHealthCheck j job result begun env busy v = some e) :
    ∃ resultId attemptId, v.ledger.checks.find j = none ∧ Key.check j ∈ e.locks ∧
      ∀ db, Inserted j (acceptedRow job result resultId attemptId) db (e.write db) := by
  obtain ⟨e', he', rfl⟩ := onLedger_some he
  split at he'
  · next resultId attemptId _ _ =>
    dsimp only at he'
    split at he'
    · cases he'
    next hcond =>
    cases he'
    simp only [Bool.or_eq_true, not_or, Bool.not_eq_true] at hcond
    refine ⟨resultId, attemptId, ?_, List.mem_cons_self, fun db => ⟨rfl, rfl⟩⟩
    simpa using hcond.1.2
  · cases he'

/-- A write that touches neither the core nor a check. -/
def Steady (w : Database → Database) : Prop :=
  ∀ db, (w db).core = db.core ∧ (w db).ledger.checks = db.ledger.checks

theorem completeCheckJob_steady (he : completeCheckJob j result begun env busy v = some e) :
    Steady e.write := by
  obtain ⟨e', he', rfl⟩ := onLedger_some he
  split at he'
  · cases he'
  · cases he'
    exact fun db => ⟨rfl, rfl⟩
  · split at he'
    · cases he'
    · cases he'
      exact fun db => ⟨rfl, rfl⟩

theorem markDispatchRepaired_steady (he : markDispatchRepaired j begun env busy v = some e) :
    Steady e.write := by
  obtain ⟨e', he', rfl⟩ := onLedger_some he
  split at he'
  · cases he'
    exact fun db => ⟨rfl, rfl⟩
  split at he'
  · cases he'
    exact fun db => ⟨rfl, rfl⟩
  unfold updateDispatch at he'
  split at he'
  · cases he'
    exact fun db => ⟨rfl, rfl⟩
  · cases he'

theorem deleteRecoveredCoverageGaps_steady {t : Time}
    (he : deleteRecoveredCoverageGaps m t begun env busy v = some e) :
    Steady e.write := by
  obtain ⟨e', he', rfl⟩ := onLedger_some he
  cases he'
  exact fun db => ⟨rfl, rfl⟩

variable {row : HealthCheck} {db : Database}

theorem Inserted.steady (h : Inserted j row db v) {w : Database → Database} (hw : Steady w) :
    Inserted j row db (w v) :=
  ⟨(hw v).1.trans h.core, (hw v).2.trans h.checks⟩

/-! ## Undisturbed -/

variable {now : Time}

theorem evaluateAcceptedTx_eq {scheduled expires : Time} (hin : now ≤ expires + correctionWindow) :
    evaluateAcceptedTx m j scheduled expires now = evaluateTx m (some ⟨j, scheduled⟩) now :=
  if_neg (not_lt.mpr hin)

variable {job : LockedJob}

/-- In time, the follow-up is not the one of a late result. -/
theorem in_time (hin : now ≤ job.row.expiresAt + correctionWindow) :
    decide (job.row.expiresAt + 10 * minute < now) = false :=
  decide_eq_false (not_lt.mpr hin)

theorem evaluateScheduled_returns (hm : job.row.monitorId = m)
    (hin : now ≤ job.row.expiresAt + correctionWindow)
    (hdue : Due m lim (some ⟨job.id, job.row.scheduledAt⟩) v) :
    Returns remote begun (fun _ v' => ∃ corrected mid,
      EvaluatedFrom m lim (some ⟨job.id, job.row.scheduledAt⟩) v corrected mid ∧
      AppliedFrom m corrected mid v')
      (evaluateScheduled job now) v := by
  unfold evaluateScheduled
  rw [in_time hin, hm, evaluateAcceptedTx_eq hin]
  refine returns_bind (evaluateTx_returns hdue) (fun corrected mid hmid => ?_) (fun _ => ⟨_, rfl⟩)
  exact (applyScheduled_returns hm).mono fun _ v' h' => ⟨corrected, mid, hmid, h'⟩

/-- The slot of a result, for the evaluation that follows its acceptance. -/
def ObservedResult.slot (r : ObservedResult) : AcceptedSlot := ⟨r.jobId, r.scheduledAt⟩

/-- What an acceptance in time leaves: one more result, rows that are up to
date with it, and an application of the state it led to. -/
structure AcceptStep (m : Uuid) (lim : Limits) (v : Database) (r : ObservedResult)
    (v' : Database) : Prop where
  free : v.ledger.checks.find r.jobId = none
  results : ∀ r', r' ∈ scheduledChecks v'.ledger m ↔ r' ∈ scheduledChecks v.ledger m ∨ r' = r
  upToDate : UpToDate m lim v'
  rules : ∀ rule, v.core.rules.find m = some rule → v'.core.rules.find m = some rule
  applied : ∃ mid : Core, mid.incidents = v.core.incidents ∧
    mid.evaluations = v'.core.evaluations ∧ mid.states = v'.core.states ∧
    Applied m (correctionOf (snapshotOf v.core m) (some (ObservedResult.slot r))).isSome mid v'.core

theorem acceptStep_of_applied {v₁ mid v' : Database} {corrected : Bool}
    (hins : Inserted r.jobId row v v₁) (hfree : v.ledger.checks.find r.jobId = none)
    (hm : row.monitorId = m) (ht : row.jobType = .scheduled)
    (hr : HealthCheck.result row r.jobId = r)
    (hmid : EvaluatedFrom m lim (some (ObservedResult.slot r)) v₁ corrected mid)
    (h' : AppliedFrom m corrected mid v') : AcceptStep m lim v r v' := by
  have hledger : v'.ledger = v₁.ledger := h'.aside.ledger.trans hmid.beside.ledger
  have hcorrected := hmid.corrected
  rw [hins.core] at hcorrected
  refine ⟨hfree, fun r' => ?_, hmid.upToDate.aside h'.aside, fun rule hrule => ?_,
    mid.core, ?_, h'.aside.evaluations.symm, h'.aside.states.symm, ?_⟩
  · rw [hledger, hins.mem hfree hm ht, hr]
  · refine h'.rules rule ?_
    rw [hmid.beside.rules, hins.core]
    exact hrule
  · rw [hmid.beside.incidents, hins.core]
  · rw [← hcorrected]
    exact h'.applied

/-- The result of a scheduled job, as an acceptance stores it. -/
def observedResult (job : LockedJob) (result : Result) : ObservedResult :=
  ⟨job.id, job.row.scheduledAt, result.succeeded⟩

theorem acceptResult_returns (hup : UpToDate m lim v) (hm : job.row.monitorId = m)
    (ht : job.row.jobType = .scheduled) (hin : now ≤ job.row.expiresAt + correctionWindow) :
    Returns remote begun (fun _ v' => AcceptStep m lim v (observedResult job result) v')
      (acceptResult (pure now) job result) v := by
  refine returns_query (fun env busy e₁ he₁ => ?_) (fun _ => ⟨_, rfl⟩)
  obtain ⟨resultId, attemptId, hfree, -, hins₁⟩ :=
    insertAcceptedHealthCheck_inserted he₁
  refine returns_query (fun env busy e₂ he₂ => ?_) (fun _ => ⟨_, rfl⟩)
  refine returns_query (fun env busy e₃ he₃ => ?_) (fun _ => ⟨_, rfl⟩)
  refine returns_query (fun env busy e₄ he₄ => ?_) (fun _ => ⟨_, rfl⟩)
  have hins := (((hins₁ v).steady (completeCheckJob_steady he₂)).steady
    (markDispatchRepaired_steady he₃)).steady
    (deleteRecoveredCoverageGaps_steady he₄)
  generalize e₄.write (e₃.write (e₂.write (e₁.write v))) = v₁ at hins
  dsimp only
  rw [if_pos ht]
  refine returns_bind (evaluateScheduled_returns hm hin
    (hins.due hup hfree hm ht)) (fun _ v₂ h₂ => ?_) (fun _ => ⟨_, rfl⟩)
  obtain ⟨corrected, mid, hmid, happ⟩ := h₂
  refine returns_query (fun env busy e₅ he₅ => returns_ok ?_) (fun _ => ⟨_, rfl⟩)
  have happ' := happ.journaled (insertRefreshEvent_journaled he₅)
  exact acceptStep_of_applied hins hfree hm ht rfl hmid happ'

/-! ## Interleaved -/

/-- Up to date before, up to date after. Who owns the state row of the monitor
stops everybody else; who owns a check keeps others from inserting it. -/
def ordered (m : Uuid) (lim : Limits) : Protocol Database Key World Unit where
  init := ()
  move := fun _ _ x _ y => UpToDate m lim x.1 → UpToDate m lim y.1
  rely := fun L x y => (UpToDate m lim x.1 → UpToDate m lim y.1) ∧ (L (.state m) → y.1 = x.1) ∧
    ∀ j, L (.check j) → y.1.ledger.checks.find j = x.1.ledger.checks.find j
  good := fun x => UpToDate m lim x.1
  rely_refl := fun _ _ => ⟨fun h => h, fun _ => rfl, fun _ _ => rfl⟩
  rely_trans := fun hxy hyz => ⟨fun h => hyz.1 (hxy.1 h), fun hL => (hyz.2.1 hL).trans (hxy.2.1 hL),
    fun j hL => (hyz.2.2 j hL).trans (hxy.2.2 j hL)⟩
  rely_anti := fun hsub h => ⟨h.1, fun hL => h.2.1 (hsub _ hL), fun j hL => h.2.2 j (hsub _ hL)⟩
  good_rely := fun h hx => h.1 hx

variable {x y : Database × World}

theorem ordered_freeze {L : Key → Prop} (hL : L (.state m)) (h : (ordered m lim).rely L x y) :
    y.1 = x.1 := h.2.1 hL

/-- A transaction that may commit. -/
structure Ready (m : Uuid) (lim : Limits) (o : Open Database Key Env)
    (x : Database × World) : Prop where
  upToDate : UpToDate m lim (o.write x.1)
  state : Key.state m ∈ o.locks
  checks : ∀ j, Key.check j ∉ o.locks →
    (o.write x.1).ledger.checks.find j = x.1.ledger.checks.find j

variable {o : Open Database Key Env} {i : Nat}

theorem Ready.moves (h : Ready m lim o x) :
    (ordered m lim).Moves i o.locks () x () (o.write x.1, x.2) := by
  refine ⟨fun _ => h.upToDate, fun L hL => ⟨fun _ => h.upToDate, ?_, ?_⟩⟩
  · exact fun hs => absurd h.state (hL _ hs)
  · exact fun j hj => h.checks j (hL _ hj)

/-- How a transaction looks after its evaluation: `o` is what it was before. -/
structure Finished (m : Uuid) (lim : Limits) (o : Open Database Key Env)
    (x : Database × World) (o' : Open Database Key Env) (y : Database × World) :
    Prop where
  upToDate : UpToDate m lim (o'.write y.1)
  state : Key.state m ∈ o'.locks
  locks : ∀ κ, κ ∈ o.locks → κ ∈ o'.locks
  ledger : (o'.write y.1).ledger = (o.write y.1).ledger
  rely : (ordered m lim).rely (· ∈ o.locks) x y

variable {α : Type} {o' : Open Database Key Env}

variable {ε : Type} {p : Prog (Except ε α)}

/-- Once the state row is owned, the rows in view are the transaction's own
business. -/
theorem settled_of_returns (hstate : Key.state m ∈ o'.locks)
    (hlocks : ∀ κ, κ ∈ o.locks → κ ∈ o'.locks)
    (hledger : (o'.write y.1).ledger = (o.write y.1).ledger)
    (hrely : (ordered m lim).rely (· ∈ o.locks) x y)
    (hp : Returns remote o'.begun (fun _ v' => UpToDate m lim v' ∧
      v'.ledger = (o'.write y.1).ledger) p (o'.write y.1)) :
    (ordered m lim).Holds remote Failed
      (fun r o'' z => ∀ a, r = .ok a → Finished m lim o x o'' z) p o' y := by
  refine (holds_ensures ordered_freeze hstate hp).mono ?_
  rintro r o'' z ⟨hz, hr⟩ a ha
  obtain ⟨hup, hsame⟩ := hr a ha
  have hyz : z.1 = y.1 := hz.rows
  refine ⟨hup, hz.locks _ hstate, fun κ hκ => hz.locks _ (hlocks κ hκ), ?_, ?_⟩
  · rw [hsame, hyz]
    exact hledger
  · refine ⟨fun hx => ?_, fun hs => hyz.trans (hrely.2.1 hs), fun j hj => ?_⟩
    · rw [hyz]; exact hrely.1 hx
    · rw [hyz]; exact hrely.2.2 j hj

/-- Whatever leaves the rows of the evaluation alone may follow it. -/
theorem Finished.returns (h : Finished m lim o x o' y)
    (hp : Returns remote o'.begun (fun _ v' => Aside m (o'.write y.1) v') p (o'.write y.1)) :
    (ordered m lim).Holds remote Failed
      (fun r o'' z => ∀ a, r = .ok a → Finished m lim o x o'' z) p o' y :=
  settled_of_returns h.state h.locks h.ledger h.rely
    (hp.mono fun _ _ ha => ⟨h.upToDate.aside ha, ha.ledger⟩)

/-- Until the row is owned, all that counts is that an evaluation stays due. -/
theorem evaluateTx_holds {accepted : Option AcceptedSlot}
    (hdue : ∀ y, (ordered m lim).rely (· ∈ o.locks) x y → Due m lim accepted (o.write y.1)) :
    (ordered m lim).Holds remote Failed (fun r o' y => ∀ a, r = .ok a → Finished m lim o x o' y)
      (evaluateTx m accepted now) o x := by
  refine holds_query (fun env busy e he y hy => ?_) (fun _ => ⟨_, rfl⟩)
  have hxy := (ordered m lim).rely_anti (fun κ hκ => List.mem_append_right e.locks hκ) hy
  rcases ensureMonitorReliabilityState_some he with ⟨hsame, -⟩ |
    ⟨hnone, hlocks, state, hstate, hwrite⟩
  · -- the row was there, and is locked now
    have hview : ∀ db, (o.extend e).write db = o.write db := fun db => hsame _
    refine holds_query (fun env busy e' he' z hz => ?_) (fun _ => ⟨_, rfl⟩)
    obtain ⟨hvalue, hsame', hown⟩ := lockMonitorReliabilityState_some he'
    rw [hvalue]
    cases hfound : ((o.extend e).write y.1).core.states.find m with
    | none => exact nofun
    | some state =>
    have hkeys : ((o.extend e).extend e').locks = [.state m] ++ (o.extend e).locks :=
      congrArg (· ++ (o.extend e).locks) (hown (by rw [hfound]; exact Option.some_ne_none _))
    have hmem : Key.state m ∈ ((o.extend e).extend e').locks := by
      rw [hkeys]; exact List.mem_cons_self
    have hzy : z.1 = y.1 := ordered_freeze hmem hz
    have hview' : ((o.extend e).extend e').write z.1 = o.write y.1 := by
      rw [hzy]
      exact (hsame' _).trans (hview _)
    have hyz := (ordered m lim).rely_anti (fun κ hκ => List.mem_append_right e'.locks
        (List.mem_append_right e.locks hκ)) hz
    refine settled_of_returns hmem (fun κ hκ => ?_) ?_ ((ordered m lim).rely_trans hxy hyz) ?_
    · exact List.mem_append_right _ (List.mem_append_right _ hκ)
    · rw [hview', hzy]
    · rw [hview']
      rw [hview] at hfound
      exact ((hdue y hxy).locked hfound).mono fun _ _ h => ⟨h.upToDate, h.beside.ledger⟩
  · -- the row is inserted, and with that owned
    have hmem : Key.state m ∈ (o.extend e).locks := by
      show Key.state m ∈ e.locks ++ o.locks
      rw [hlocks]; exact List.mem_cons_self
    have hyx : y.1 = x.1 := ordered_freeze hmem hy
    have hprep : Prepared m (o.write y.1) ((o.extend e).write y.1) := by
      rw [hyx]
      exact ensureMonitorReliabilityState_prepared he
    refine settled_of_returns hmem (fun κ hκ => List.mem_append_right _ hκ)
      hprep.beside.ledger hxy ?_
    exact ((hdue y hxy).prepared hprep).found.mono fun _ _ h => ⟨h.upToDate, h.beside.ledger⟩

/-- A transaction that has inserted its check and is yet to evaluate. -/
structure Pending (m : Uuid) (lim : Limits) (j : Uuid) (row : HealthCheck)
    (o : Open Database Key Env) (x : Database × World) : Prop where
  inserted : ∀ db, Inserted j row db (o.write db)
  check : Key.check j ∈ o.locks
  free : x.1.ledger.checks.find j = none
  upToDate : UpToDate m lim x.1

section Pending

variable {j : Uuid} {row : HealthCheck} {o : Open Database Key Env}
variable {x y : Database × World}

theorem Pending.later (h : Pending m lim j row o x)
    (hy : (ordered m lim).rely (· ∈ o.locks) x y) : Pending m lim j row o y :=
  ⟨h.inserted, h.check, (hy.2.2 j h.check).trans h.free, hy.1 h.upToDate⟩

/-- Statements about the job, its dispatch and its gaps change nothing here. -/
theorem Pending.extend (h : Pending m lim j row o x) {e : Effect Database Key α}
    (he : Steady e.write) (hy : (ordered m lim).rely (· ∈ e.locks ++ o.locks) x y) :
    Pending m lim j row (o.extend e) y :=
  Pending.later ⟨fun db => (h.inserted db).steady he,
    List.mem_append_right _ h.check, h.free, h.upToDate⟩ hy

theorem Pending.due (h : Pending m lim j row o x) (hm : row.monitorId = m)
    (ht : row.jobType = .scheduled)
    (hy : (ordered m lim).rely (· ∈ o.locks) x y) :
    Due m lim (some ⟨j, row.scheduledAt⟩) (o.write y.1) :=
  (h.inserted y.1).due (h.later hy).upToDate (h.later hy).free hm ht

theorem Pending.ready (h : Pending m lim j row o x) (hs : Finished m lim o x o' y) :
    Ready m lim o' y := by
  refine ⟨hs.upToDate, hs.state, fun j' hj' => ?_⟩
  have hne : j' ≠ j := by
    rintro rfl
    exact hj' (hs.locks _ h.check)
  rw [hs.ledger, (h.inserted y.1).checks]
  exact Table.find_put_ne _ _ hne

end Pending

theorem evaluateScheduled_holds (h : Pending m lim job.id row o x) (hrow : row.monitorId = m)
    (ht : row.jobType = .scheduled) (hat : row.scheduledAt = job.row.scheduledAt)
    (hm : job.row.monitorId = m) (hin : now ≤ job.row.expiresAt + correctionWindow) :
    (ordered m lim).Holds remote Failed (fun r o' y => ∀ u, r = .ok u → Finished m lim o x o' y)
      (evaluateScheduled job now) o x := by
  unfold evaluateScheduled
  rw [in_time hin, hm, evaluateAcceptedTx_eq hin, ← hat]
  refine holds_attempt (evaluateTx_holds fun y hy => h.due hrow ht hy) (fun _ => ⟨_, rfl⟩)
    (fun _ _ _ _ _ _ hr => by cases hr) fun corrected o' y hr => ?_
  refine (hr corrected rfl).returns ((applyScheduled_returns hm).mono ?_)
  exact fun _ _ h' => h'.aside

theorem acceptResult_ready {env₀ : Env} (hx : UpToDate m lim x.1) (hm : job.row.monitorId = m)
    (ht : job.row.jobType = .scheduled) (hin : now ≤ job.row.expiresAt + correctionWindow) :
    (ordered m lim).Holds remote Failed (fun r o y => ∀ u, r = .ok u → Ready m lim o y)
      (acceptResult (pure now) job result) (.fresh env₀) x := by
  refine holds_query (fun env busy e₁ he₁ x₁ hx₁ => ?_) (fun _ => ⟨_, rfl⟩)
  obtain ⟨resultId, attemptId, hfree, hcheck, hins⟩ :=
    insertAcceptedHealthCheck_inserted he₁
  have h₁ : Pending m lim job.id (acceptedRow job.row result resultId attemptId)
      ((Open.fresh env₀).extend e₁) x₁ :=
    Pending.later ⟨hins, List.mem_append_left _ hcheck, hfree, hx⟩ hx₁
  refine holds_query (fun env busy e₂ he₂ x₂ hx₂ => ?_) (fun _ => ⟨_, rfl⟩)
  have h₂ := h₁.extend (completeCheckJob_steady he₂) hx₂
  refine holds_query (fun env busy e₃ he₃ x₃ hx₃ => ?_) (fun _ => ⟨_, rfl⟩)
  have h₃ := h₂.extend (markDispatchRepaired_steady he₃) hx₃
  refine holds_query (fun env busy e₄ he₄ x₄ hx₄ => ?_) (fun _ => ⟨_, rfl⟩)
  have h₄ := h₃.extend (deleteRecoveredCoverageGaps_steady he₄) hx₄
  dsimp only
  rw [if_pos ht]
  refine holds_attempt (evaluateScheduled_holds h₄ hm ht rfl hm hin) (fun _ => ⟨_, rfl⟩)
    (fun _ _ _ _ _ _ hr => by cases hr) fun u o' y hr => ?_
  refine holds_attempt ((hr u rfl).returns
    (returns_last fun env busy e he => (insertRefreshEvent_journaled he).unrelated.aside))
    (fun _ => ⟨_, rfl⟩) (fun _ _ _ _ _ _ hr => by cases hr) fun u o' y hr => ?_
  exact fun _ _ => h₄.ready (hr u rfl)

/-! ## Any arrival order -/

/-- The accepting transaction of `ConsumeNext` on its own, with the moment of
its evaluation: from the insert of the check to the commit. -/
def acceptance (evaluatedAt : Time) (job : LockedJob) (result : Result) :
    Prog (Except Failure Unit) := do
  let .ok () ← start | return .error .database
  let .ok () ← acceptResult (pure evaluatedAt) job result
    | return .error .database
  let .ok () ← commit | return .error .database
  return .ok ()

/-- The rows a call leaves that runs alone. -/
def alone {α : Type} (env : Nat → Env) (p : Prog α) (db : Database) : α × Database :=
  ((p.solo remote 0 env 0 .idle db World.empty).1, (p.solo remote 0 env 0 .idle db World.empty).2.1)

/-- A stretch in a transaction of its own. -/
def committed {γ : Type} (body : Prog (Except Failure γ)) :
    Prog (Except Failure Unit) := do
  let .ok () ← start | return .error .database
  let .ok _ ← body | return .error .database
  let .ok () ← commit | return .error .database
  return .ok ()

/-- What such a call does once its stretch has answered. -/
def settle {γ : Type} : Except Failure γ → Prog (Except Failure Unit)
  | .ok _ => commit >>= fun r => match r with
    | .ok () => pure (.ok ())
    | _ => pure (.error .database)
  | _ => pure (.error .database)

/-- Alone, it is committed or changes nothing. -/
theorem committed_alone {γ : Type} (env : Nat → Env) {body : Prog (Except Failure γ)}
    {Post : γ → Database → Prop} (h : Returns remote (env 0) Post body db) :
    (∃ a db', alone env (committed body) db = (.ok (), db') ∧ Post a db') ∨
    ∃ f, alone env (committed body) db = (.error f, db) := by
  rcases solo_returns (o := Open.fresh (env 0)) (i := 0) (n := 1) (w := World.empty)
      (k := settle) env h (fun _ => ⟨_, rfl⟩) with ⟨n, a, o, hr, heq⟩ | ⟨f, heq⟩
  · have hsolo : (committed body).solo remote 0 env 0 .idle db World.empty =
        (.ok (), o.write db, World.empty) := heq
    refine .inl ⟨a, o.write db, ?_, hr⟩
    unfold alone
    rw [hsolo]
  · have hsolo : (committed body).solo remote 0 env 0 .idle db World.empty =
        (.error f, db, World.empty) := heq
    refine .inr ⟨f, ?_⟩
    unfold alone
    rw [hsolo]

theorem acceptance_eq (evaluatedAt : Time) (job : LockedJob) (result : Result) :
    acceptance evaluatedAt job result =
      committed (acceptResult (pure evaluatedAt) job result) := by
  unfold acceptance committed
  congr 1
  funext r
  cases r with
  | error f => rfl
  | ok u =>
  show acceptResult (pure evaluatedAt) job result >>= _ = _
  congr 1
  funext r
  cases r <;> rfl

variable {evaluatedAt : Time}

theorem acceptance_alone (env : Nat → Env) (result : Result) (hup : UpToDate m lim db)
    (hm : job.row.monitorId = m) (ht : job.row.jobType = .scheduled)
    (hin : evaluatedAt ≤ job.row.expiresAt + correctionWindow) :
    (∃ db', alone env (acceptance evaluatedAt job result) db = (.ok (), db') ∧
      AcceptStep m lim db (observedResult job result) db') ∨
    ∃ f, alone env (acceptance evaluatedAt job result) db = (.error f, db) := by
  rw [acceptance_eq]
  rcases committed_alone env (acceptResult_returns hup hm ht hin) with
    ⟨-, db', hdb', h⟩ | h
  · exact .inl ⟨db', hdb', h⟩
  · exact .inr h

/-- What may run side by side: acceptances of scheduled results of one monitor
within the correction window, and evaluations of that monitor. -/
inductive Arrival (m : Uuid) : Prog Unit → Prop
  | acceptance (evaluatedAt : Time) (job : LockedJob) (result : Result)
      (hm : job.row.monitorId = m) (ht : job.row.jobType = .scheduled)
      (hin : evaluatedAt ≤ job.row.expiresAt + correctionWindow) :
      Arrival m (acceptance evaluatedAt job result >>= fun _ => pure ())
  | evaluateMonitor (now : Time) : Arrival m (evaluateMonitor m now >>= fun _ => pure ())

/-- What both calls end with. -/
theorem ready_meets (h : Ready m lim o x) :
    (ordered m lim).Meets remote i (commit >>= fun r => match r with
      | .ok () => (pure (.ok ()) : Prog (Except Failure Unit))
      | _ => pure (.error .database)) (.active o) () x := by
  refine meets_commit ⟨(), h.moves, fun r y _ => ?_⟩ fun _ _ => meets_ret
  cases r with
  | ok | error => exact meets_ret

theorem acceptance_meets (hx : UpToDate m lim x.1) (hm : job.row.monitorId = m)
    (ht : job.row.jobType = .scheduled)
    (hin : evaluatedAt ≤ job.row.expiresAt + correctionWindow) :
    (ordered m lim).Meets remote i (acceptance evaluatedAt job result) .idle () x := by
  refine meets_start (fun env y hy => ?_) fun _ _ => meets_ret
  exact meets_attempt (fun _ _ _ h => h) (acceptResult_ready (hy.1 hx) hm ht hin)
    (fun _ _ _ => meets_ret) fun u o z hr => ready_meets (hr u rfl)

theorem evaluateMonitor_meets (hx : UpToDate m lim x.1) :
    (ordered m lim).Meets remote i (evaluateMonitor m now) .idle () x := by
  refine meets_start (fun env y hy => ?_) fun _ _ => meets_ret
  refine meets_attempt (fun _ _ _ h => h) (evaluateTx_holds
    fun z hz => due_of_upToDate (hz.1 (hy.1 hx))) (fun _ _ _ => meets_ret) fun corrected o z hr => ?_
  have hs := hr corrected rfl
  refine ready_meets ⟨hs.upToDate, hs.state, fun j _ => ?_⟩
  rw [hs.ledger]
  rfl

theorem arrival_meets {p : Prog Unit} (hp : Arrival m p) (i : Nat)
    (x : Database × World) (hx : (ordered m lim).good x) :
    (ordered m lim).Meets remote i p .idle (ordered m lim).init x := by
  cases hp with
  | acceptance _ _ _ hm ht hin => exact (acceptance_meets hx hm ht hin).void
  | evaluateMonitor => exact (evaluateMonitor_meets hx).void

/-- Nothing of the monitor has been observed yet. -/
structure Unobserved (m : Uuid) (db : Database) : Prop where
  checks : scheduledChecks db.ledger m = []
  rows : recorded db.core m = []
  counters : StateSnapshot.counters (snapshotOf db.core m) = .start
  lastAt : (snapshotOf db.core m).lastObservedAt = none
  lastJob : (snapshotOf db.core m).lastObservedJob = none
  rooted : Rooted db

theorem Unobserved.upToDate (h : Unobserved m db) :
    UpToDate m (limits db.core m) db := by
  refine ⟨?_, h.rooted⟩
  rw [h.checks]
  exact ⟨h.rows, ⟨h.counters, h.lastAt, h.lastJob⟩, rfl⟩

/-- Runs of such calls keep a monitor up to date. -/
theorem arrival_upToDate {w : World} {s : System} (h₀ : UpToDate m lim db)
    (hrun : Steps remote (Arrival m) (Sys.quiet db w) s) :
    UpToDate m lim s.db := by
  have hgood : (ordered m lim).good (db, w) := h₀
  obtain ⟨as, hrel⟩ := related_steps
    (fun _ hp i x hx => arrival_meets hp i x hx) (related_quiet hgood) hrun
  exact hrel.good

/-- Results in the order of their slots. -/
def inOrder (results : List ObservedResult) : List ObservedResult :=
  results.insertionSort fun a b => a.key ≤ b.key

theorem ascending_inOrder {results : List ObservedResult}
    (h : (results.map ObservedResult.key).Nodup) :
    Ascending ObservedResult.key (inOrder results) := by
  have hsorted : (inOrder results).Pairwise fun a b => a.key ≤ b.key :=
    List.pairwise_insertionSort _ _
  rw [List.nodup_iff_pairwise_ne, List.pairwise_map] at h
  have hne : (inOrder results).Pairwise fun a b => a.key ≠ b.key :=
    ((List.perm_insertionSort _ _).symm.pairwise_iff fun h => Ne.symm h).mp h
  exact (hsorted.and hne).imp fun h => lt_of_le_of_ne h.1 h.2

/-- The result of a stored check of the monitor. -/
def Stored (l : Ledger) (m : Uuid) (r : ObservedResult) : Prop :=
  ∃ check, l.checks.find r.jobId = some check ∧ check.monitorId = m ∧
    check.jobType = .scheduled ∧ check.scheduledAt = r.scheduledAt ∧
    check.succeeded = r.succeeded

theorem stored_iff {l : Ledger} :
    Stored l m r ↔ r ∈ scheduledChecks l m := by
  rw [mem_scheduledChecks]
  constructor
  · rintro ⟨check, hfind, hm, ht, hat, hok⟩
    refine ⟨check, hfind, hm, ht, ?_⟩
    rw [hat, hok]
  · rintro ⟨check, hfind, hm, ht, hr⟩
    rw [hr]
    exact ⟨check, hfind, hm, ht, rfl, rfl⟩

/-- Ordered evaluation does not depend on arrival order: once the scheduled
checks of the monitor are exactly `results`, whatever led there, the rows and
the state are those of the fold over the results in order. -/
theorem arrival_order_irrelevant {db : Database} {w : World} {s : System}
    (h₀ : Unobserved m db) (hrun : Steps remote (Arrival m) (Sys.quiet db w) s)
    (results : List ObservedResult) (hkeys : (results.map ObservedResult.key).Nodup)
    (hall : ∀ r, r ∈ results ↔ Stored s.db.ledger m r) :
    recorded s.db.core m = history (limits db.core m) (inOrder results) ∧
    ∀ last, (inOrder results).getLast? = some last → ∃ state, s.db.core.states.find m = some state ∧
        (state.observedState, state.consecutiveFailures, state.consecutiveSuccesses) =
          observation (limits db.core m) (inOrder results) ∧
        state.lastObservedScheduledAt = some last.scheduledAt ∧
        state.lastObservedJobId = some last.jobId := by
  have hup := arrival_upToDate h₀.upToDate hrun
  have hchecks : scheduledChecks s.db.ledger m = inOrder results := by
    refine (ascending_scheduledChecks _ _).ext (ascending_inOrder hkeys) fun r => ?_
    rw [inOrder, List.mem_insertionSort, hall r, stored_iff]
  have hev := hup.evaluated
  rw [hchecks] at hev
  refine ⟨hev.rows, fun last hlast => ?_⟩
  have hstate := hev.state
  cases hfind : s.db.core.states.find m with
  | none =>
    -- a monitor without a row has observed nothing
    have hnone := hstate.lastAt
    unfold snapshotOf at hnone
    rw [hfind, hlast] at hnone
    cases hnone
  | some state =>
  unfold snapshotOf at hstate
  rw [hfind] at hstate
  refine ⟨state, rfl, hstate.counters, ?_, ?_⟩
  · have := hstate.lastAt
    rwa [hlast] at this
  · have := hstate.lastJob
    rwa [hlast] at this

namespace Sample

/-- The job of monitor 1 for minute `n`, and its result. -/
def slot (n : Nat) : LockedJob :=
  { id := n, resultPublicKey := []
    row :=
      { organizationId := 2, environmentId := 3, monitorId := 1
        jobType := .scheduled, state := .published, scheduledAt := n * minute
        monitorVersion := 1, workerPoolId := "pool", snapshotHash := snapshotHash
        expiresAt := n * minute + 120 * second } }

def outcome (n : Nat) (succeeded : Bool) : Result :=
  { schemaVersion := 2, resultId := .canonical (100 + n), jobId := .canonical n
    snapshotHash := snapshotHash, workerPoolId := "pool", workerId := "worker"
    attemptId := .canonical (200 + n), scheduledAt := n * minute
    startedAt := n * minute, completedAt := n * minute, succeeded := succeeded
    statusCode := if succeeded then some 200 else none
    errorCategory := if succeeded then none else some "timeout", dnsMicros := none
    connectMicros := none, tlsMicros := none, firstByteMicros := none
    totalMicros := 1000, resultKeyId := "key" }

/-- The result for minute `n`, accepted as soon as it is there. -/
def arriving (n : Nat) (succeeded : Bool) : Prog (Except Failure Unit) :=
  acceptance (n * minute) (slot n) (outcome n succeeded)

def blank : Database := ⟨Ledger.empty, core, Journal.empty⟩

theorem arriving_arrival (n : Nat) (succeeded : Bool) :
    Arrival 1 (arriving n succeeded >>= fun _ => pure ()) := by
  refine .acceptance _ _ _ rfl rfl ?_
  have : (0 : Int) ≤ 120 * second + correctionWindow := by decide
  show (n * minute : Int) ≤ n * minute + 120 * second + correctionWindow
  omega

theorem unobserved_blank : Unobserved 1 blank :=
  ⟨rfl, rfl, rfl, rfl, rfl, fun j e h => by
    rw [show blank.core.evaluations.find j = none from Table.find_empty j] at h
    cases h⟩

/-- The results for minutes 3 and 2 arrive in this order; the second check is
inserted while the first acceptance is halfway through. An evaluation comes
last. -/
def crossing : Script :=
  .spawn (arriving 3 false >>= fun _ => pure ()) :: steps 0 (moment 180 31 0) 5 ++
  .spawn (arriving 2 true >>= fun _ => pure ()) :: steps 1 (moment 180 32 0) 5 ++
  steps 0 (moment 181 33 0) 30 ++ steps 1 (moment 182 34 0) 30 ++
  .spawn (evaluateMonitor 1 (240 * second) >>= fun _ => pure ()) :: steps 2 (moment 240 35 0) 20

theorem crossing_arrival : ∀ a ∈ crossing, a.within (Arrival 1) := by
  have hsteps : ∀ i env n, ∀ a ∈ steps i env n, a.within (Arrival 1) := steps_within _
  simp only [crossing, List.forall_mem_append, List.forall_mem_cons]
  exact ⟨⟨⟨⟨⟨arriving_arrival 3 false, hsteps _ _ _⟩, arriving_arrival 2 true, hsteps _ _ _⟩,
    hsteps _ _ _⟩, hsteps _ _ _⟩, .evaluateMonitor _, hsteps _ _ _⟩

/-- The two results, as they arrive. -/
def arrived : List ObservedResult :=
  [observedResult (slot 3) (outcome 3 false), observedResult (slot 2) (outcome 2 true)]

end Sample

open Sample

theorem arrival_order_irrelevant_sample :
    ∃ s, Steps remote (Arrival 1) (Sys.quiet blank World.empty) s ∧ recorded s.db.core 1 =
        history (limits blank.core 1) (inOrder arrived) ∧
      recorded s.db.core 1 = [(⟨2, 2 * minute, true⟩, (.healthy, 0, 0)),
        (⟨3, 3 * minute, false⟩, (.degraded, 1, 0))] := by
  have hend : ((Sys.quiet blank World.empty).run remote crossing).map
      (fun s => scheduledChecks s.db.ledger 1) = some (inOrder arrived) := by
    decide +kernel
  obtain ⟨s, hs, hchecks⟩ := Option.map_eq_some_iff.mp hend
  have hrun := Sys.run_steps crossing_arrival hs
  refine ⟨s, hrun, ?_⟩
  have hrows := (arrival_order_irrelevant unobserved_blank hrun arrived (by decide) fun r => ?_).1
  · exact ⟨hrows, hrows.trans (by decide +kernel)⟩
  · rw [stored_iff, hchecks, inOrder, List.mem_insertionSort]

end WatchTrace.Proofs
