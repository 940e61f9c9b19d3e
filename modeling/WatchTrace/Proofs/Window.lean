import WatchTrace.Tx.Twin
import WatchTrace.Proofs.Hysteresis

/-!
# Results beyond the correction window

A scheduled result that is accepted later than its deadline and the
correction window is not evaluated: its check is kept for the reports. The
window is looked at in that acceptance only. Later evaluations list the checks
behind the last observed one, or from a corrected slot on, and a check does
not say when it was accepted.

So whether a late result stays without influence is a question about every
evaluation that follows, and the answer is a comparison of two runs: the same
calls, with and without the late acceptance. They stay in step for as long as
no evaluation lists the late check.
-/

namespace WatchTrace.Proofs

open Tx Tx.Prog Model Spec

/-! ## With the late check and without it -/

/-- `v` is `v'` with a late result accepted: the check `row` of job `j` is
there, and the rows of that job and the gaps may differ. The core does not. -/
structure Late (j : Uuid) (row : HealthCheck) (v v' : Database) : Prop where
  core : v'.core = v.core
  here : v.ledger.checks.find j = some row
  gone : v'.ledger.checks.find j = none
  checks : ∀ k, k ≠ j → v'.ledger.checks.find k = v.ledger.checks.find k
  jobs : ∀ k, k ≠ j → v'.ledger.jobs.find k = v.ledger.jobs.find k
  outbox : ∀ k, k ≠ j → v'.ledger.outbox.find k = v.ledger.outbox.find k

variable {result : Result} {m : Uuid}

variable {current : StateSnapshot} {correction : Option AcceptedSlot}

section Late

variable {j : Uuid} {row : HealthCheck} {v v' : Database}

/-- The core may change, in both alike. -/
theorem Late.withCore (h : Late j row v v') (c : Core) :
    Late j row { v with core := c } { v' with core := c } :=
  { h with core := rfl }

theorem domestic_respects : Domestic (Respects (Late j row)) := by
  constructor
  · intro β q
    refine respects_of_eq (fun begun env v v' h => ?_) fun begun env v v' e h he => ?_
    · show (q begun env (fun _ => false) v'.core).map _ = _
      rw [h.core]
      rfl
    · obtain ⟨e', he', -, -, hwrite⟩ := onCore_some he
      rw [hwrite, hwrite, h.core]
      exact h.withCore _
  · intro β a
    refine respects_of_eq (fun begun env v v' h => rfl) fun begun env v v' e h he => ?_
    obtain ⟨e', -, rfl⟩ := Option.map_eq_some_iff.mp he
    exact { h with }

/-- Another result id is taken in both or in neither. -/
theorem Late.resultTaken (h : Late j row v v') {id : Uuid} (hid : row.resultId ≠ id) :
    v'.ledger.checks.rows.any (fun e => e.2.resultId == id) =
      v.ledger.checks.rows.any (fun e => e.2.resultId == id) := by
  have hiff : ∀ t : Table Uuid HealthCheck, t.rows.any (fun e => e.2.resultId == id) = true ↔
        ∃ k r, t.find k = some r ∧ r.resultId = id := by
    intro t
    simp only [List.any_eq_true, beq_iff_eq, Prod.exists, Table.mem_rows]
  rw [Bool.eq_iff_iff, hiff, hiff]
  constructor
  · rintro ⟨k, r, hfind, heq⟩
    have hk : k ≠ j := by
      rintro rfl
      simp [h.gone] at hfind
    exact ⟨k, r, (h.checks k hk).symm.trans hfind, heq⟩
  · rintro ⟨k, r, hfind, heq⟩
    have hk : k ≠ j := by
      rintro rfl
      simp_all [h.here]
    exact ⟨k, r, (h.checks k hk).trans hfind, heq⟩

variable {k : Uuid}

/-- A row of another job may be written, in both alike. -/
theorem Late.putCheck (h : Late j row v v') (hk : k ≠ j) (r : HealthCheck) : Late j row
      { v with ledger := { v.ledger with checks := v.ledger.checks.put k r } }
      { v' with ledger := { v'.ledger with checks := v'.ledger.checks.put k r } } := by
  refine { h with here := ?_, gone := ?_, checks := fun i hi => ?_ }
  · exact (Table.find_put_ne _ _ hk.symm).trans h.here
  · exact (Table.find_put_ne _ _ hk.symm).trans h.gone
  · show (v'.ledger.checks.put k r).find i = (v.ledger.checks.put k r).find i
    rw [Table.find_put_eq, Table.find_put_eq, h.checks i hi]

theorem insertAcceptedHealthCheck_respects {job : CheckJob} (hk : k ≠ j)
    (hid : result.resultId.toUuid? ≠ some row.resultId) :
    Respects (Late j row) (insertAcceptedHealthCheck k job result) := by
  refine respects_of_eq (fun begun env v v' h => ?_) fun begun env v v' e h he => ?_
  · unfold insertAcceptedHealthCheck onLedger Stmt.zoom
    cases hresult : result.resultId.toUuid? with
    | none => rfl
    | some resultId =>
    have hne : row.resultId ≠ resultId := by
      rintro rfl
      exact hid hresult
    cases result.attemptId.toUuid? with
    | none => rfl
    | some attemptId => simp only [h.checks k hk, h.resultTaken hne]
  · obtain ⟨e', he', rfl⟩ := onLedger_some he
    repeat' (split at he' <;> try dsimp only at he')
    all_goals cases he'
    exact h.putCheck hk _

theorem completeCheckJob_respects (hk : k ≠ j) :
    Respects (Late j row) (completeCheckJob k result) := by
  refine respects_of_eq (fun begun env v v' h => ?_) fun begun env v v' e h he => ?_
  · unfold completeCheckJob onLedger Stmt.zoom
    simp only [h.jobs k hk]
  · obtain ⟨e', he', rfl⟩ := onLedger_some he
    repeat' split at he'
    all_goals cases he'
    · exact { h with }
    · refine { h with jobs := fun i hi => ?_ }
      show (v'.ledger.jobs.put _ _).find i = (v.ledger.jobs.put _ _).find i
      rw [Table.find_put_eq, Table.find_put_eq, h.jobs i hi]

theorem markDispatchRepaired_respects (hk : k ≠ j) :
    Respects (Late j row) (markDispatchRepaired k) := by
  refine respects_of_eq (fun begun env v v' h => ?_) fun begun env v v' e h he => ?_
  · unfold markDispatchRepaired onLedger Stmt.zoom
    simp only [h.outbox k hk]
  · obtain ⟨e', he', rfl⟩ := onLedger_some he
    unfold updateDispatch at he'
    repeat' split at he'
    all_goals cases he'
    · exact { h with }
    · exact { h with }
    · refine { h with outbox := fun i hi => ?_ }
      show (v'.ledger.outbox.put _ _).find i = (v.ledger.outbox.put _ _).find i
      rw [Table.find_put_eq, Table.find_put_eq, h.outbox i hi]

/-- The gaps differ, and nothing of what is compared depends on them. -/
theorem deleteRecoveredCoverageGaps_respects (monitorId : Uuid) (scheduledAt : Time) :
    Respects (Late j row) (deleteRecoveredCoverageGaps monitorId scheduledAt) :=
  fun _ _ _ _ h => .answered rfl { h with }

/-! ## What an evaluation lists -/

/-- The slots from which an evaluation lists checks. -/
def reaches (current : StateSnapshot) (correction : Option AcceptedSlot) (key : OrderKey) : Bool :=
  match correction, current.lastObservedAt, current.lastObservedJob with
  | some slot, _, _ => decide (AcceptedSlot.key slot ≤ key)
  | none, some at_, some job => decide (orderKey at_ job < key)
  | none, _, _ => true

theorem listed_eq (l : Ledger) (m : Uuid) (current : StateSnapshot)
    (correction : Option AcceptedSlot) :
    listed l m current correction =
      (scheduledChecks l m).filter fun r => reaches current correction r.key := by
  obtain ⟨_, _, _, _, lastAt, lastJob⟩ := current
  rcases correction with _ | slot <;> rcases lastAt with _ | at_ <;> rcases lastJob with _ | job
  all_goals first
    | rfl
    | exact (List.filter_eq_self.mpr fun _ _ => rfl).symm

/-- Where the late check is not listed, nothing can be told from the list. -/
theorem Late.listed (h : Late j row v v') (hskip : row.monitorId = m → row.jobType = .scheduled →
      reaches current correction (HealthCheck.result row j).key = false) :
    listed v'.ledger m current correction = listed v.ledger m current correction := by
  rw [listed_eq, listed_eq]
  refine ((ascending_scheduledChecks _ _).filter _).ext
    ((ascending_scheduledChecks _ _).filter _) fun r => ?_
  rw [List.mem_filter, List.mem_filter, mem_scheduledChecks, mem_scheduledChecks]
  constructor
  · rintro ⟨⟨check, hfind, hm, ht, hr⟩, hreach⟩
    have hj : r.jobId ≠ j := by
      rintro rfl
      simp [h.gone] at hfind
    exact ⟨⟨check, (h.checks _ hj).symm.trans hfind, hm, ht, hr⟩, hreach⟩
  · rintro ⟨⟨check, hfind, hm, ht, hr⟩, hreach⟩
    have hj : r.jobId ≠ j := by
      intro hj
      rw [hj, h.here] at hfind
      cases hfind
      have hlate : r = HealthCheck.result row j := by
        rw [hr, hj]
        rfl
      rw [hlate, hskip hm ht] at hreach
      cases hreach
    exact ⟨⟨check, (h.checks _ hj).trans hfind, hm, ht, hr⟩, hreach⟩

theorem listResults_respects (hskip : row.monitorId = m → row.jobType = .scheduled →
      reaches current correction (HealthCheck.result row j).key = false) :
    Every remote (Respects (Late j row)) (listResults m current correction) := by
  rw [listResults_eq]
  exact every_query (respects_read fun v v' h => h.listed hskip)

end Late

/-! ## Calls that stay in step -/

variable {now : Time} {α : Type}

variable {job : LockedJob} {evaluatedAt : Time}

section InStep

variable {j : Uuid} {row : HealthCheck} {v v' : Database} {begun : Env}

/-- The evaluation does not reach the late check, as things stand in `c`. -/
def Skips (j : Uuid) (row : HealthCheck) (c : Core) (monitorId : Uuid)
    (accepted : Option AcceptedSlot) : Prop :=
  row.monitorId = monitorId → row.jobType = .scheduled → reaches (snapshotOf c monitorId)
      (correctionOf (snapshotOf c monitorId) accepted)
      (HealthCheck.result row j).key = false

theorem evaluateTx_agrees {accepted : Option AcceptedSlot} (hv : Late j row v v')
    (hskip : Skips j row v.core m accepted) :
    Agrees remote (fun _ => True) begun (fun _ => Late j row)
      (evaluateTx m accepted now) v v' := by
  have hens : Respects (Late j row) (ensureMonitorReliabilityState m) :=
    domestic_respects.core _
  have hlock : Respects (Late j row) (lockMonitorReliabilityState m) :=
    domestic_respects.core _
  refine agrees_query (fun env => ?_) fun _ => trivial
  refine ((hens begun env v v' hv).with
    (P := fun _ u => snapshotOf u.core m = snapshotOf v.core m) fun e he =>
      (ensureMonitorReliabilityState_prepared he).snapshot).mono ?_
  intro _ u u' ⟨hu, hsnap⟩
  refine agrees_query (fun env => ?_) fun _ => trivial
  refine ((hlock begun env u u' hu).with
    (P := fun found _ => found = u.core.states.find m) fun e he =>
      (lockMonitorReliabilityState_some he).1).mono ?_
  intro found t t' ⟨ht, hfound⟩
  cases found with
  | none => exact ht
  | some state =>
  have hstate : state.snapshot = snapshotOf v.core m := by
    rw [← hsnap, snapshotOf, ← hfound]
  refine (evaluateLocked_every (domestic_respects.evaluates m) ?_).agrees ht
  rw [hstate]
  exact listResults_respects hskip

theorem evaluateScheduled_agrees (hv : Late j row v v')
    (hskip : evaluatedAt ≤ job.row.expiresAt + correctionWindow →
      Skips j row v.core job.row.monitorId (some ⟨job.id, job.row.scheduledAt⟩)) :
    Agrees remote (fun _ => True) begun (fun _ => Late j row)
      (evaluateScheduled job evaluatedAt) v v' := by
  refine agrees_bind (D := fun _ => True) ?_ (fun r u u' hu => Every.agrees ?_ hu)
    fun r _ => Every.fails (S := Respects (Late j row)) ?_
  · unfold evaluateAcceptedTx
    split
    · exact hv
    · next hin => exact evaluateTx_agrees hv (hskip (not_lt.mp hin))
  -- what follows is the same on both sides
  all_goals
    cases r with
    | ok corrected => exact applyScheduled_every domestic_respects.reacts _ _ _ _
    | error f => exact every_pure _

/-- A statement of an acceptance before the evaluation. -/
theorem agrees_steady {q : Stmt Unit} {c : Core} {k : Except Fault Unit → Prog α}
    {Q : α → Database → Database → Prop} (hq : Respects (Late j row) q)
    (hsteady : ∀ {env busy v e}, q begun env busy v = some e → (e.write v).core = v.core)
    (hv : Late j row v v' ∧ v.core = c) (hok : ∀ u u', Late j row u u' ∧ u.core = c →
      Agrees remote (fun _ => True) begun Q (k (.ok ())) u u')
    (herr : ∀ f, Fails remote (fun _ => True) (k (.error f))) :
    Agrees remote (fun _ => True) begun Q (query q >>= k) v v' := by
  refine agrees_query (fun env => ?_) herr
  refine ((hq begun env v v' hv.1).with (P := fun _ u => u.core = v.core) fun e he =>
    hsteady he).mono fun _ u u' hu => hok u u' ⟨hu.1, hu.2.trans hv.2⟩

theorem acceptResult_agrees (hv : Late j row v v') (hj : job.id ≠ j)
    (hid : result.resultId.toUuid? ≠ some row.resultId)
    (hskip : job.row.jobType = .scheduled → evaluatedAt ≤ job.row.expiresAt + correctionWindow →
      Skips j row v.core job.row.monitorId (some ⟨job.id, job.row.scheduledAt⟩)) :
    Agrees remote (fun _ => True) begun (fun _ => Late j row)
      (acceptResult (pure evaluatedAt) job result) v v' := by
  refine agrees_steady (insertAcceptedHealthCheck_respects hj hid) ?_ ⟨hv, rfl⟩
    (fun v₁ v₁' h₁ => ?_) fun _ => trivial
  · intro env busy v e he
    obtain ⟨_, _, _, _, hins⟩ := insertAcceptedHealthCheck_inserted he
    exact (hins v).core
  refine agrees_steady (completeCheckJob_respects hj)
    (fun he => (completeCheckJob_steady he _).1) h₁ (fun v₂ v₂' h₂ => ?_)
    fun _ => trivial
  refine agrees_steady (markDispatchRepaired_respects hj)
    (fun he => (markDispatchRepaired_steady he _).1) h₂ (fun v₃ v₃' h₃ => ?_)
    fun _ => trivial
  refine agrees_steady (deleteRecoveredCoverageGaps_respects _ _)
    (fun he => (deleteRecoveredCoverageGaps_steady he _).1) h₃ (fun v₄ v₄' h₄ => ?_)
    fun _ => trivial
  refine agrees_bind (D := fun _ => True) ?_ (fun r u u' hu => Every.agrees ?_ hu)
    fun r _ => Every.fails (S := Respects (Late j row)) ?_
  · split
    · next ht =>
      refine evaluateScheduled_agrees h₄.1 fun hin => ?_
      rw [h₄.2]
      exact hskip ht hin
    · exact h₄.1
  all_goals
    cases r with
    | error f => exact every_pure _
    | ok u =>
      exact every_then (refresh_every domestic_respects.reacts _) (fun _ => every_pure _)
        fun _ => every_pure _

end InStep

/-! ## Other monitors keep their state -/

/-- The statement leaves the state row of `m` alone. -/
def HoldsState (m : Uuid) {β : Type} (q : Stmt β) : Prop :=
  ∀ begun env busy db e, q begun env busy db = some e →
    ∀ u, (e.write u).core.states.find m = u.core.states.find m

theorem holdsState_core {β : Type} {q : Tx.Stmt Core Key Env β}
    (h : ∀ {begun env busy c e}, q begun env busy c = some e →
      ∀ c, (e.write c).states.find m = c.states.find m) : HoldsState m (onCore q) := by
  intro begun env busy db e he u
  obtain ⟨e', he', -, -, hwrite⟩ := onCore_some he
  rw [hwrite]
  exact h he' u.core

theorem evaluates_holdsState {id : Uuid} (hne : m ≠ id) :
    Evaluates (HoldsState m) id := by
  constructor
  all_goals intros
  all_goals refine holdsState_core fun he c => ?_
  all_goals repeat' split at he
  all_goals cases he
  all_goals first
    | rfl
    | exact Table.find_put_ne _ _ hne

theorem listResults_holdsState (m id : Uuid) (current : StateSnapshot)
    (correction : Option AcceptedSlot) :
    Every remote (HoldsState m) (listResults id current correction) := by
  rw [listResults_eq]
  refine every_query fun begun env busy db e he u => ?_
  cases he
  rfl

/-- The state of `m` is still `s`, unless the evaluation was about `m` itself. -/
def Held (m : Uuid) (s : StateSnapshot) (id : Uuid) (u : Database) : Prop :=
  m ≠ id → snapshotOf u.core m = s

theorem evaluateTx_held (m : Uuid) (s : StateSnapshot) (id : Uuid) (now : Time) :
    Quiet remote (fun w => ∀ db, Held m s id db → Held m s id (w db))
      (evaluateTx id none now) := by
  by_cases hne : m = id
  · refine (evaluateTx_every (domestic_writesApart.evaluates id) fun _ =>
      listResults_writesApart _ _ _).mono fun _ _ _ _ _ _ _ _ _ h => ?_
    exact absurd hne h
  · refine (evaluateTx_every (evaluates_holdsState hne) fun _ =>
      listResults_holdsState m id _ _).mono fun hq begun env busy db e he u hu _ => ?_
    rw [← hu hne, snapshotOf, snapshotOf, hq begun env busy db e he u]

/-! ## A call that runs alone -/

variable {γ : Type} {body : Prog (Except Failure γ)}

section Alone

variable {j : Uuid} {row : HealthCheck} {db db' : Database}

/-- A transaction that stays in step leaves rows that differ by the late check
only, whatever comes after it. -/
theorem committed_twin (env : Nat → Env) (w w' : World) (n : Nat)
    (ses ses' : Session Database Key Env) (k : Except Failure Unit → Prog α)
    {F : Database → Prop} (hF : F db) (hdb : Late j row db db')
    (h : ∀ begun, Agrees remote (fun _ => True) begun
      (fun _ u u' => Late j row u u' ∧ F u) body db db') :
    ∃ n' r s s' d d', Late j row d d' ∧ F d ∧ (committed body >>= k).solo remote 0 env n ses db w =
        (k r).solo remote 0 env n' s d w ∧
      (committed body >>= k).solo remote 0 env n ses' db' w' =
        (k r).solo remote 0 env n' s' d' w' := by
  have hassoc : ∀ (ses : Session Database Key Env) (db : Database) (w : World),
      (committed body >>= k).solo remote 0 env n ses db w =
        (body >>= fun r => settle r >>= k).solo remote 0 env (n + 1)
          (.active (.fresh (env n))) db w := by
    intro ses db w
    rw [← bind_assoc]
    rfl
  rw [hassoc, hassoc]
  rcases solo_agrees (k := fun r => settle r >>= k) (n := n + 1) (i := 0) env w w'
      (o := Open.fresh (env n)) rfl (h (env n)) with
    ⟨n', r, o, o', hr, heq, heq'⟩ | ⟨n', r, -, heq, heq'⟩
  · rw [heq, heq']
    cases r with
    | ok a => exact ⟨n' + 1, .ok (), .idle, .idle, _, _, hr.1, hr.2, rfl, rfl⟩
    | error f => exact ⟨n', .error .database, _, _, db, db', hdb, hF, rfl, rfl⟩
  · rw [heq, heq']
    cases r with
    | ok a => exact ⟨n' + 1, .error .database, .idle, .idle, db, db', hdb, hF, rfl, rfl⟩
    | error f => exact ⟨n', .error .database, _, _, db, db', hdb, hF, rfl, rfl⟩

theorem evaluateMonitor_eq (id : Uuid) (now : Time) :
    evaluateMonitor id now = committed (evaluateTx id none now) := by
  unfold evaluateMonitor committed
  congr 1
  funext r
  cases r with
  | error f => rfl
  | ok u =>
  show evaluateTx id none now >>= _ = _
  congr 1
  funext r
  cases r <;> rfl

/-- The loop after the first monitor. -/
def evaluateRest (now : Time) (rest : List Uuid) : Except Failure Unit → Prog (Except Failure Unit)
  | .ok () => evaluateMonitors now rest
  | _ => pure (.error .database)

/-- The loop of a refresh: the monitor of the late result comes up once at
most, and until then its state does not change. -/
theorem evaluateMonitors_twin (env : Nat → Env) (w w' : World) (now : Time)
    (k : Except Failure Unit → Prog α) :
    ∀ (ids : List Uuid) (n : Nat) (ses ses' : Session Database Key Env)
      {db db' : Database}, ids.Nodup → Late j row db db' →
      (row.monitorId ∈ ids → Skips j row db.core row.monitorId none) →
      ∃ n' r s s' d d', Late j row d d' ∧
        (evaluateMonitors now ids >>= k).solo remote 0 env n ses db w =
          (k r).solo remote 0 env n' s d w ∧
        (evaluateMonitors now ids >>= k).solo remote 0 env n ses' db' w' =
          (k r).solo remote 0 env n' s' d' w' := by
  intro ids
  induction ids with
  | nil =>
    intro n ses ses' db db' _ hdb _
    exact ⟨n, .ok (), ses, ses', db, db', hdb, rfl, rfl⟩
  | cons id rest ih =>
    intro n ses ses' db db' hnodup hdb hskip
    obtain ⟨hnot, hnodup⟩ := List.nodup_cons.mp hnodup
    have hskip' : Skips j row db.core id none := by
      intro hm ht
      subst hm
      exact hskip List.mem_cons_self rfl ht
    have hagrees : ∀ begun, Agrees remote (fun _ => True) begun (fun _ u u' => Late j row u u' ∧
          Held row.monitorId (snapshotOf db.core row.monitorId) id u)
        (evaluateTx id none now) db db' := fun begun =>
      (evaluateTx_agrees hdb hskip').keeps (evaluateTx_held _ _ id now) fun _ => rfl
    let next : Except Failure Unit → Prog α := fun r => evaluateRest now rest r >>= k
    have hstep : ∀ (ses : Session Database Key Env) (db : Database) (w : World),
        (evaluateMonitors now (id :: rest) >>= k).solo remote 0 env n ses db w =
          (committed (evaluateTx id none now) >>= next).solo remote 0 env n ses db w := by
      intro ses db w
      rw [← evaluateMonitor_eq, ← bind_assoc]
      rfl
    obtain ⟨n₁, r, s, s', d, d', hd, hheld, heq, heq'⟩ :=
      committed_twin env w w' n ses ses' next (fun _ => rfl) hdb hagrees
    rw [hstep, hstep, heq, heq']
    cases r with
    | error f => exact ⟨n₁, .error .database, s, s', d, d', hd, rfl, rfl⟩
    | ok u =>
    refine ih n₁ s s' hnodup hd fun hmem => ?_
    have hne : row.monitorId ≠ id := by
      intro heq
      rw [heq] at hmem
      exact hnot hmem
    intro hm ht
    rw [hheld hne]
    exact hskip (List.mem_cons_of_mem _ hmem) hm ht

end Alone

/-! ## Runs of calls -/

/-- The monitors a refresh goes through. -/
def dueForRefresh (c : Core) (evaluatedAt : Time) (limit : Nat) : List Uuid :=
  (((c.monitors.rows.filter fun e =>
    e.2.deletedAt.isNone && c.periods.any fun p =>
      p.monitorId = e.1 && decide (p.startsAt ≤ evaluatedAt)).map
    Prod.fst).insertionSort (· ≤ ·)).take limit

theorem nodup_dueForRefresh (c : Core) (evaluatedAt : Time) (limit : Nat) :
    (dueForRefresh c evaluatedAt limit).Nodup := by
  refine (List.take_sublist _ _).nodup ?_
  refine (List.perm_insertionSort _ _).nodup_iff.mpr ?_
  exact (c.monitors.nodup_keys).sublist (List.filter_sublist.map Prod.fst)

/-- The calls that evaluate states, or lead to it. -/
inductive Visit
  | acceptance (evaluatedAt : Time) (job : LockedJob) (result : Result)
  | evaluateMonitor (monitorId : Uuid) (now : Time)
  | refreshDueStates (now : Time) (limit : Nat)

/-- The rows a call leaves. -/
def Visit.leave (env : Nat → Env) (db : Database) : Visit → Database
  | .acceptance evaluatedAt job result =>
    (alone env (Proofs.acceptance evaluatedAt job result) db).2
  | .evaluateMonitor monitorId now => (alone env (Model.evaluateMonitor monitorId now) db).2
  | .refreshDueStates now limit => (alone env (Model.refreshDueStates now limit) db).2

/-- Calls one after the other, each with the clock and the identifiers it is
given. -/
def visits (db : Database) (run : List ((Nat → Env) × Visit)) : Database :=
  run.foldl (fun db visit => visit.2.leave visit.1 db) db

/-- The call is not about the late result. -/
def Visit.Other (j resultId : Uuid) : Visit → Prop
  | .acceptance _ job result => job.id ≠ j ∧ result.resultId.toUuid? ≠ some resultId
  | _ => True

/-- No evaluation of the call lists the late check: it lies before the slot the
call corrects from, or at or before the last one observed. -/
def Visit.Overlooks (j : Uuid) (row : HealthCheck) (c : Core) : Visit → Prop
  | .acceptance evaluatedAt job _ => job.row.jobType = .scheduled →
      evaluatedAt ≤ job.row.expiresAt + correctionWindow →
      Skips j row c job.row.monitorId (some ⟨job.id, job.row.scheduledAt⟩)
  | .evaluateMonitor monitorId _ => Skips j row c monitorId none
  | .refreshDueStates now limit => row.monitorId ∈ dueForRefresh c now limit →
      Skips j row c row.monitorId none

variable {limit : Nat}

section Visits

variable {j : Uuid} {row : HealthCheck} {db db' : Database}

theorem committed_leaves (env : Nat → Env) (hdb : Late j row db db')
    (h : ∀ begun, Agrees remote (fun _ => True) begun (fun _ => Late j row) body db db') :
    Late j row (alone env (committed body) db).2 (alone env (committed body) db').2 := by
  obtain ⟨n', r, s, s', d, d', hd, -, heq, heq'⟩ := committed_twin env World.empty
    World.empty 0 .idle .idle pure (F := fun _ => True) trivial hdb fun begun =>
      (h begun).mono fun _ _ _ hu => ⟨hu, trivial⟩
  unfold alone
  rw [Prog.bind_pure] at heq heq'
  rw [heq, heq']
  exact hd

/-- Past the first transaction, a refresh is its loop. -/
theorem refreshDueStates_solo (env : Nat → Env)
    (hlimit : ¬ (decide (limit < 1) || decide (1000 < limit)) = true) (db : Database) :
    (refreshDueStates now limit).solo remote 0 env 0 .idle db World.empty =
      (evaluateMonitors now (dueForRefresh db.core now limit) >>= fun r => match r with
        | .ok () => (pure (.ok (dueForRefresh db.core now limit).length) :
            Prog (Except Failure Nat))
        | _ => pure (.error .database)).solo remote 0 env 3 .idle db World.empty := by
  unfold refreshDueStates
  rw [if_neg hlimit]
  rfl

theorem refreshDueStates_leaves (env : Nat → Env) (hdb : Late j row db db')
    (h : row.monitorId ∈ dueForRefresh db.core now limit → Skips j row db.core row.monitorId none) :
    Late j row (alone env (refreshDueStates now limit) db).2
      (alone env (refreshDueStates now limit) db').2 := by
  unfold alone
  by_cases hlimit : (decide (limit < 1) || decide (1000 < limit)) = true
  · unfold refreshDueStates
    rw [if_pos hlimit]
    exact hdb
  rw [refreshDueStates_solo env hlimit, refreshDueStates_solo env hlimit, hdb.core]
  obtain ⟨n', r, s, s', d, d', hd, heq, heq'⟩ := evaluateMonitors_twin env World.empty
    World.empty now (fun r => match r with
      | .ok () => (pure (.ok (dueForRefresh db.core now limit).length) : Prog (Except Failure Nat))
      | _ => pure (.error .database)) (dueForRefresh db.core now limit) 3 .idle .idle
    (nodup_dueForRefresh _ _ _) hdb h
  rw [heq, heq']
  cases r <;> exact hd

/-- One call. -/
theorem Visit.leave_late (env : Nat → Env) (hdb : Late j row db db') {visit : Visit}
    (hother : visit.Other j row.resultId) (hskip : visit.Overlooks j row db.core) :
    Late j row (visit.leave env db) (visit.leave env db') := by
  cases visit with
  | acceptance evaluatedAt job result =>
    simp only [Visit.leave, acceptance_eq]
    exact committed_leaves env hdb fun _ => acceptResult_agrees hdb hother.1 hother.2 hskip
  | evaluateMonitor monitorId now =>
    simp only [Visit.leave, evaluateMonitor_eq]
    exact committed_leaves env hdb fun _ => evaluateTx_agrees hdb hskip
  | refreshDueStates now limit => exact refreshDueStates_leaves env hdb hskip

/-- Every call of the run overlooks the late check, as things stand when it
begins. -/
def Overlooked (j : Uuid) (row : HealthCheck) : Database → List ((Nat → Env) × Visit) → Prop
  | _, [] => True
  | db, visit :: rest => visit.2.Overlooks j row db.core ∧
      Overlooked j row (visit.2.leave visit.1 db) rest

/-- A whole run. -/
theorem visits_late {run : List ((Nat → Env) × Visit)} (hdb : Late j row db db')
    (hother : ∀ visit ∈ run, visit.2.Other j row.resultId)
    (hskip : Overlooked j row db run) : Late j row (visits db run) (visits db' run) := by
  induction run generalizing db db' with
  | nil => exact hdb
  | cons visit rest ih =>
    have hnext := Visit.leave_late visit.1 hdb (hother visit List.mem_cons_self) hskip.1
    exact ih hnext (fun v hv => hother v (List.mem_cons_of_mem _ hv)) hskip.2

end Visits

/-! ## The late acceptance itself -/

/-- A write of an acceptance outside the core and the checks: the rows of the
job `j`, the gaps and the journal. -/
structure Sideways (j : Uuid) (w : Database → Database) : Prop where
  core : ∀ db, (w db).core = db.core
  checks : ∀ db, (w db).ledger.checks = db.ledger.checks
  jobs : ∀ db k, k ≠ j → (w db).ledger.jobs.find k = db.ledger.jobs.find k
  outbox : ∀ db k, k ≠ j → (w db).ledger.outbox.find k = db.ledger.outbox.find k

variable {begun env : Env} {busy : Key → Bool} {v : Database} {j : Uuid}
variable {e : Effect Database Key Unit}

theorem completeCheckJob_sideways (he : completeCheckJob j result begun env busy v = some e) :
    Sideways j e.write := by
  obtain ⟨e', he', rfl⟩ := onLedger_some he
  repeat' split at he'
  all_goals cases he'
  all_goals constructor <;> intros <;> first | rfl | exact Table.find_put_ne _ _ ‹_›

theorem markDispatchRepaired_sideways (he : markDispatchRepaired j begun env busy v = some e) :
    Sideways j e.write := by
  obtain ⟨e', he', rfl⟩ := onLedger_some he
  unfold updateDispatch at he'
  repeat' split at he'
  all_goals cases he'
  all_goals constructor <;> intros <;> first | rfl | exact Table.find_put_ne _ _ ‹_›

theorem deleteRecoveredCoverageGaps_sideways {t : Time}
    (he : deleteRecoveredCoverageGaps m t begun env busy v = some e) :
    Sideways j e.write := by
  obtain ⟨e', he', rfl⟩ := onLedger_some he
  cases he'
  constructor <;> intros <;> rfl

variable {row : HealthCheck}

section LateAcceptance

variable {job : LockedJob} {result : Result} {evaluatedAt : Time} {db : Database}

theorem Late.sideways {w : Database → Database} (h : Late job.id row v db)
    (hw : Sideways job.id w) : Late job.id row (w v) db where
  core := h.core.trans (hw.core v).symm
  here := by rw [hw.checks]; exact h.here
  gone := h.gone
  checks k hk := by rw [hw.checks]; exact h.checks k hk
  jobs k hk := (h.jobs k hk).trans (hw.jobs v k hk).symm
  outbox k hk := (h.outbox k hk).trans (hw.outbox v k hk).symm

theorem Late.journaled {v' : Database} (h : Late j row v db) (hv : Journaled v v') :
    Late j row v' db := by
  obtain ⟨hcore, here, gone, checks, jobs, outbox⟩ := h
  rw [← hv.ledger] at here checks jobs outbox
  exact ⟨hcore.trans hv.core.symm, here, gone, checks, jobs, outbox⟩

theorem insertAcceptedHealthCheck_late
    (he : insertAcceptedHealthCheck job.id job.row result begun env busy db = some e) :
    ∃ row, Late job.id row (e.write db) db := by
  obtain ⟨e', he', rfl⟩ := onLedger_some he
  repeat' (split at he' <;> try dsimp only at he')
  all_goals cases he'
  refine ⟨_, rfl, Table.find_put _ _ _, ?_,
    fun k hk => (Table.find_put_ne _ _ hk).symm, fun _ _ => rfl, fun _ _ => rfl⟩
  simp_all

/-- What a late acceptance leaves: one more check, and the core as it was. -/
theorem acceptResult_late (ht : job.row.jobType = .scheduled)
    (hlate : job.row.expiresAt + correctionWindow < evaluatedAt) :
    Returns remote begun (fun _ v => ∃ row, Late job.id row v db)
      (acceptResult (pure evaluatedAt) job result) db := by
  refine returns_query (fun env busy e₁ he₁ => ?_) (fun _ => ⟨_, rfl⟩)
  obtain ⟨row, h₁⟩ := insertAcceptedHealthCheck_late he₁
  refine returns_query (fun env busy e₂ he₂ => ?_) (fun _ => ⟨_, rfl⟩)
  have h₂ := h₁.sideways (completeCheckJob_sideways he₂)
  refine returns_query (fun env busy e₃ he₃ => ?_) (fun _ => ⟨_, rfl⟩)
  have h₃ := h₂.sideways (markDispatchRepaired_sideways he₃)
  refine returns_query (fun env busy e₄ he₄ => ?_) (fun _ => ⟨_, rfl⟩)
  have h₄ := h₃.sideways (deleteRecoveredCoverageGaps_sideways he₄)
  generalize e₄.write (e₃.write (e₂.write (e₁.write db))) = v at h₄
  dsimp only
  rw [if_pos ht]
  have hscheduled : Returns remote begun (fun _ v' => Journaled v v')
      (pure evaluatedAt >>= evaluateScheduled job) v := by
    show Returns remote begun (fun _ v' => Journaled v v') (evaluateScheduled job evaluatedAt) v
    unfold evaluateScheduled evaluateAcceptedTx
    have hdec : decide (job.row.expiresAt + 10 * minute < evaluatedAt) = true :=
      decide_eq_true hlate
    rw [if_pos hlate, hdec]
    exact applyScheduled_late evaluatedAt
  refine returns_bind hscheduled (fun _ v₁ hv₁ => ?_) (fun _ => ⟨_, rfl⟩)
  refine returns_query (fun env busy e₅ he₅ => ?_) (fun _ => ⟨_, rfl⟩)
  exact returns_ok ⟨row, (h₄.journaled hv₁).journaled (insertRefreshEvent_journaled he₅)⟩

/-- Results beyond the correction window are for the reports only, in every run
whose later evaluations do not list them. -/
theorem late_result_reporting_only (env : Nat → Env) (ht : job.row.jobType = .scheduled)
    (hlate : job.row.expiresAt + correctionWindow < evaluatedAt)
    {db₁ : Database} (haccepted : alone env (acceptance evaluatedAt job result) db = (.ok (), db₁))
    {row : HealthCheck} (hrow : db₁.ledger.checks.find job.id = some row)
    (run : List ((Nat → Env) × Visit))
    (hother : ∀ visit ∈ run, visit.2.Other job.id row.resultId)
    (hskip : Overlooked job.id row db₁ run) :
    (visits db₁ run).core.states = (visits db run).core.states ∧
    (visits db₁ run).core.evaluations = (visits db run).core.evaluations := by
  rw [acceptance_eq] at haccepted
  rcases committed_alone env (acceptResult_late ht hlate) with
    ⟨-, db', hdb', row', h⟩ | ⟨f, hf⟩
  · rw [haccepted] at hdb'
    cases hdb'
    have hsame : row' = row := Option.some.inj (h.here.symm.trans hrow)
    rw [hsame] at h
    have hend := visits_late h hother hskip
    rw [hend.core]
    exact ⟨rfl, rfl⟩
  · rw [haccepted] at hf
    cases hf

end LateAcceptance

namespace Sample

/-- Monitor 1 is expected every minute, and the result for minute 3 arrives in
time. -/
def timely : Database :=
  (accepted 3 { blank with core := { core with
    periods := [{ monitorId := 1, startsAt := 0, firstSlotAt := 0
                  endsAt := none, intervalSeconds := 60 }] } }).2

/-- The result for minute `n`, a failure, an hour after it was due. -/
def belated (n : Nat) : Prog (Except Failure Unit) :=
  acceptance ((n + 60) * minute) (slot n) (outcome n false)

/-- A later result, and a refresh. -/
def refreshing : List ((Nat → Env) × Visit) :=
  [(minuteOf 70, .acceptance (70 * minute) (slot 70) (outcome 70 true)),
    (minuteOf 71, .refreshDueStates (71 * minute) 10)]

/-- What the state of monitor 1 shows, and how many evaluations there are. -/
def shown (db : Database) : Option (ObservedState × Nat) × Nat :=
  ((db.core.states.find 1).map fun s => (s.observedState, s.consecutiveFailures),
    db.core.evaluations.rows.length)

end Sample

open Sample

/-- The result for minute 2 comes after the one for minute 3 was observed. -/
theorem late_result_reporting_only_sample :
    ∃ db₁, alone (minuteOf 62) (belated 2) timely = (.ok (), db₁) ∧
      (visits db₁ refreshing).core.states = (visits timely refreshing).core.states ∧
      (visits db₁ refreshing).core.evaluations =
        (visits timely refreshing).core.evaluations := by
  have hok : (alone (minuteOf 62) (belated 2) timely).1 = .ok () := by
    decide +kernel
  have hrow : (alone (minuteOf 62) (belated 2) timely).2.ledger.checks.find
      2 = some (acceptedRow (slot 2).row (outcome 2 false) 102 202) := by
    rfl
  refine ⟨_, Prod.ext hok rfl, ?_⟩
  refine late_result_reporting_only (minuteOf 62) rfl (by decide)
    (Prod.ext hok rfl) hrow refreshing ?_ ?_
  · intro visit hvisit
    simp only [refreshing, List.mem_cons, List.not_mem_nil, or_false] at hvisit
    rcases hvisit with rfl | rfl
    · exact ⟨by decide, by decide⟩
    · trivial
  · refine ⟨fun _ _ _ _ => ?_, fun _ _ _ => ?_, trivial⟩
    · decide +kernel
    · decide +kernel

/-- The one for minute 4 does not: the next refresh lists it, although it was
accepted an hour late, and counts it. -/
theorem late_result_evaluated : (alone (minuteOf 64) (belated 4) timely).1 = .ok () ∧
    (slot 4).row.expiresAt + correctionWindow < 64 * minute ∧
    shown (visits (alone (minuteOf 64) (belated 4)
      timely).2 [(minuteOf 71, .refreshDueStates (71 * minute) 10)]) =
      (some (.degraded, 2), 2) ∧
    shown (visits timely [(minuteOf 71, .refreshDueStates (71 * minute) 10)]) =
      (some (.degraded, 1), 1) := by
  refine ⟨by decide +kernel, by decide, by decide +kernel, by decide +kernel⟩

end WatchTrace.Proofs
