import WatchTrace.Proofs.Periods
import WatchTrace.Proofs.Revisions

/-!
# Ten manual tests, a hundred monitors

`TestNow` counts the manual tests that are not over, and `Create` the monitors
of the organization, before they insert another. Each takes a lock first: the
advisory lock of the manual queue, the row of the organization. Both are kept
to the end of the transaction, and a statement under `READ COMMITTED` sees what
was committed before it began, so the count that follows the lock sees
everything the last holder inserted, and whatever else can happen to it until
the commit makes it smaller.
-/

namespace WatchTrace.Proofs

open Tx Model Protocol

/-! ## The quotas -/

/-- A limit on the jobs of a kind that are not over. -/
def jobQuota {Own : Type} (row : Uuid → Own) (token : Own)
    (kind : JobType → Uuid → Bool) (limit : Nat) :
    Quota Database Key Own Uuid CheckJob where
  table := fun db => db.ledger.jobs
  key := .job
  row := row
  token := token
  counts := fun job => kind job.jobType job.monitorId && job.state.active
  limit := limit

variable {β : Type} {q : Stmt β}

theorem jobQuota_tame {Own : Type} {row : Uuid → Own} {token : Own}
    {kind : JobType → Uuid → Bool} {limit : Nat} (h : RevisesJobs q) :
    (jobQuota row token kind limit).TameStmt q := by
  refine Quota.tameStmt_of_revises h fun {job job'} hnext hcounts => ?_
  have hmonitor : job'.monitorId = job.monitorId := congrArg Prod.fst hnext.slot
  simp only [jobQuota, hnext.jobType, hmonitor, Bool.and_eq_true] at hcounts ⊢
  exact ⟨hcounts.1, hnext.active hcounts.2⟩

/-- At most ten manual tests; `pg_advisory_xact_lock` is the token. -/
def manualQuota : Quota Database Key Key Uuid CheckJob :=
  jobQuota .job .manualTestQueue (fun jobType _ => jobType == .manualTest) 10

/-- At most a hundred monitors of an organization; its row is the token. -/
def monitorQuota (organizationId : Uuid) : Quota Database Key Key Uuid Monitor where
  table := fun db => db.core.monitors
  key := .monitor
  row := .monitor
  token := .organization organizationId
  counts := fun m => m.organizationId == organizationId && m.deletedAt.isNone
  limit := MonitorService.maximumMonitorsPerOrg

theorem monitorQuota_tame {organizationId : Uuid} (h : RevisesMonitors q) :
    (monitorQuota organizationId).TameStmt q := by
  refine Quota.tameStmt_of_revises h fun {row row'} hamends hcounts => ?_
  simp only [monitorQuota, hamends.organization, Bool.and_eq_true,
    Option.isNone_iff_eq_none] at hcounts ⊢
  exact ⟨hcounts.1, hamends.undeleted hcounts.2⟩

theorem length_manual (db : Database) :
    (manualQuota.counted db).length = db.ledger.countActive .manualTest :=
  manualQuota.length_counted db

theorem length_monitors (organizationId : Uuid) (db : Database) :
    ((monitorQuota organizationId).counted db).length = db.core.countMonitors organizationId :=
  (monitorQuota organizationId).length_counted db

/-! ## `TestNow` -/

variable {environmentId : Uuid} {begun env : Env} {busy : Key → Bool} {db : Database}

variable {userId : Uuid} {e : Effect Database Key Uuid}

section Manual

variable {P : Primitives} {i : Nat} {o : Open Database Key Env} {x : Database × World}

theorem manual_tame : Tests manualQuota.TameStmt := tests_jobs.mono fun h => jobQuota_tame h

theorem manual_fits : manualQuota.Fits (lockTerms : Terms Database Key Env Key) :=
  Quota.fits_lockTerms rfl

theorem lockManaged_pending {monitorId : Uuid} (h : manualQuota.Pending o x.1) :
    manualQuota.protocol.Honours lockTerms remote i (fun r ses _ y => ∀ monitor, r = .ok monitor →
        ∃ o, ses = .active o ∧ manualQuota.Pending o y.1)
      (lockManaged userId environmentId monitorId) (.active o) () x := by
  refine Quota.carried_query manual_fits (Quota.Pending.carried manual_fits) h
    (manual_tame.lock _ _ _) ?_ ?_
  · intro env busy e he y h
    cases e.value with
    | none =>
      intro monitor hr
      cases hr
    | some found =>
    dsimp only
    split
    · exact fun monitor _ => ⟨_, rfl, h⟩
    · intro monitor hr
      cases hr
  · intro f y monitor hr
    cases hr

/-- The tests that are not over are in a list of fewer than ten. -/
def Admitted (r : Except Failure Unit) (ses : Session Database Key Env) (_ : Unit)
    (y : Database × World) : Prop :=
  r = .ok () → ∃ S o, ses = .active o ∧ S.length < 10 ∧ manualQuota.Held lockTerms S o y.1

theorem admitManualTest_keeps (h : manualQuota.Pending o x.1) :
    manualQuota.protocol.Honours lockTerms remote i Admitted admitManualTest
      (.active o) () x := by
  -- The lock; others may come first, and the count is of what they leave.
  refine Quota.carried_query manual_fits (Quota.Pending.carried manual_fits) h
    manual_tame.queue ?_ fun _ _ => nofun
  intro env busy e he y h
  cases he
  have htoken : Key.manualTestQueue ∈ [Key.manualTestQueue] ++ o.locks :=
    List.mem_append_left _ (List.mem_singleton_self _)
  have hheld := Quota.Pending.held (T := lockTerms) (x := y) h htoken
  refine Quota.carried_query manual_fits (Quota.Held.carried manual_fits _) hheld
    manual_tame.count ?_ fun _ _ => nofun
  intro env busy e he z hz
  have hcount : e.value = (manualQuota.counted (o.write y.1)).length := by
    rw [length_manual]
    cases he
    rfl
  dsimp only
  split
  · exact nofun
  next hfull =>
  refine Quota.carried_query manual_fits (Quota.Held.carried manual_fits _) hz
    manual_tame.pressure ?_ fun _ _ => nofun
  intro env busy e he y hy
  dsimp only
  split
  · exact nofun
  · refine fun _ => ⟨_, _, rfl, ?_, hy⟩
    rw [hcount] at hfull
    exact Nat.lt_of_not_le hfull

theorem createManualCheckJob_put {jobId : Uuid} {job : CheckJob}
    (he : createManualCheckJob jobId job begun env busy db = some e) :
    (∀ x, (e.write x).ledger.jobs = x.ledger.jobs.put jobId job) ∧
      Key.job jobId ∈ e.locks := by
  obtain ⟨e', he', rfl⟩ := onLedger_some he
  split at he'
  · cases he'
  · cases he'
    exact ⟨fun _ => rfl, List.mem_cons_self⟩

theorem testNow_keeps (signingKeyId : String) (userId environmentId monitorId : Uuid) :
    manualQuota.protocol.Honours lockTerms remote i Done
      (testNow P signingKeyId userId environmentId monitorId) .idle () x := by
  refine honours_start (fun env x _ _ => ?_) fun _ _ _ => trivial
  refine honours_bind (lockManaged_pending (Quota.pending_fresh env x.1)) ?_
  intro r ses _ x hr
  cases r with
  | error failure => trivial
  | ok monitor =>
  obtain ⟨o, rfl, h⟩ := hr monitor rfl
  refine honours_bind (admitManualTest_keeps h) fun r ses _ x hr => ?_
  cases r with
  | error failure => trivial
  | ok u =>
  obtain ⟨S, o, rfl, hS, h⟩ := hr rfl
  -- Under the lock, what counts is in `S`.
  have hcarried : manualQuota.Carried lockTerms World (manualQuota.Held lockTerms S) :=
    Quota.Held.carried manual_fits S
  refine Quota.carried_query manual_fits hcarried h (manual_tame.pool _) ?_ fun _ _ => trivial
  intro env busy e he x h
  dsimp only
  split
  next pool _ =>
    split
    · trivial
    split
    · refine Quota.carried_query manual_fits hcarried h manual_tame.id ?_ fun _ _ => trivial
      intro env busy e he x h
      refine Quota.carried_query manual_fits hcarried h manual_tame.time ?_ fun _ _ => trivial
      intro env busy e he x h
      refine honours_bind (lasting_outside (Quota.worldly _)
        hcarried.lasting (sealedPayload_outside _ _) h) fun payload ses _ x hr => ?_
      obtain ⟨-, rfl, h⟩ := hr
      cases payload with
      | none => trivial
      | some payload =>
      -- The insert, which is one more; the rest does not count.
      refine Quota.held_query manual_fits ?_ fun _ _ => trivial
      intro env busy e he
      obtain ⟨hput, hlock⟩ := createManualCheckJob_put he
      refine ⟨_ :: S, h.insert manual_fits hput hlock, fun x h => ?_⟩
      exact h.rest manual_fits hS (by simp [manual_tame.dispatch, manual_tame.refresh])
    · trivial
  · trivial

end Manual

/-! ## `Create` -/

variable {config : Configuration}

variable {other : Uuid}

section Creation

open MonitorService

variable {L : Destination.Library} {encrypt : Encrypt} {hash : Uuid → Nat} {i : Nat}
variable {o : Open Database Key Env} {x : Database × World} {organizationId : Uuid}

theorem monitor_fits (organizationId : Uuid) :
    (monitorQuota organizationId).Fits (lockTerms : Terms Database Key Env Key) :=
  Quota.fits_lockTerms rfl

theorem createMonitor_put
    (he : createMonitor other environmentId config begun env busy db = some e) :
    ∃ row, row.organizationId = other ∧ Key.monitor env.uuid ∈ e.locks ∧
      ∀ x, (e.write x).core.monitors = x.core.monitors.put env.uuid row := by
  obtain ⟨e', he', -, hlocks, hwrite⟩ := onCore_some he
  split at he'
  · cases he'
  unfold putMonitor at he'
  split at he'
  · cases he'
    refine ⟨_, ?_, hlocks ▸ List.mem_singleton_self _, fun x => by rw [hwrite]⟩
    rfl
  · cases he'

theorem lockEnvironment_token {e : Effect Database Key (Option (Uuid × Role))} {found : Uuid × Role}
    (he : lockEnvironmentForMonitorCreation userId environmentId begun env busy db = some e)
    (hvalue : e.value = some found) : Key.organization found.1 ∈ e.locks := by
  obtain ⟨e', he', hval, hlocks, -⟩ := onCore_some he
  rw [hval] at hvalue
  rw [hlocks]
  repeat' split at he'
  all_goals cases he'
  all_goals cases hvalue
  exact List.mem_singleton_self _

/-- A monitor of another organization is no concern of this one. -/
theorem createMonitor_tame (h : other ≠ organizationId) :
    (monitorQuota organizationId).TameStmt (createMonitor other environmentId config) := by
  intro begun env busy db e he
  obtain ⟨row, rfl, hlock, hput⟩ := createMonitor_put he
  exact .put hput hlock fun hcounts => absurd hcounts (by simp [monitorQuota, h])

/-- The organization's row is owned and its monitors are in a list of fewer than
a hundred. -/
theorem insertMonitor_keeps {S : List Uuid}
    (h : (monitorQuota organizationId).Held lockTerms S o x.1)
    (hS : S.length < maximumMonitorsPerOrg) :
    (monitorQuota organizationId).protocol.Honours lockTerms remote i Done
      (insertMonitor hash organizationId environmentId config) (.active o) () x := by
  have fits := monitor_fits organizationId
  refine Quota.held_query fits ?_ fun _ _ => trivial
  intro env busy e he
  obtain ⟨row, -, hlock, hput⟩ := createMonitor_put he
  refine ⟨_ :: S, h.insert fits hput hlock, fun x h => ?_⟩
  have htame : Creates hash (monitorQuota organizationId).TameStmt :=
    (creates_monitors hash).mono fun h => monitorQuota_tame h
  exact h.rest fits hS (by simp [htame.store, htame.period, htame.state, htame.refresh])

theorem create_keeps (userId environmentId : Uuid) (input : CreateInput) :
    (monitorQuota organizationId).protocol.Honours lockTerms remote i Done
      (create L encrypt hash userId environmentId input) .idle () x := by
  have fits := monitor_fits organizationId
  unfold create
  split
  · refine honours_start (fun begun x _ _ => ?_) fun _ _ _ => trivial
    refine Quota.carried_query fits (Quota.Pending.carried fits) (Quota.pending_fresh begun x.1)
      (monitorQuota_tame ((creates_monitors hash).lock _ _)) ?_ fun _ _ => trivial
    intro env busy locked he x h
    cases hvalue : locked.value with
    | none => trivial
    | some found =>
    dsimp only
    split
    · trivial
    split
    next sealed _ =>
      by_cases hother : found.1 = organizationId
      · -- The row is owned, so the count is of everything committed before.
        have htoken := lockEnvironment_token he hvalue
        rw [hother] at htoken ⊢
        have hheld := Quota.Pending.held (T := lockTerms) (x := x) h (List.mem_append_left _ htoken)
        refine Quota.carried_query fits (Quota.Held.carried fits _) hheld
          (monitorQuota_tame ((creates_monitors hash).count _)) ?_ fun _ _ => trivial
        intro env busy e he y hy
        have hcount : e.value = ((monitorQuota organizationId).counted
            (((Open.fresh begun).extend locked).write x.1)).length := by
          rw [length_monitors]
          cases he
          rfl
        dsimp only
        split
        · trivial
        next hroom =>
          rw [hcount] at hroom
          exact insertMonitor_keeps hy (Nat.lt_of_not_le hroom)
      · refine Quota.honours_within fits ?_ fun o ho => Session.active.inj ho ▸ .inl h
        have htame : Creates hash (monitorQuota organizationId).TameStmt :=
          (creates_monitors hash).mono fun h => monitorQuota_tame h
        refine Prog.within_then (Prog.within_query (htame.count _)) (fun count => ?_)
          fun _ => trivial
        dsimp only
        split
        · trivial
        · exact insertMonitor_within htame (createMonitor_tame hother)
    · trivial
  · trivial

end Creation

/-! ## Runs -/

variable {p : Prog Unit}

section Runs

open MonitorService

variable (P : Primitives) (L : Destination.Library) (encrypt : Encrypt) (hash : Uuid → Nat)

/-- The calls that insert, and those that move jobs on and change or delete
monitors. -/
inductive Capped : Prog Unit → Prop
  | testNow (signingKeyId : String) (userId environmentId monitorId : Uuid) :
      Capped (testNow P signingKeyId userId environmentId monitorId >>= fun _ => pure ())
  | create (userId environmentId : Uuid) (input : CreateInput) :
      Capped (create L encrypt hash userId environmentId input >>= fun _ => pure ())
  | scheduleDue (platformKeyId : String) (batch : Nat) :
      Capped (scheduleDue P platformKeyId batch >>= fun _ => pure ())
  | publishNext : Capped (publishNext >>= fun _ => pure ())
  | reclaimPublisherLeases : Capped (reclaimPublisherLeases >>= fun _ => pure ())
  | consumeNext : Capped (consumeNext P >>= fun _ => pure ())
  | sweepDeadlines : Capped (sweepDeadlines >>= fun _ => pure ())
  | reconcileNext : Capped (reconcileNext P >>= fun _ => pure ())
  | update (userId environmentId monitorId : Uuid) (input : CreateInput) :
      Capped (update L encrypt hash userId environmentId monitorId input >>= fun _ => pure ())
  | pause (userId environmentId monitorId : Uuid) :
      Capped (pause hash userId environmentId monitorId >>= fun _ => pure ())
  | resume (userId environmentId monitorId : Uuid) :
      Capped (resume hash userId environmentId monitorId >>= fun _ => pure ())
  | delete (userId environmentId monitorId : Uuid) :
      Capped (delete userId environmentId monitorId >>= fun _ => pure ())

-- The programs are compared as they stand, not by what their input normalizes to.
attribute [local irreducible] normalizeCreateInput

variable {P L encrypt hash}

/-- A scheduled job is not a manual test. -/
theorem createScheduledCheckJob_tame (jobId : Uuid) (m : DueMonitor) (scheduledAt : Time)
    (snapshotHash : String) :
    manualQuota.TameStmt (createScheduledCheckJob jobId (m.row scheduledAt snapshotHash)) := by
  intro begun env busy db e he
  obtain ⟨e', he', rfl⟩ := onLedger_some he
  split at he'
  · cases he'
    exact .same fun _ => rfl
  split at he'
  · cases he'
  · cases he'
    exact .put (fun _ => rfl) List.mem_cons_self fun h => by cases h

/-- No job and no monitor is inserted, and none comes back to life. -/
abbrev Harmless {β : Type} (q : Stmt β) : Prop := RevisesJobs q ∧ RevisesMonitors q

/-- All but three of the calls insert nothing that is counted. -/
theorem capped_cases (hp : Capped P L encrypt hash p) : (∃ key userId environmentId monitorId,
      p = testNow P key userId environmentId monitorId >>= fun _ => pure ()) ∨
    (∃ userId environmentId input,
      p = create L encrypt hash userId environmentId input >>= fun _ => pure ()) ∨
    (∃ key batch, p = scheduleDue P key batch >>= fun _ => pure ()) ∨
    p.Within Harmless := by
  have hsteady : ∀ {α : Type} {p : Prog α}, p.Within RevisesJobs →
      p.Within RevisesMonitors → (p >>= fun _ => pure ()).Within Harmless :=
    fun hjobs hmonitors => Prog.within_bind (hjobs.and hmonitors) fun _ => trivial
  cases hp with
  | testNow => exact .inl ⟨_, _, _, _, rfl⟩
  | create => exact .inr (.inl ⟨_, _, _, rfl⟩)
  | scheduleDue => exact .inr (.inr (.inl ⟨_, _, rfl⟩))
  | publishNext =>
    exact .inr (.inr (.inr (hsteady ((publishNext_within publishes_work).mono And.left)
      (publishNext_within publishes_monitors))))
  | reclaimPublisherLeases =>
    exact .inr (.inr (.inr (hsteady ((reclaimPublisherLeases_within publishes_work).mono And.left)
      (reclaimPublisherLeases_within publishes_monitors))))
  | consumeNext =>
    exact .inr (.inr (.inr (hsteady ((consumeNext_within consumes_work P).mono And.left)
      ((consumeNext_within consumes_derived P).mono fun h => h.monitors))))
  | sweepDeadlines =>
    exact .inr (.inr (.inr (hsteady ((sweepDeadlines_within maintains_work).mono And.left)
      (sweepDeadlines_within maintains_monitors))))
  | reconcileNext =>
    exact .inr (.inr (.inr (hsteady ((reconcileNext_within maintains_work P).mono And.left)
      (reconcileNext_within maintains_monitors P))))
  | update =>
    exact .inr (.inr (.inr (hsteady (update_within (manages_jobs hash) _ _ _ _)
      (update_within (manages_monitors hash) _ _ _ _))))
  | pause | resume =>
    exact .inr (.inr (.inr (hsteady (setPaused_within (manages_jobs hash) _ _ _ _)
      (setPaused_within (manages_monitors hash) _ _ _ _))))
  | delete =>
    exact .inr (.inr (.inr (hsteady (delete_within (manages_jobs hash) _ _ _)
      (delete_within (manages_monitors hash) _ _ _))))

theorem capped_manual (hp : Capped P L encrypt hash p) (i : Nat) (x : Database × World) :
    manualQuota.protocol.Honours lockTerms remote i Done p .idle () x := by
  have hwithin : ∀ {p : Prog Unit}, p.Within manualQuota.TameStmt →
      manualQuota.protocol.Honours lockTerms remote i Done p .idle () x :=
    fun hp => Quota.honours_within manual_fits hp of_idle
  rcases capped_cases hp with ⟨key, userId, environmentId, monitorId, rfl⟩ |
    ⟨userId, environmentId, input, rfl⟩ | ⟨key, batch, rfl⟩ | hsteady
  · exact (testNow_keeps key userId environmentId monitorId).void
  · refine hwithin (Prog.within_bind ?_ fun _ => trivial)
    refine create_within ((creates_jobs hash).mono fun h => jobQuota_tame h) ?_ _ _ _
    exact fun _ _ _ => jobQuota_tame (revisesJobs_core _)
  · refine hwithin (Prog.within_bind ?_ fun _ => trivial)
    refine scheduleDue_within createScheduledCheckJob_tame ?_ _ _
    exact schedules_jobs.mono fun h => jobQuota_tame h
  · exact hwithin (hsteady.mono fun h => jobQuota_tame h.1)

theorem capped_monitors (hp : Capped P L encrypt hash p) (organizationId : Uuid) (i : Nat)
    (x : Database × World) :
    (monitorQuota organizationId).protocol.Honours lockTerms remote i Done p
      .idle () x := by
  have hwithin : ∀ {p : Prog Unit}, p.Within (monitorQuota organizationId).TameStmt →
      (monitorQuota organizationId).protocol.Honours lockTerms remote i Done p .idle () x :=
    fun hp => Quota.honours_within (monitor_fits organizationId) hp of_idle
  rcases capped_cases hp with ⟨key, userId, environmentId, monitorId, rfl⟩ |
    ⟨userId, environmentId, input, rfl⟩ | ⟨key, batch, rfl⟩ | hsteady
  · refine hwithin (Prog.within_bind ?_ fun _ => trivial)
    refine testNow_within (tests_monitors.mono fun h => monitorQuota_tame h) ?_ _ _ _ _
    exact fun _ _ _ => monitorQuota_tame (revisesMonitors_ledger _)
  · exact (create_keeps userId environmentId input).void
  · refine hwithin (Prog.within_bind ?_ fun _ => trivial)
    refine scheduleDue_within ?_ (schedules_monitors.mono fun h => monitorQuota_tame h) _ _
    exact fun _ _ _ _ => monitorQuota_tame (revisesMonitors_ledger _)
  · exact hwithin (hsteady.mono fun h => monitorQuota_tame h.2)

/-- In every run the caps hold in every committed state, if they held at first. -/
theorem caps_hold {db : Database} {w : World} {s : System}
    (hmanual : db.ledger.countActive .manualTest ≤ 10)
    (hmonitors : ∀ organizationId, db.core.countMonitors organizationId ≤ 100)
    (hrun : Steps remote (Capped P L encrypt hash) (Sys.quiet db w) s) :
    s.db.ledger.countActive .manualTest ≤ 10 ∧
      ∀ organizationId, s.db.core.countMonitors organizationId ≤ 100 := by
  constructor
  · rw [← length_manual] at hmanual ⊢
    exact steps_good (P := manualQuota.protocol) (x := (db, w))
      (fun p hp i x _ => capped_manual hp i x) hmanual hrun
  · intro organizationId
    specialize hmonitors organizationId
    rw [← length_monitors] at hmonitors ⊢
    exact steps_good (P := (monitorQuota organizationId).protocol) (x := (db, w))
      (fun p hp i x _ => capped_monitors hp organizationId i x) hmonitors hrun

end Runs

namespace Sample

/-- Somebody tests the sample monitor, and then deletes it. -/
def testing : Script :=
  .spawn (testNow primitives "platform" 5 3 1 >>= fun _ => pure ()) ::
    steps 0 (moment 61 11 21) 14 ++
    .spawn (MonitorService.delete 5 3 1 >>= fun _ => pure ()) ::
    steps 1 (moment 62 12 21) 6

theorem testing_within : ∀ a ∈ testing,
    a.within (Capped primitives noUrls (fun _ => none) fun _ => 0) := by
  simp only [testing, List.forall_mem_append, List.forall_mem_cons]
  exact ⟨⟨.testNow _ _ _ _, steps_within _ _ _ _⟩, .delete _ _ _, steps_within _ _ _ _⟩

end Sample

open Sample

/-- One manual test more, one monitor less. -/
theorem caps_hold_sample : ∃ s, Steps remote (Capped primitives noUrls (fun _ => none) fun _ => 0)
      managing s ∧
    s.db.ledger.countActive .manualTest = 1 ∧ s.db.core.countMonitors 2 = 0 ∧
    (s.db.ledger.countActive .manualTest ≤ 10 ∧
      ∀ organizationId, s.db.core.countMonitors organizationId ≤ 100) := by
  have hcounts : (managing.run remote testing).map
      (fun s => (s.db.ledger.countActive .manualTest, s.db.core.countMonitors 2)) =
      some (1, 0) := by decide +kernel
  obtain ⟨s, hs, hcount⟩ := Option.map_eq_some_iff.mp hcounts
  have hrun := Sys.run_steps testing_within hs
  refine ⟨s, hrun, congrArg Prod.fst hcount, congrArg Prod.snd hcount, ?_⟩
  refine caps_hold (by decide) (fun organizationId => ?_) hrun
  exact Nat.le_trans List.countP_le_length (by decide)

end WatchTrace.Proofs
