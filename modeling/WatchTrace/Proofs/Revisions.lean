import WatchTrace.Proofs.Config
import WatchTrace.Tx.Quota

/-!
# What becomes of a job, of its dispatch, and of a monitor

Once a job is there the engine only ever moves it on: towards the end of its
life, with the monitor, the slot, the snapshot and the kind it was created
with. Its row in the outbox keeps its payload, by a trigger. Once a monitor is
there it stays in its organization, and a deleted one stays deleted. Every
statement of every call changes at most one such row, in view and under its lock;
the only exceptions are the three that insert one.
-/

namespace WatchTrace.Proofs

open Tx Model

/-! ## Jobs and the outbox -/

/-- A job as a later statement may leave it. -/
structure Succeeds (job job' : CheckJob) : Prop where
  jobType : job'.jobType = job.jobType
  slot : job'.slot = job.slot
  snapshotHash : job'.snapshotHash = job.snapshotHash
  expiresAt : job'.expiresAt = job.expiresAt
  active : job'.state.active = true → job.state.active = true

abbrev RevisesJobs {β : Type} (q : Stmt β) : Prop :=
  Revises (fun db : Database => db.ledger.jobs) Key.job Succeeds q

abbrev RevisesOutbox {β : Type} (q : Stmt β) : Prop :=
  Revises (fun db : Database => db.ledger.outbox) Key.dispatch
    (fun row row' => row'.payload = row.payload) q

/-- Both at once. -/
abbrev RevisesWork {β : Type} (q : Stmt β) : Prop := RevisesJobs q ∧ RevisesOutbox q

/-- What a statement about the ledger does to jobs and dispatches: nothing, or one
job moves on, or one row of the outbox is updated. -/
inductive Revision {β : Type} (l : Ledger) (e : Effect Ledger Key β) : Prop
  | none (jobs : ∀ l', (e.write l').jobs = l'.jobs) (outbox : ∀ l', (e.write l').outbox = l'.outbox)
  | job {jobId : Uuid} {job job' : CheckJob} {value : β} (eq : e = updateJob jobId job' value)
      (find : l.jobs.find jobId = some job) (next : Succeeds job job')
  | dispatch {jobId : Uuid} {row row' : Dispatch} {value : β}
      (update : updateDispatch jobId row row' value = some e)
      (find : l.outbox.find jobId = some row)

section Work

variable {β : Type} {jobId : Uuid}

theorem revisesWork_core (q : Tx.Stmt Core Key Env β) : RevisesWork (onCore q) :=
  ⟨fun _ _ _ _ _ he => .inl fun x => congrArg Ledger.jobs (onCore_ledger he x),
    fun _ _ _ _ _ he => .inl fun x => congrArg Ledger.outbox (onCore_ledger he x)⟩

theorem revisesWork_journal (q : Tx.Stmt Journal Key Env β) : RevisesWork (onJournal q) :=
  ⟨fun _ _ _ _ _ he => .inl fun x => congrArg Ledger.jobs (onJournal_ledger he x),
    fun _ _ _ _ _ he => .inl fun x => congrArg Ledger.outbox (onJournal_ledger he x)⟩

theorem revisesJobs_ledger {q : Tx.Stmt Ledger Key Env β}
    (h : ∀ {begun env busy l e}, q begun env busy l = some e →
      ∀ l', (e.write l').jobs = l'.jobs) : RevisesJobs (onLedger q) := by
  intro begun env busy db e he
  obtain ⟨e', he', rfl⟩ := onLedger_some he
  exact .inl fun x => h he' x.ledger

theorem updateDispatch_some {old new : Dispatch} {value : β} {e : Effect Ledger Key β}
    (he : updateDispatch jobId old new value = some e) : new.payload = old.payload ∧ e =
      { value := value
        write := fun l => { l with outbox := l.outbox.put jobId new }
        locks := [.dispatch jobId] } := by
  unfold updateDispatch at he
  split at he
  next hpayload => exact ⟨hpayload.1, (Option.some.inj he).symm⟩
  · cases he

theorem revisesWork_ledger {q : Tx.Stmt Ledger Key Env β}
    (h : ∀ {begun env busy l e}, q begun env busy l = some e → Revision l e) :
    RevisesWork (onLedger q) := by
  refine ⟨fun begun env busy db e he => ?_, fun begun env busy db e he => ?_⟩
  · obtain ⟨e', he', rfl⟩ := onLedger_some he
    cases h he' with
    | none hjobs houtbox => exact .inl fun x => hjobs x.ledger
    | job heq hfind hnext =>
      subst heq
      exact .inr ⟨_, _, _, hfind, List.mem_singleton_self _, hnext, fun _ => rfl⟩
    | dispatch hupdate hfind =>
      obtain ⟨-, rfl⟩ := updateDispatch_some hupdate
      exact .inl fun _ => rfl
  · obtain ⟨e', he', rfl⟩ := onLedger_some he
    cases h he' with
    | none hjobs houtbox => exact .inl fun x => houtbox x.ledger
    | job heq hfind hnext =>
      subst heq
      exact .inl fun _ => rfl
    | dispatch hupdate hfind =>
      obtain ⟨hpayload, rfl⟩ := updateDispatch_some hupdate
      exact .inr ⟨_, _, _, hfind, List.mem_singleton_self _, hpayload, fun _ => rfl⟩

/-- A statement about the ledger that leaves both alone. -/
theorem revisesWork_same {q : Tx.Stmt Ledger Key Env β}
    (h : ∀ {begun env busy l e}, q begun env busy l = some e →
      ∀ l', (e.write l').jobs = l'.jobs ∧ (e.write l').outbox = l'.outbox) :
    RevisesWork (onLedger q) :=
  revisesWork_ledger fun he => .none (fun l => (h he l).1) fun l => (h he l).2

theorem updateLeased_revision {token : Uuid} {change : Dispatch → Dispatch} {begun env : Env}
    {busy : Key → Bool} {l : Ledger} {e : Effect Ledger Key Unit}
    (he : updateLeased jobId token change begun env busy l = some e) : Revision l e := by
  unfold updateLeased at he
  split at he
  · cases he
    exact .none (fun _ => rfl) fun _ => rfl
  next row hfind =>
    split at he
    · exact .dispatch he hfind
    · cases he
      exact .none (fun _ => rfl) fun _ => rfl

theorem insertMonitoringCoverageGap_work (key : GapKey) (organizationId environmentId : Uuid) :
    RevisesWork (insertMonitoringCoverageGap key organizationId environmentId) := by
  refine revisesWork_same fun he l => ?_
  split at he <;> cases he <;> exact ⟨rfl, rfl⟩

theorem insertCoverageGapFromJob_work (reason : GapReason) (jobId : Uuid) :
    RevisesWork (insertCoverageGapFromJob reason jobId) := by
  constructor
  all_goals
    intro begun env busy db e he
    unfold insertCoverageGapFromJob at he
    split at he
  · cases he
    exact .inl fun _ => rfl
  · exact (insertMonitoringCoverageGap_work _ _ _).1 begun env busy db e he
  · cases he
    exact .inl fun _ => rfl
  · exact (insertMonitoringCoverageGap_work _ _ _).2 begun env busy db e he

theorem lockResultCheckJob_work (keyId : String) (jobId : IdText) :
    RevisesWork (lockResultCheckJob keyId jobId) := by
  constructor
  all_goals
    intro begun env busy db e he
    unfold lockResultCheckJob at he
    repeat' split at he
    all_goals cases he
    all_goals exact .inl fun _ => rfl

theorem domestic_work : Domestic RevisesWork where
  core := fun q => revisesWork_core q
  journal := fun _ => revisesWork_journal _

theorem active_of_unpublished {state : JobState} (h : state.unpublished = true) :
    state.active = true := by
  cases state <;> first | rfl | cases h

/-! A branch of a statement leaves both alone, moves the job it has found on to the
end of its life, or updates the dispatch it has found. -/

theorem consumes_work : Consumes RevisesWork := by
  constructor
  case reads => exact fun _ => ⟨revises_look, revises_look⟩
  case lock => exact lockResultCheckJob_work
  case reacts => exact domestic_work.reacts
  case evaluates => exact fun _ => domestic_work.evaluates _
  all_goals
    intros
    refine revisesWork_ledger fun he => ?_
    try dsimp only at he
    repeat' split at he
    all_goals first | exact .dispatch he ‹_› | cases he
    all_goals first
      | exact .none (fun _ => rfl) fun _ => rfl
      | refine .job rfl ‹_› ?_
        exact ⟨rfl, rfl, rfl, rfl, fun h => by cases h⟩

theorem publishes_work : Publishes RevisesWork := by
  constructor
  case claim =>
    refine revisesWork_ledger fun he => ?_
    dsimp only at he
    split at he
    · cases he
      exact .none (fun _ => rfl) fun _ => rfl
    next jobId row hready =>
      have hrow := List.mem_of_getElem? hready
      have hlisted := (List.mem_filter.mp (List.mem_filter.mp hrow).1).1
      exact .dispatch he (Table.mem_rows.mp hlisted)
  case expire => exact fun _ _ => revisesWork_ledger fun he => updateLeased_revision he
  case gap => exact insertCoverageGapFromJob_work _
  case publish =>
    refine fun _ _ _ => revisesWork_ledger fun he => ?_
    split at he
    · cases he
    · exact updateLeased_revision he
  case failure => exact fun _ _ _ _ => revisesWork_ledger fun he => updateLeased_revision he
  all_goals
    intros
    refine revisesWork_ledger fun he => ?_
    repeat' split at he
    all_goals first | exact .dispatch he ‹_› | cases he
    all_goals first
      | exact .none (fun _ => rfl) fun _ => rfl
      | refine .job rfl ‹_› ?_
        exact ⟨rfl, rfl, rfl, rfl, fun _ => active_of_unpublished ‹_›⟩

theorem maintains_work : Maintains RevisesWork := by
  constructor
  case gap => exact insertMonitoringCoverageGap_work
  case deadGap =>
    intro jobId
    unfold insertDeadCoverageGapFromJob
    split
    · exact ⟨fun _ _ _ _ _ he => (nomatch he), fun _ _ _ _ _ he => nomatch he⟩
    · exact insertCoverageGapFromJob_work _ _
  case journal => exact fun _ => revisesWork_journal _
  all_goals
    intros
    refine revisesWork_ledger fun he => ?_
    repeat' split at he
    all_goals cases he
    all_goals first
      | exact .none (fun _ => rfl) fun _ => rfl
      | refine .job rfl ‹_› ?_
        exact ⟨rfl, rfl, rfl, rfl, fun h => by cases h⟩

end Work

/-! ## The calls that insert jobs, and those that do not see them -/

section Jobs

variable {β : Type}

theorem revisesJobs_core (q : Tx.Stmt Core Key Env β) : RevisesJobs (onCore q) :=
  (revisesWork_core q).1

theorem readLedger_jobs (f : Ledger → β) : RevisesJobs (onLedger (.read f)) := by
  refine revisesJobs_ledger fun he l => ?_
  cases he
  rfl

theorem createDispatchOutbox_jobs (jobId : Uuid) (payload : DispatchPayload) :
    RevisesJobs (createDispatchOutbox jobId payload) := by
  refine revisesJobs_ledger fun he l => ?_
  split at he
  · cases he
  · cases he
    rfl

theorem insertMonitorRefreshEvent_jobs (organizationId environmentId : Uuid)
    (eventType resourceType : String) (resourceId : Uuid) :
    RevisesJobs (insertMonitorRefreshEvent organizationId environmentId eventType
      resourceType resourceId) := by
  unfold insertMonitorRefreshEvent insertRefreshEvent
  exact (revisesWork_journal _).1

theorem schedules_jobs : Schedules RevisesJobs where
  count := readLedger_jobs _
  time := revises_look
  due := fun _ => revises_look
  id := revises_look
  gap := fun _ _ _ => (insertMonitoringCoverageGap_work _ _ _).1
  next := fun _ _ _ => revisesJobs_core _
  dispatch := createDispatchOutbox_jobs
  journal := fun _ => (revisesWork_journal _).1

theorem manages_jobs (hash : Uuid → Nat) : Manages hash RevisesJobs where
  lock := fun _ _ _ => revisesJobs_core _
  update := fun _ _ _ _ => revisesJobs_core _
  pause := fun _ _ _ _ => revisesJobs_core _
  delete := fun _ _ _ => revisesJobs_core _
  close := fun _ => revisesJobs_core _
  reopen := fun _ => revisesJobs_core _
  refresh := insertMonitorRefreshEvent_jobs

theorem creates_jobs (hash : Uuid → Nat) : Creates hash RevisesJobs where
  lock := fun _ _ => revisesJobs_core _
  count := fun _ => revisesJobs_core _
  store := fun _ _ => revisesJobs_core _
  period := fun _ => revisesJobs_core _
  state := fun _ => revisesJobs_core _
  refresh := insertMonitorRefreshEvent_jobs

theorem tests_jobs : Tests RevisesJobs where
  lock := fun _ _ _ => revisesJobs_core _
  queue := revises_look
  count := readLedger_jobs _
  pressure := revises_look
  pool := fun _ => revisesJobs_core _
  id := revises_look
  time := revises_look
  dispatch := createDispatchOutbox_jobs
  refresh := insertMonitorRefreshEvent_jobs

end Jobs

/-! ## Monitors -/

/-- A monitor as a later statement may leave it. -/
structure Amends (monitor monitor' : Monitor) : Prop where
  organization : monitor'.organizationId = monitor.organizationId
  environment : monitor'.environmentId = monitor.environmentId
  undeleted : monitor'.deletedAt = none → monitor.deletedAt = none

abbrev RevisesMonitors {β : Type} (q : Stmt β) : Prop :=
  Revises (fun db : Database => db.core.monitors) Key.monitor Amends q

section Monitors

variable {β : Type}

theorem insertCoverageGapFromJob_derived (reason : GapReason) (jobId : Uuid) :
    WritesDerived (insertCoverageGapFromJob reason jobId) := by
  intro begun env busy db e he
  unfold insertCoverageGapFromJob at he
  split at he
  · cases he
    exact derived_id
  · exact writesDerived_ledger _ begun env busy db e he

theorem publishes_derived : Publishes WritesDerived where
  claim := writesDerived_ledger _
  expire := fun _ _ => writesDerived_ledger _
  expireJob := fun _ => writesDerived_ledger _
  gap := insertCoverageGapFromJob_derived _
  publish := fun _ _ _ => writesDerived_ledger _
  publishJob := fun _ _ => writesDerived_ledger _
  failure := fun _ _ _ _ => writesDerived_ledger _
  leases := writesDerived_ledger _
  reclaim := fun _ => writesDerived_ledger _

theorem maintains_derived : Maintains WritesDerived where
  overdue := writesDerived_ledger _
  expire := fun _ => writesDerived_ledger _
  gap := fun _ _ _ => writesDerived_ledger _
  dead := fun _ _ => writesDerived_ledger _
  deadGap := by
    intro jobId
    unfold insertDeadCoverageGapFromJob
    split
    · exact fun _ _ _ _ _ he => nomatch he
    · exact insertCoverageGapFromJob_derived _ _
  invalid := fun _ => writesDerived_ledger _
  quarantine := fun _ _ => writesDerived_ledger _
  journal := fun _ => writesDerived_journal _

theorem WritesDerived.monitors {q : Stmt β} (h : WritesDerived q) : RevisesMonitors q :=
  fun begun env busy db e he => .inl fun x => (h begun env busy db e he x).monitors

theorem revisesMonitors_ledger (q : Tx.Stmt Ledger Key Env β) :
    RevisesMonitors (onLedger q) := (writesDerived_ledger q).monitors

theorem revisesMonitors_journal (q : Tx.Stmt Journal Key Env β) :
    RevisesMonitors (onJournal q) := (writesDerived_journal q).monitors

/-- A statement about the core that changes a monitor, or leaves the monitors
alone. -/
theorem revisesMonitors_core {q : Tx.Stmt Core Key Env β}
    (h : ∀ {begun env busy c e}, q begun env busy c = some e →
      (∀ c', (e.write c').monitors = c'.monitors) ∨
      ∃ id row row', (∀ c', (e.write c').monitors = c'.monitors.put id row') ∧
        c.monitors.find id = some row ∧ Key.monitor id ∈ e.locks ∧ Amends row row') :
    RevisesMonitors (onCore q) := by
  intro begun env busy db e he
  obtain ⟨e', he', -, hlocks, hwrite⟩ := onCore_some he
  rcases h he' with hsame | ⟨id, row, row', hput, hfind, hlock, hamends⟩
  · refine .inl fun x => ?_
    simp only [hwrite, hsame]
  · refine .inr ⟨id, row, row', hfind, hlocks ▸ hlock, hamends, fun x => ?_⟩
    simp only [hwrite, hput]

/-- A branch that does nothing. -/
theorem unchanged {value : β} {e : Effect Core Key β} (he : some { value := value } = some e)
    (c : Core) : (e.write c).monitors = c.monitors := by
  cases he
  rfl

theorem putMonitor_amends {c : Core} {id : Uuid} {row row' : Monitor} {value : β}
    {e : Effect Core Key β} (he : putMonitor c id row' value = some e)
    (hfind : c.monitors.find id = some row) (hrow : Amends row row') :
    ∃ id row row', (∀ c', (e.write c').monitors = c'.monitors.put id row') ∧
      c.monitors.find id = some row ∧ Key.monitor id ∈ e.locks ∧ Amends row row' := by
  unfold putMonitor at he
  split at he
  · cases he
    exact ⟨id, row, row', fun _ => rfl, hfind, List.mem_singleton_self _, hrow⟩
  · cases he

/-- A statement that writes no monitor at all. -/
theorem revisesMonitors_same {q : Tx.Stmt Core Key Env β}
    (h : ∀ {begun env busy c e}, q begun env busy c = some e →
      ∀ c', (e.write c').monitors = c'.monitors) : RevisesMonitors (onCore q) :=
  revisesMonitors_core fun he => .inl (h he)

theorem insertMonitorRefreshEvent_monitors (organizationId environmentId : Uuid)
    (eventType resourceType : String) (resourceId : Uuid) :
    RevisesMonitors (insertMonitorRefreshEvent organizationId environmentId eventType
      resourceType resourceId) := by
  unfold insertMonitorRefreshEvent insertRefreshEvent
  exact revisesMonitors_journal _

theorem createDispatchOutbox_monitors (jobId : Uuid) (payload : DispatchPayload) :
    RevisesMonitors (createDispatchOutbox jobId payload) := revisesMonitors_ledger _

theorem lockManagedMonitor_monitors (userId environmentId monitorId : Uuid) :
    RevisesMonitors (lockManagedMonitor userId environmentId monitorId) := by
  refine revisesMonitors_same fun he c => ?_
  repeat' split at he
  all_goals cases he
  all_goals rfl

theorem openMonitorSchedulePeriod_monitors (monitorId : Uuid) :
    RevisesMonitors (openMonitorSchedulePeriod monitorId) := by
  refine revisesMonitors_same fun he c => ?_
  dsimp only at he
  repeat' split at he
  all_goals cases he
  all_goals rfl

theorem publishes_monitors : Publishes RevisesMonitors :=
  publishes_derived.mono fun h => h.monitors

theorem maintains_monitors : Maintains RevisesMonitors :=
  maintains_derived.mono fun h => h.monitors

theorem schedules_monitors : Schedules RevisesMonitors where
  count := revisesMonitors_ledger _
  time := revises_look
  due := fun _ => revises_look
  id := revises_look
  gap := fun _ _ _ => revisesMonitors_ledger _
  next := by
    refine fun _ _ _ => revisesMonitors_core fun he => ?_
    split at he
    · exact .inl (unchanged he)
    next row hfind =>
      split at he
      · cases he
        exact .inr ⟨_, row, _, fun _ => rfl, hfind, List.mem_singleton_self _, ⟨rfl, rfl, id⟩⟩
      · exact .inl (unchanged he)
  dispatch := createDispatchOutbox_monitors
  journal := fun _ => revisesMonitors_journal _

theorem manages_monitors (hash : Uuid → Nat) : Manages hash RevisesMonitors := by
  constructor
  case lock => exact lockManagedMonitor_monitors
  case reopen => exact openMonitorSchedulePeriod_monitors
  case refresh => exact insertMonitorRefreshEvent_monitors
  case close =>
    refine fun _ => revisesMonitors_same fun he c => ?_
    dsimp only at he
    split at he
    · cases he
      rfl
    · cases he
  case delete =>
    refine fun _ _ _ => revisesMonitors_core fun he => ?_
    split at he
    · exact .inl (unchanged he)
    next row hfind =>
      split at he
      · exact .inr (putMonitor_amends he hfind ⟨rfl, rfl, fun h => by cases h⟩)
      · exact .inl (unchanged he)
  all_goals
    intros
    refine revisesMonitors_core fun he => ?_
    split at he
    · exact .inl (unchanged he)
    next row hfind =>
      split at he
      · exact .inr (putMonitor_amends he hfind ⟨rfl, rfl, id⟩)
      · exact .inl (unchanged he)

theorem creates_monitors (hash : Uuid → Nat) : Creates hash RevisesMonitors where
  lock := by
    refine fun _ _ => revisesMonitors_same fun he c => ?_
    repeat' split at he
    all_goals cases he
    all_goals rfl
  count := fun _ => (writesDerived_readCore _).monitors
  store := by
    refine fun _ _ => revisesMonitors_core fun he => ?_
    split at he
    · exact .inl (unchanged he)
    next row hfind => exact .inr (putMonitor_amends he hfind ⟨rfl, rfl, id⟩)
  period := openMonitorSchedulePeriod_monitors
  state := fun m => (evaluates_derived m).ensure.monitors
  refresh := insertMonitorRefreshEvent_monitors

theorem tests_monitors : Tests RevisesMonitors where
  lock := lockManagedMonitor_monitors
  queue := revises_look
  count := revisesMonitors_ledger _
  pressure := revises_look
  pool := fun _ => (writesDerived_readCore _).monitors
  id := revises_look
  time := revises_look
  dispatch := createDispatchOutbox_monitors
  refresh := insertMonitorRefreshEvent_monitors

end Monitors

end WatchTrace.Proofs
