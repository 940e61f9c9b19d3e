import WatchTrace.Proofs.Caps

/-!
# How many scheduled checks are outstanding

A monitor has at most one scheduled job that is not over. The partial unique
index sees to that, whoever inserts: the insert looks and takes the entry of
the index in one go.

That there are no more than a thousand of them in all is another matter.
`ScheduleDue` counts when it begins and adds what it inserts to that number.
It does not lock what it counts, so the number is right for as long as it is
the only one: two of them that begin together both find the same room and both
fill it.
-/

namespace WatchTrace.Proofs

open Tx Model Protocol

/-- The calls that work on scheduled jobs; the ones that insert are marked. -/
inductive Working (P : Primitives) : Bool → Prog Unit → Prop
  | scheduleDue (platformKeyId : String) (batch : Nat) :
      Working P true (scheduleDue P platformKeyId batch >>= fun _ => pure ())
  | publishNext : Working P false (publishNext >>= fun _ => pure ())
  | reclaimPublisherLeases : Working P false (reclaimPublisherLeases >>= fun _ => pure ())
  | consumeNext : Working P false (consumeNext P >>= fun _ => pure ())
  | sweepDeadlines : Working P false (sweepDeadlines >>= fun _ => pure ())
  | reconcileNext : Working P false (reconcileNext P >>= fun _ => pure ())

variable {p : Prog Unit}

variable {P : Primitives}

/-- A call that is no `ScheduleDue` issues the statements of the other workers
only. -/
theorem working_cases {scheduler : Bool} (hp : Working P scheduler p) :
    (scheduler = true ∧ ∃ key batch, p = scheduleDue P key batch >>= fun _ => pure ()) ∨
      (scheduler = false ∧ ∀ S : {β : Type} → Stmt β → Prop,
        Consumes S → Publishes S → Maintains S → p.Within S) := by
  cases hp with
  | scheduleDue => exact .inl ⟨rfl, _, _, rfl⟩
  | publishNext =>
    exact .inr ⟨rfl, fun S _ h _ => Prog.within_bind (publishNext_within h) fun _ => trivial⟩
  | reclaimPublisherLeases =>
    exact .inr ⟨rfl, fun S _ h _ =>
      Prog.within_bind (reclaimPublisherLeases_within h) fun _ => trivial⟩
  | consumeNext =>
    exact .inr ⟨rfl, fun S h _ _ => Prog.within_bind (consumeNext_within h P) fun _ => trivial⟩
  | sweepDeadlines =>
    exact .inr ⟨rfl, fun S _ _ h => Prog.within_bind (sweepDeadlines_within h) fun _ => trivial⟩
  | reconcileNext =>
    exact .inr ⟨rfl, fun S _ _ h => Prog.within_bind (reconcileNext_within h P) fun _ => trivial⟩

/-! ## One for each monitor -/

/-- The entry of `check_jobs_one_outstanding_scheduled_idx` is the token. -/
def outstandingQuota (monitorId : Uuid) : Quota Database Key Key Uuid CheckJob :=
  jobQuota .job (.outstanding monitorId)
    (fun jobType m => m == monitorId && jobType == .scheduled) 1

/-- The monitor's scheduled jobs that are not over. -/
def countOutstanding (l : Ledger) (monitorId : Uuid) : Nat :=
  l.jobs.rows.countP fun e => e.2.monitorId == monitorId &&
    e.2.jobType == .scheduled && e.2.state.active

theorem length_outstanding (monitorId : Uuid) (db : Database) :
    ((outstandingQuota monitorId).counted db).length = countOutstanding db.ledger monitorId :=
  (outstandingQuota monitorId).length_counted db

variable {db : Database}

variable {β : Type} {jobId : Uuid}

section Outstanding

variable {monitorId : Uuid} {i : Nat} {o : Open Database Key Env}

theorem outstanding_fits (monitorId : Uuid) :
    (outstandingQuota monitorId).Fits (lockTerms : Terms Database Key Env Key) :=
  Quota.fits_lockTerms rfl

theorem counted_outstanding (h : (outstandingQuota monitorId).Counted db jobId) :
    db.ledger.outstanding monitorId = true := by
  obtain ⟨job, hfind, hcounts⟩ := h
  exact List.any_eq_true.mpr ⟨(jobId, job), Table.mem_rows.mpr hfind, hcounts⟩

/-- The insert looks for another job of the monitor and takes the entry of the
index at once. -/
theorem createScheduledCheckJob_single (jobId : Uuid) (job : CheckJob) :
    Upholds ((outstandingQuota monitorId).Guarded lockTerms) (createScheduledCheckJob jobId job) := by
  intro o db env busy e h he
  obtain ⟨e', he', rfl⟩ := onLedger_some he
  split at he'
  · cases he'
    exact h.extend (outstanding_fits monitorId) (.same fun _ => rfl)
  split at he'
  · cases he'
  next hfree =>
  cases he'
  by_cases hmonitor : job.monitorId = monitorId
  · have hnone : (o.write db).ledger.outstanding monitorId = false := by
      simp only [Bool.or_eq_true, not_or, Bool.not_eq_true, hmonitor] at hfree
      exact hfree.2
    have hlocal : (outstandingQuota monitorId).Local
        (ledgerEffect (insertJob jobId job Nat 1)).locks
        (ledgerEffect (insertJob jobId job Nat 1)).write :=
      .put (fun _ => rfl) List.mem_cons_self
    have htoken : Key.outstanding monitorId ∈
        (ledgerEffect (insertJob jobId job Nat 1)).locks := by
      rw [← hmonitor]
      exact List.mem_cons_of_mem _ (List.mem_cons_of_mem _ (List.mem_singleton_self _))
    refine .inr ⟨[jobId], Nat.le_refl 1, h.isLocal.comp hlocal, List.mem_append_left _ htoken, ?_⟩
    intro k hk
    rcases Quota.counted_put (x := o.write db) (k := jobId) rfl hk with ⟨rfl, -⟩ | hold
    · exact List.mem_singleton_self _
    · rw [counted_outstanding hold] at hnone
      cases hnone
  · refine h.extend (outstanding_fits monitorId)
      (.put (fun _ => rfl) List.mem_cons_self fun hcounts => ?_)
    simp [outstandingQuota, jobQuota, hmonitor] at hcounts

theorem working_single {scheduler : Bool} (hp : Working P scheduler p) (x : Database × World) :
    (outstandingQuota monitorId).protocol.Honours lockTerms remote i Done p
      .idle () x := by
  have fits := outstanding_fits monitorId
  have hrevises : ∀ {β : Type} {q : Stmt β}, RevisesJobs q →
      Upholds ((outstandingQuota monitorId).Guarded lockTerms) q :=
    fun h => (jobQuota_tame h).upholds fits
  refine honours_upheld fits.free (Quota.worldly _) (Quota.Guarded.safe fits) ?_ of_idle
  rcases working_cases hp with ⟨-, key, batch, rfl⟩ | ⟨-, hwithin⟩
  · refine Prog.within_bind ?_ fun _ => trivial
    exact scheduleDue_within (fun _ _ _ _ => createScheduledCheckJob_single _ _)
      (schedules_jobs.mono hrevises) _ _
  · exact (hwithin _ consumes_work publishes_work maintains_work).mono fun h => hrevises h.1

end Outstanding

/-! ## A thousand in all -/

/-- The call is at work, with a transaction open. -/
def AtWork (s : System) (i : Nat) : Prop :=
  ∃ p o, s.procs[i]? = some p ∧ ¬ p.Over ∧ p.session = .active o

/-- No two transactions of `ScheduleDue` are open. -/
def OneScheduler (s : System) (tags : List Bool) : Prop :=
  ∀ i j, i ≠ j → tags[i]? = some true → tags[j]? = some true → AtWork s i → ¬ AtWork s j

/-- A call owns what it has locked, and a `ScheduleDue` the right to insert from
the moment its transaction begins. -/
def admissionTerms (scheduler : Bool) : Terms Database Key Env (Option Key) where
  own := fun ses κ =>
    match κ with
    | none => scheduler = true ∧ ∃ o, ses = .active o
    | some key => key ∈ ses.locks

variable {s : System} {tags : List Bool}

theorem kept_of_one (hapart : s.Apart) (h : OneScheduler s tags) : s.Kept admissionTerms tags where
  fair := fun _ _ _ => trivial
  apart := by
    intro i j p q t u hp hq ht hu hij hover hover' κ hκ hκ'
    cases κ with
    | some key => exact hapart i j p q hp hq hij key hκ hκ'
    | none =>
    obtain ⟨rfl, o, ho⟩ := hκ
    obtain ⟨rfl, o', ho'⟩ := hκ'
    exact h i j hij ht hu ⟨p, o, hp, hover, ho⟩ ⟨q, o', hq, hover', ho'⟩

def scheduledQuota : Quota Database Key (Option Key) Uuid CheckJob :=
  jobQuota (fun jobId => some (.job jobId)) none
    (fun jobType _ => jobType == .scheduled) globalScheduledLimit

theorem length_scheduled (db : Database) :
    (scheduledQuota.counted db).length = db.ledger.countActive .scheduled :=
  scheduledQuota.length_counted db

theorem scheduled_tame : Schedules scheduledQuota.TameStmt :=
  schedules_jobs.mono fun h => jobQuota_tame h

theorem scheduled_fits (scheduler : Bool) : scheduledQuota.Fits (admissionTerms scheduler) where
  rows := fun h => h
  grows := by
    intro β o e κ hκ
    cases κ with
    | none => exact ⟨hκ.1, _, rfl⟩
    | some key => exact List.mem_append_right _ hκ
  free := fun _ h => h
  plain := fun _ _ => trivial

variable {m : DueMonitor} {outstanding : Nat} {now : Time} {key : String}

section Turn

variable {P : Primitives} {i : Nat} {o : Open Database Key Env} {x : Database × World}
variable {S : List Uuid}

/-- The scheduled jobs that are not over are in the list. -/
abbrev Counts (S : List Uuid) : Open Database Key Env → Database → Prop :=
  scheduledQuota.Held (admissionTerms true) S

theorem counts_carried (S : List Uuid) :
    scheduledQuota.Carried (admissionTerms true) World (Counts S) :=
  Quota.Held.carried (scheduled_fits true) S

/-- How one turn may end: with an error, or with at most one job more, which it
says. -/
def Admits (S : List Uuid) (outstanding : Nat) (r : Except Failure Bool)
    (ses : Session Database Key Env) (_ : Unit) (y : Database × World) : Prop :=
  ∀ created, r = .ok created → ∃ S' o, ses = .active o ∧ Counts S' o y.1 ∧
    S'.length ≤ S.length + created.toNat ∧
    (created = true → outstanding < globalScheduledLimit)

theorem recordAdmissionLimit_admits {next : Time} (h : Counts S o x.1) :
    scheduledQuota.protocol.Honours (admissionTerms true) remote i (Admits S outstanding)
      (recordAdmissionLimit m next) (.active o) () x := by
  refine Quota.carried_query (scheduled_fits true) (counts_carried S) h
    (scheduled_tame.gap _ _ _) ?_ fun _ _ => nofun
  intro env busy e he x h
  -- The event may be lost; the statement after it then fails.
  refine Quota.carried_query (scheduled_fits true) (counts_carried S) h
    (scheduled_tame.journal _) ?_ fun _ _ _ _ _ => nofun
  intro env busy e he x h
  refine Quota.carried_query (scheduled_fits true) (counts_carried S) h
    (scheduled_tame.next _ _ _) ?_ fun _ _ => nofun
  intro env busy e he x h created hcreated
  cases hcreated
  exact ⟨S, _, rfl, h, Nat.le_refl _, nofun⟩

theorem recordMissed_counts (h : Counts S o x.1) :
    scheduledQuota.protocol.Honours (admissionTerms true) remote i
      (fun r ses _ y => ∀ at_, r = .ok at_ → ∃ o, ses = .active o ∧ Counts S o y.1)
      (recordMissed m now) (.active o) () x := by
  unfold recordMissed
  split
  · refine Quota.carried_query (scheduled_fits true) (counts_carried S) h
      (scheduled_tame.gap _ _ _) ?_ fun _ _ _ h => by cases h
    intro env busy e he x h
    exact fun _ _ => ⟨_, rfl, h⟩
  · exact fun _ _ => ⟨o, rfl, h⟩

/-- The insert is one more job if it inserts, and says which it is. -/
theorem insertScheduled_admits {job : CheckJob} {payload : DispatchPayload}
    (hroom : outstanding < globalScheduledLimit) (h : Counts S o x.1) :
    scheduledQuota.protocol.Honours (admissionTerms true) remote i (Admits S outstanding)
      (insertScheduled jobId job payload) (.active o) () x := by
  refine Quota.held_query (scheduled_fits true) ?_ fun _ _ _ h => by cases h
  intro env busy e he
  obtain ⟨e', he', rfl⟩ := onLedger_some he
  split at he'
  · cases he'
    refine ⟨S, h.extend (scheduled_fits true) (.same fun _ => rfl), fun y hy => ?_⟩
    intro created hcreated
    cases hcreated
    exact ⟨S, _, rfl, hy, Nat.le_refl _, fun h => by cases h⟩
  split at he'
  · cases he'
  cases he'
  refine ⟨jobId :: S, h.insert (scheduled_fits true) (fun _ => rfl) List.mem_cons_self,
    fun y hy => ?_⟩
  refine Quota.carried_query (scheduled_fits true) (counts_carried (jobId :: S)) hy
    (scheduled_tame.dispatch _ _) ?_ fun _ _ _ h => by cases h
  intro env busy e he y hy created hcreated
  cases hcreated
  exact ⟨jobId :: S, _, rfl, hy, Nat.le_refl _, fun _ => hroom⟩

theorem scheduleMonitor_admits (h : Counts S o x.1) :
    scheduledQuota.protocol.Honours (admissionTerms true) remote i (Admits S outstanding)
      (scheduleMonitor P key now outstanding m) (.active o) () x := by
  unfold scheduleMonitor
  split
  · split
    · exact recordAdmissionLimit_admits h
    next hroom =>
    split
    · exact fun _ h => by cases h
    split
    · refine Quota.carried_query (scheduled_fits true) (counts_carried S) h
        scheduled_tame.id ?_ fun _ _ _ h => by cases h
      intro env busy e he x h
      refine honours_bind (recordMissed_counts h) fun r ses _ x hr => ?_
      cases r with
      | error f => exact fun _ h => by cases h
      | ok scheduledAt =>
      obtain ⟨o, rfl, h⟩ := hr scheduledAt rfl
      dsimp only
      split
      · refine honours_bind (lasting_outside (Quota.worldly _) (counts_carried S).lasting
            (sealedPayload_outside _ _) h) ?_
        intro payload ses _ x hr
        obtain ⟨-, rfl, h⟩ := hr
        cases payload with
        | none => exact fun _ h => by cases h
        | some payload =>
        refine honours_bind
          (insertScheduled_admits (Nat.lt_of_not_le hroom) h) fun r ses _ x hr => ?_
        cases r with
        | error failure => exact fun _ h => by cases h
        | ok created =>
        obtain ⟨S', o, rfl, h, hlength, hfree⟩ := hr created rfl
        refine Quota.carried_query (scheduled_fits true) (counts_carried S') h
          (scheduled_tame.next _ _ _) ?_ fun _ _ _ h => by cases h
        intro env busy e he y hy created' hcreated
        cases hcreated
        exact ⟨S', _, rfl, hy, hlength, hfree⟩
      · exact fun _ h => by cases h
    · exact fun _ h => by cases h
  · exact fun _ h => by cases h

/-- The loop: the counter is never below the number of jobs, nor above the
limit. -/
theorem scheduleMonitors_admits :
    ∀ {due : List DueMonitor} {S : List Uuid} {outstanding created : Nat}
      {o : Open Database Key Env} {x : Database × World}, S.length ≤ outstanding →
      (S.length ≤ globalScheduledLimit) → Counts S o x.1 →
      scheduledQuota.protocol.Honours (admissionTerms true) remote i
        (fun r ses _ y => ∀ n, r = .ok n → ∃ S' o, ses = .active o ∧ Counts S' o y.1 ∧
          S'.length ≤ globalScheduledLimit)
        (scheduleMonitors P key now outstanding created due) (.active o) () x := by
  intro due
  induction due with
  | nil => exact fun _ hlimit h _ _ => ⟨_, _, rfl, h, hlimit⟩
  | cons m rest ih =>
    intro S outstanding created o x hcount hlimit h
    refine honours_bind (scheduleMonitor_admits h) fun r ses _ x hr => ?_
    cases r with
    | error failure => exact nofun
    | ok inserted =>
    obtain ⟨S', o, rfl, h, hlength, hroom⟩ := hr inserted rfl
    cases inserted with
    | true =>
      have hfree := hroom rfl
      have hone : S'.length ≤ S.length + 1 := hlength
      exact ih (by omega) (by omega) h
    | false =>
      have hsame : S'.length ≤ S.length := hlength
      exact ih (by omega) (by omega) h

theorem scheduleDue_admits {batch : Nat}
    (hx : (scheduledQuota.counted x.1).length ≤ globalScheduledLimit) :
    scheduledQuota.protocol.Honours (admissionTerms true) remote i Done
      (scheduleDue P key batch) .idle () x := by
  unfold scheduleDue
  split
  · trivial
  refine honours_start (fun begun y hy _ => ?_) fun _ _ _ => trivial
  have howned : (admissionTerms true).own (.active (Open.fresh begun)) none :=
    ⟨rfl, _, rfl⟩
  have hstart := (Quota.pending_fresh (W := scheduledQuota) begun y.1).held howned
  have hlimit : (scheduledQuota.counted y.1).length ≤ globalScheduledLimit := hy.2.2 hx
  refine Quota.carried_query (scheduled_fits true) (counts_carried _) hstart
    scheduled_tame.count ?_ fun _ _ => trivial
  intro env busy e he z h
  have hcount : e.value = (scheduledQuota.counted y.1).length := by
    rw [length_scheduled]
    cases he
    rfl
  refine Quota.carried_query (scheduled_fits true) (counts_carried _) h
    scheduled_tame.time ?_ fun _ _ => trivial
  intro env busy e' he' z h
  refine Quota.carried_query (scheduled_fits true) (counts_carried _) h
    (scheduled_tame.due _) ?_ fun _ _ => trivial
  intro env busy e' he' z h
  refine honours_bind
    (scheduleMonitors_admits (Nat.le_of_eq hcount.symm) hlimit h) fun r ses _ z hr => ?_
  cases r with
  | error failure => trivial
  | ok n =>
    obtain ⟨S', o, rfl, h, hS⟩ := hr n rfl
    exact Quota.held_commit (scheduled_fits true) h hS fun r _ => by cases r <;> trivial

theorem working_admits {scheduler : Bool} (hp : Working P scheduler p)
    (hx : (scheduledQuota.counted x.1).length ≤ globalScheduledLimit) :
    scheduledQuota.protocol.Honours (admissionTerms scheduler) remote i Done p
      .idle () x := by
  rcases working_cases hp with ⟨rfl, key, batch, rfl⟩ | ⟨-, hwithin⟩
  · exact (scheduleDue_admits hx).void
  · refine Quota.honours_within (scheduled_fits scheduler) ?_ of_idle
    exact (hwithin _ consumes_work publishes_work maintains_work).mono fun h => jobQuota_tame h.1

end Turn

/-! ## The bounds -/

/-- However the calls interleave, no monitor has two scheduled jobs that are not
over; and if no two `ScheduleDue` ever have their transactions open at once,
there are never more than a thousand. -/
theorem admission_bounds {P : Primitives} {db : Database} {w : World}
    (hone : ∀ monitorId, countOutstanding db.ledger monitorId ≤ 1)
    (hall : db.ledger.countActive .scheduled ≤ 1000) :
    (∀ s, Steps remote (fun p => ∃ scheduler, Working P scheduler p) (Sys.quiet db w) s →
      ∀ monitorId, countOutstanding s.db.ledger monitorId ≤ 1) ∧
    ∀ s tags, TaggedSteps remote (Working P) OneScheduler (Sys.quiet db w, []) (s, tags) →
      s.db.ledger.countActive .scheduled ≤ 1000 := by
  constructor
  · intro s hrun monitorId
    specialize hone monitorId
    rw [← length_outstanding] at hone ⊢
    exact steps_good (P := (outstandingQuota monitorId).protocol) (x := (db, w))
      (fun p ⟨_, hp⟩ i x _ => working_single hp x) hone hrun
  · intro s tags hrun
    rw [← length_scheduled] at hall ⊢
    obtain ⟨hkept, -⟩ := TaggedSteps.mono (Sys.apart_quiet db w) hrun
      fun _ _ hapart h => kept_of_one hapart h
    exact kept_good (P := scheduledQuota.protocol) (x := (db, w))
      (fun scheduler p hp i x hx => working_admits hp hx) hall hkept

namespace Sample

abbrev scheduler : Act Database Key Env Call :=
  .spawn (scheduleDue primitives "platform" 1 >>= fun _ => pure ())

/-- The steps of a call, which add no tags. -/
def marked {Tag : Type} (script : Script) : List (Act Database Key Env Call × List Tag) :=
  script.map fun a => (a, [])

theorem steps_tagged {Tag : Type} (F : Tag → Prog Unit → Prop) (i : Nat) (env : Env)
    (n : Nat) : ∀ a ∈ marked (steps i env n), Act.Tagged F a := by
  intro a ha
  obtain ⟨b, hb, rfl⟩ := List.mem_map.mp ha
  rw [List.eq_of_mem_replicate hb]
  rfl

/-- A `ScheduleDue`, and a sweep when the job it created is overdue. -/
def inTurn : List (Act Database Key Env Call × List Bool) :=
  (scheduler, [true]) :: marked (steps 0 (moment 60 11 21) 13) ++
    (.spawn (sweepDeadlines >>= fun _ => pure ()), [false]) ::
    marked (steps 1 (moment 300 12 21) 5)

theorem inTurn_tagged : ∀ a ∈ inTurn, Act.Tagged (Working primitives) a := by
  simp only [inTurn, List.forall_mem_append, List.forall_mem_cons]
  exact ⟨⟨⟨true, .scheduleDue _ _, rfl⟩, steps_tagged _ _ _ _⟩,
    ⟨false, .sweepDeadlines, rfl⟩, steps_tagged _ _ _ _⟩

/-- Only the first call is a `ScheduleDue`. -/
theorem one_of_tail (h : tags.tail.all (!·) = true) :
    OneScheduler s tags := by
  have hlater : ∀ i, tags[i + 1]? ≠ some true := by
    intro i hi
    rw [← List.getElem?_tail] at hi
    exact absurd (List.all_eq_true.mp h true (List.mem_of_getElem? hi)) (by decide)
  intro i j hij hi hj _ _
  cases i with
  | succ i => exact hlater i hi
  | zero =>
  cases j with
  | succ j => exact hlater j hj
  | zero => exact hij rfl

end Sample

/-- One job is scheduled, and is overdue. -/
theorem admission_bounds_sample : ∃ s tags,
    TaggedSteps remote (Working Sample.primitives) OneScheduler (Sample.beginning, []) (s, tags) ∧
    s.db.ledger.jobs.rows.length = 1 ∧ s.db.ledger.countActive .scheduled ≤ 1000 := by
  have hjobs : (Sys.runTagged remote (fun _ tags => tags.tail.all (!·))
      (Sample.beginning, []) Sample.inTurn).map
      (fun x => x.1.db.ledger.jobs.rows.length) = some 1 := by decide +kernel
  obtain ⟨⟨s, tags⟩, hs, hlength⟩ := Option.map_eq_some_iff.mp hjobs
  have hrun : TaggedSteps remote (Working Sample.primitives) OneScheduler
      (Sample.beginning, []) (s, tags) :=
    Sys.runTagged_steps (fun _ _ => Sample.one_of_tail) Sample.inTurn_tagged hs
  exact ⟨s, tags, hrun, hlength,
    (admission_bounds (fun _ => Nat.zero_le _) (by decide)).2 s tags hrun⟩

/-! ## A full house -/

namespace Sample

/-- Rows `0` to `n - 1`. -/
def tabulate {ρ : Type} (n : Nat) (row : Nat → ρ) : Table Nat ρ :=
  ⟨⟨(List.range n).map fun i => ⟨i, row i⟩, by
    rw [List.NodupKeys, List.keys, List.map_map]
    exact List.map_id _ ▸ List.nodup_range⟩⟩

theorem rows_tabulate {ρ : Type} (n : Nat) (row : Nat → ρ) :
    (tabulate n row).rows = (List.range n).map fun i => (i, row i) := by
  rw [Table.rows, tabulate, List.map_map]
  rfl

/-- A hundred monitors to an organization; the last two are due at second 60. -/
def neighbour (i : Nat) : Monitor :=
  { monitor with
    organizationId := i / 100, environmentId := i / 100
    nextCheckAt := if i < 999 then 120 * second else 60 * second }

/-- The others have just been scheduled. -/
def neighbourJob (i : Nat) : CheckJob :=
  { organizationId := i / 100, environmentId := i / 100, monitorId := i
    jobType := .scheduled, state := .pendingPublish, scheduledAt := 60 * second
    monitorVersion := 1, workerPoolId := "pool", snapshotHash := snapshotHash
    expiresAt := 180 * second }

def crowded : Database :=
  ⟨{ Ledger.empty with jobs := tabulate 999 neighbourJob },
    { core with monitors := tabulate 1001 neighbour }, Journal.empty⟩

theorem crowded_single (monitorId : Uuid) : countOutstanding crowded.ledger monitorId ≤ 1 := by
  have hcount : countOutstanding crowded.ledger monitorId ≤
      (List.range 999).countP fun i => i == monitorId := by
    rw [countOutstanding, crowded, rows_tabulate, List.countP_map]
    refine List.countP_mono_left fun i _ h => ?_
    simp only [Function.comp_apply, Bool.and_eq_true] at h
    exact h.1.1
  exact Nat.le_trans hcount (List.nodup_iff_count_le_one.mp List.nodup_range monitorId)

/-- Both have counted before either inserts. -/
def together : Script :=
  scheduler :: scheduler :: steps 0 (moment 61 2001 21) 4 ++
    steps 1 (moment 61 2002 21) 13 ++ steps 0 (moment 61 2001 21) 9

theorem together_within : ∀ a ∈ together,
    a.within fun p => ∃ scheduler, Working primitives scheduler p := by
  simp only [together, List.forall_mem_append, List.forall_mem_cons]
  exact ⟨⟨⟨⟨true, .scheduleDue _ _⟩, ⟨true, .scheduleDue _ _⟩, steps_within _ _ _ _⟩,
    steps_within _ _ _ _⟩, steps_within _ _ _ _⟩

end Sample

open Sample

/-- Two schedulers find room for one job each, among 999. -/
theorem thousand_exceeded : (∀ monitorId, countOutstanding crowded.ledger monitorId ≤ 1) ∧
    crowded.ledger.countActive .scheduled ≤ 1000 ∧
    ∃ s, Steps remote (fun p => ∃ scheduler, Working primitives scheduler p)
        (Sys.quiet crowded World.empty) s ∧
      s.db.ledger.countActive .scheduled = 1001 := by
  have hcount : ((Sys.quiet crowded World.empty : System).run remote
      together).map (fun s => s.db.ledger.countActive .scheduled) = some 1001 := by
    decide +kernel
  obtain ⟨s, hs, hscheduled⟩ := Option.map_eq_some_iff.mp hcount
  refine ⟨crowded_single, by decide +kernel, s, ?_, hscheduled⟩
  exact Sys.run_steps together_within hs

end WatchTrace.Proofs
