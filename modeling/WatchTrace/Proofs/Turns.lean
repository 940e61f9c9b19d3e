import WatchTrace.Proofs.Batch
import WatchTrace.Proofs.Revisions

/-!
# What a `ScheduleDue` commits

The transaction locks the monitors it lists, gives each of them its turn, and
commits. `Advance t ms x y` is what that comes to for one that began at `t` and
listed the monitors `ms`: each of them has its next check moved on, some of
them have a new job, each new job has its row in the outbox, and nothing else
has happened to monitors, jobs and outbox.

Others commit between its statements. They leave alone what is locked, so what
the transaction has done so far can be said in terms of the committed rows at
any moment: `Drafting` is `Advance` for a transaction that is not through yet.
Within a turn a job may be without its row in the outbox for a while, and its
monitor without its next check; the `Agenda` keeps track of that.
-/

namespace WatchTrace.Proofs

open Tx Model

/-! ## The whole transaction -/

abbrev Monitors (db : Database) : Table Uuid Monitor := db.core.monitors

abbrev Jobs (db : Database) : Table Uuid CheckJob := db.ledger.jobs

abbrev Outbox (db : Database) : Table Uuid Dispatch := db.ledger.outbox

/-- The slot a due monitor is scheduled for. One that can no longer start in time
is given up for the present. -/
def slotTime (row : Monitor) (t : Time) : Time :=
  if row.nextCheckAt + jobStartWindow < t then t else row.nextCheckAt

/-- The row of a monitor that has had its turn. -/
structure Advanced (t : Time) (row row' : Monitor) : Prop where
  due : row.nextCheckAt ≤ t
  running : row.pausedAt = none ∧ row.deletedAt = none
  next : nextSchedule row.nextCheckAt t row.intervalSeconds = some row'.nextCheckAt
  rest : row' = { row with nextCheckAt := row'.nextCheckAt }

/-- The outbox has the row of the job. -/
def Paired (db : Database) (jobId : Uuid) (job : CheckJob) : Prop :=
  ∃ row, (Outbox db).find jobId = some row ∧
    row.payload.snapshotHash = job.snapshotHash ∧ row.payload.expiresAt = job.expiresAt

/-- A job that was not there, for a monitor that was due. -/
structure NewJob (t : Time) (x : Database) (jobId : Uuid) (job : CheckJob) : Prop where
  absent : (Jobs x).find jobId = none
  jobType : job.jobType = .scheduled
  row : ∃ row, (Monitors x).find job.monitorId = some row ∧ row.nextCheckAt ≤ t ∧
    job.scheduledAt = slotTime row t

structure Advance (t : Time) (ms : List Uuid) (x y : Database) : Prop where
  advanced : ∀ m ∈ ms, ∃ row row', (Monitors x).find m = some row ∧
    (Monitors y).find m = some row' ∧ Advanced t row row'
  others : ∀ m, m ∉ ms → (Monitors y).find m = (Monitors x).find m
  kept : ∀ j job, (Jobs x).find j = some job → (Jobs y).find j = some job
  created : ∀ j job, (Jobs y).find j = some job → (Jobs x).find j = some job ∨
    (job.monitorId ∈ ms ∧ NewJob t x j job ∧ Paired y j job)
  single : ∀ j job j' job', (Jobs y).find j = some job →
    (Jobs x).find j = none → (Jobs y).find j' = some job' →
    (Jobs x).find j' = none → job'.monitorId = job.monitorId → j' = j
  outbox : ∀ j row, (Outbox x).find j = some row → (Outbox y).find j = some row
  periods : y.core.periods = x.core.periods

/-! ## The transaction so far -/

/-- Where a transaction is: the monitors it has locked, those that have had
their turn, those that wait for it, the one whose job is there and whose next
check is not, and its job if that is still without a row in the outbox. -/
structure Agenda where
  ids : List Uuid := []
  done : List Uuid := []
  rest : List DueMonitor := []
  turn : List Uuid := []
  bare : List (Uuid × CheckJob) := []

/-- What has been done, in terms of the committed rows `x` and the view `v`. -/
structure Partial (t : Time) (g : Agenda) (locks : List Key) (x v : Database) : Prop where
  inside : ∀ m, m ∈ g.turn ++ g.done → m ∈ g.ids
  advanced : ∀ m ∈ g.done, ∃ row row', (Monitors x).find m = some row ∧
    (Monitors v).find m = some row' ∧ Advanced t row row'
  others : ∀ m, m ∉ g.done → (Monitors v).find m = (Monitors x).find m
  waiting : ∀ m ∈ g.rest, m.id ∈ g.ids ∧ m.id ∉ g.done ∧ (Monitors x).find m.id = some m.monitor
  kept : ∀ j job, (Jobs x).find j = some job → (Jobs v).find j = some job
  created : ∀ j job, (Jobs v).find j = some job → (Jobs x).find j = some job ∨
    (Key.job j ∈ locks ∧ job.monitorId ∈ g.turn ++ g.done ∧ NewJob t x j job ∧
      ((j, job) ∈ g.bare ∨ (Key.dispatch j ∈ locks ∧ Paired v j job)))
  single : ∀ j job j' job', (Jobs v).find j = some job → (Jobs x).find j = none →
    (Jobs v).find j' = some job' → (Jobs x).find j' = none →
    job'.monitorId = job.monitorId → j' = j
  outbox : ∀ j row, (Outbox x).find j = some row → (Outbox v).find j = some row

/-- The writes touch what is locked, which of the monitors are those listed. -/
structure Bounded (t : Time) (ids : List Uuid) (o : Open Database Key Env) : Prop where
  begun : o.begun.now = t
  monitors : RowLocal Monitors Key.monitor o.locks o.write
  jobs : RowLocal Jobs Key.job o.locks o.write
  outbox : RowLocal Outbox Key.dispatch o.locks o.write
  periods : ∀ db, (o.write db).core.periods = db.core.periods
  scope : ∀ m, Key.monitor m ∈ o.locks ↔ m ∈ ids

structure Drafting (t : Time) (g : Agenda) (o : Open Database Key Env) (x : Database) :
    Prop extends Bounded t g.ids o where
  partly : Partial t g o.locks x (o.write x)

/-- The history of one monitor, as it is stored. -/
def periodsOf (db : Database) (m : Uuid) : List SchedulePeriod :=
  db.core.periods.filter fun p => p.monitorId == m

/-- What others leave alone: the rows that are locked, and with a monitor its
history. -/
structure Spared (L : Key → Prop) (x y : Database) : Prop where
  monitor : ∀ m, L (.monitor m) → (Monitors y).find m = (Monitors x).find m
  periods : ∀ m, L (.monitor m) → periodsOf y m = periodsOf x m
  job : ∀ j, L (.job j) → (Jobs y).find j = (Jobs x).find j
  dispatch : ∀ j, L (.dispatch j) → (Outbox y).find j = (Outbox x).find j

variable {m : DueMonitor} {job : CheckJob} {env : Env} {busy : Key → Bool}

variable {j : Uuid} {rest : List DueMonitor} {jobId : Uuid}

section Draft

variable {t : Time} {g : Agenda} {o : Open Database Key Env} {x y v v' : Database}
variable {locks locks' : List Key} {β : Type} {e : Effect Database Key β}

/-- A transaction that is through. -/
theorem Drafting.advance (h : Drafting t g o x) (hrest : ∀ m ∈ g.ids, m ∈ g.done)
    (hbare : g.bare = []) : Advance t g.ids x (o.write x) where
  advanced := fun m hm => h.partly.advanced m (hrest m hm)
  others := fun m hm => h.partly.others m fun hdone =>
    hm (h.partly.inside m (List.mem_append_right _ hdone))
  kept := h.partly.kept
  created := by
    intro j job hj
    rcases h.partly.created j job hj with
      hold | ⟨-, hmonitor, hfresh, hbare' | ⟨-, hpaired⟩⟩
    · exact .inl hold
    · rw [hbare] at hbare'
      cases hbare'
    · exact .inr ⟨h.partly.inside _ hmonitor, hfresh, hpaired⟩
  single := h.partly.single
  outbox := h.partly.outbox
  periods := h.periods x

theorem Drafting.fresh (env : Env) (x : Database) : Drafting env.now {} (.fresh env) x where
  begun := rfl
  monitors := .same fun _ => rfl
  jobs := .same fun _ => rfl
  outbox := .same fun _ => rfl
  periods := fun _ => rfl
  scope := fun m => by simp [Open.fresh]
  partly :=
    { inside := fun m hm => hm
      advanced := fun m hm => by cases hm
      others := fun _ _ => rfl
      waiting := fun m hm => by cases hm
      kept := fun _ _ h => h
      created := fun _ _ h => .inl h
      single := fun j job _ _ hj hnone _ _ _ => by
        rw [show (Jobs x).find j = some job from hj] at hnone
        cases hnone
      outbox := fun _ _ h => h }

/-- Others may commit. -/
theorem Drafting.later (h : Drafting t g o x) (hxy : Spared (· ∈ o.locks) x y) :
    Drafting t g o y where
  toBounded := h.toBounded
  partly :=
  { inside := h.partly.inside
    advanced := by
      intro m hm
      have hlock := (h.scope m).mpr (h.partly.inside m (List.mem_append_right _ hm))
      obtain ⟨row, row', hrow, hrow', hadvanced⟩ := h.partly.advanced m hm
      refine ⟨row, row', (hxy.monitor m hlock).trans hrow, ?_, hadvanced⟩
      exact (h.monitors.rowwise (hxy.monitor m hlock)).trans hrow'
    others := by
      intro m hm
      rcases h.monitors.later m (hxy.monitor m) with ⟨-, hnow, hview⟩ | ⟨-, -, hview⟩
      · rw [hview, hnow]
        exact h.partly.others m hm
      · exact hview
    waiting := by
      intro m hm
      obtain ⟨hid, hdone, hrow⟩ := h.partly.waiting m hm
      exact ⟨hid, hdone, (hxy.monitor m.id ((h.scope m.id).mpr hid)).trans hrow⟩
    kept := by
      intro j job hj
      rcases h.jobs.later j (hxy.job j) with ⟨-, hnow, hview⟩ | ⟨-, -, hview⟩
      · rw [hnow] at hj
        rw [hview]
        exact h.partly.kept j job hj
      · rw [hview]
        exact hj
    created := by
      intro j job hj
      rcases h.jobs.later j (hxy.job j) with ⟨-, hnow, hview⟩ | ⟨-, -, hview⟩
      · rw [hview] at hj
        rw [hnow]
        rcases h.partly.created j job hj with hold | ⟨hlock, hmonitor, hfresh, hpair⟩
        · exact .inl hold
        · refine .inr ⟨hlock, hmonitor,
            ⟨hnow.trans hfresh.absent, hfresh.jobType, ?_⟩, ?_⟩
          · obtain ⟨row, hrow, hslot⟩ := hfresh.row
            have hmine := (h.scope _).mpr (h.partly.inside _ hmonitor)
            exact ⟨row, (hxy.monitor _ hmine).trans hrow, hslot⟩
          · rcases hpair with hbare | ⟨hdispatch, row, hrow, hpayload⟩
            · exact .inl hbare
            · refine .inr ⟨hdispatch, row, ?_, hpayload⟩
              exact (h.outbox.rowwise (hxy.dispatch j hdispatch)).trans hrow
      · rw [hview] at hj
        exact .inl hj
    single := by
      have hback : ∀ j job, (Jobs (o.write y)).find j = some job →
          (Jobs y).find j = none →
          (Jobs (o.write x)).find j = some job ∧ (Jobs x).find j = none := by
        intro j job hj hnone
        rcases h.jobs.later j (hxy.job j) with ⟨-, hnow, hview⟩ | ⟨-, -, hview⟩
        · exact ⟨hview ▸ hj, hnow ▸ hnone⟩
        · rw [hview, hnone] at hj
          cases hj
      intro j job j' job' hj hnone hj' hnone' hmonitor
      obtain ⟨hx, hxnone⟩ := hback j job hj hnone
      obtain ⟨hx', hxnone'⟩ := hback j' job' hj' hnone'
      exact h.partly.single j job j' job' hx hxnone hx' hxnone' hmonitor
    outbox := by
      intro j row hj
      rcases h.outbox.later j (hxy.dispatch j) with ⟨-, hnow, hview⟩ | ⟨-, -, hview⟩
      · rw [hnow] at hj
        rw [hview]
        exact h.partly.outbox j row hj
      · rw [hview]
        exact hj }

/-! ## One statement more -/

theorem Bounded.extend {ids : List Uuid} (h : Bounded t ids o)
    (hmonitors : RowLocal Monitors Key.monitor e.locks e.write)
    (hjobs : RowLocal Jobs Key.job e.locks e.write)
    (houtbox : RowLocal Outbox Key.dispatch e.locks e.write)
    (hperiods : ∀ db, (e.write db).core.periods = db.core.periods)
    (hscope : ∀ m, Key.monitor m ∈ e.locks → m ∈ ids) : Bounded t ids (o.extend e) where
  begun := h.begun
  monitors := h.monitors.comp hmonitors
  jobs := h.jobs.comp hjobs
  outbox := h.outbox.comp houtbox
  periods := fun db => (hperiods _).trans (h.periods db)
  scope := by
    intro m
    refine ⟨fun hm => ?_, fun hm => List.mem_append_right _ ((h.scope m).mpr hm)⟩
    rcases List.mem_append.mp hm with hm | hm
    · exact hscope m hm
    · exact (h.scope m).mp hm

/-- A new view of the same monitors and jobs; the outbox may have grown. -/
theorem Partial.same (h : Partial t g locks x v) (hlocks : ∀ κ ∈ locks, κ ∈ locks')
    (hmonitors : Monitors v' = Monitors v) (hjobs : Jobs v' = Jobs v)
    (houtbox : ∀ j row, (Outbox v).find j = some row → (Outbox v').find j = some row) :
    Partial t g locks' x v' where
  inside := h.inside
  advanced := by
    rw [hmonitors]
    exact h.advanced
  others := by
    rw [hmonitors]
    exact h.others
  waiting := h.waiting
  kept := by
    rw [hjobs]
    exact h.kept
  created := by
    intro j job hj
    rw [hjobs] at hj
    rcases h.created j job hj with hold | ⟨hlock, hmonitor, hfresh, hpair⟩
    · exact .inl hold
    · refine .inr ⟨hlocks _ hlock, hmonitor, hfresh, ?_⟩
      rcases hpair with hbare | ⟨hdispatch, row, hrow, hpayload⟩
      · exact .inl hbare
      · exact .inr ⟨hlocks _ hdispatch, row, houtbox j row hrow, hpayload⟩
  single := by
    rw [hjobs]
    exact h.single
  outbox := fun j row hj => houtbox j row (h.outbox j row hj)

/-- A job for a monitor whose turn it is. -/
theorem Partial.addJob (h : Partial t g locks x v) (hm : m ∈ g.rest) (hturn : g.turn = [])
    (hbare : g.bare = []) (hlocks : ∀ κ ∈ locks, κ ∈ locks') (hlock : Key.job j ∈ locks')
    (hmonitor : job.monitorId = m.id) (htype : job.jobType = .scheduled)
    (hdue : m.monitor.nextCheckAt ≤ t) (hslot : job.scheduledAt = slotTime m.monitor t)
    (hnone : (Jobs v).find j = none) (hmonitors : Monitors v' = Monitors v)
    (hjobs : Jobs v' = (Jobs v).put j job) (houtbox : Outbox v' = Outbox v) :
    Partial t { g with turn := [m.id], bare := [(j, job)] } locks' x v' := by
  obtain ⟨hid, hundone, hrow⟩ := h.waiting m hm
  have habsent : (Jobs x).find j = none := by
    cases hj : (Jobs x).find j with
    | none => rfl
    | some old =>
      rw [h.kept j old hj] at hnone
      cases hnone
  have hfind : ∀ j' job', (Jobs v').find j' = some job' →
      (j' = j ∧ job' = job) ∨ (Jobs v).find j' = some job' := by
    intro j' job' hj'
    rw [hjobs, Table.find_put_some] at hj'
    exact hj'.imp_right And.right
  -- a job that was new before is of a monitor that has had its turn
  have hnew : ∀ j' job', (Jobs v).find j' = some job' → (Jobs x).find j' = none →
      job'.monitorId ≠ m.id := by
    intro j' job' hj' hnone' hsame
    rcases h.created j' job' hj' with hold | ⟨-, hmine, -⟩
    · rw [hold] at hnone'
      cases hnone'
    · rw [hturn, hsame] at hmine
      exact hundone hmine
  constructor
  case inside =>
    intro m' hm'
    rcases List.mem_append.mp hm' with hm' | hm'
    · rw [List.mem_singleton.mp hm']
      exact hid
    · exact h.inside m' (List.mem_append_right _ hm')
  case advanced =>
    rw [hmonitors]
    exact h.advanced
  case others =>
    rw [hmonitors]
    exact h.others
  case waiting => exact h.waiting
  case kept =>
    intro j' job' hj'
    rw [hjobs, Table.find_put_ne]
    · exact h.kept j' job' hj'
    · rintro rfl
      rw [habsent] at hj'
      cases hj'
  case created =>
    intro j' job' hj'
    rcases hfind j' job' hj' with ⟨rfl, rfl⟩ | hj'
    · refine .inr ⟨hlock, ?_, ⟨habsent, htype, m.monitor, ?_, hdue, hslot⟩, .inl ?_⟩
      · rw [hmonitor]
        exact List.mem_cons_self
      · rw [hmonitor]
        exact hrow
      · exact List.mem_singleton_self _
    · rcases h.created j' job' hj' with hold | ⟨hlock', hmine, hfresh, hpair⟩
      · exact .inl hold
      · rw [hturn] at hmine
        refine .inr ⟨hlocks _ hlock', List.mem_append_right _ hmine, hfresh, .inr ?_⟩
        rcases hpair with hbare' | ⟨hdispatch, row, hrow', hpayload⟩
        · rw [hbare] at hbare'
          cases hbare'
        · exact ⟨hlocks _ hdispatch, row, houtbox ▸ hrow', hpayload⟩
  case single =>
    intro j₁ job₁ j₂ job₂ h₁ hnone₁ h₂ hnone₂ hsame
    rcases hfind j₁ job₁ h₁ with ⟨rfl, rfl⟩ | h₁
    · rcases hfind j₂ job₂ h₂ with ⟨rfl, -⟩ | h₂
      · rfl
      · exact absurd (hsame.trans hmonitor) (hnew j₂ job₂ h₂ hnone₂)
    · rcases hfind j₂ job₂ h₂ with ⟨rfl, rfl⟩ | h₂
      · exact absurd (hsame.symm.trans hmonitor) (hnew j₁ job₁ h₁ hnone₁)
      · exact h.single j₁ job₁ j₂ job₂ h₁ hnone₁ h₂ hnone₂ hsame
  case outbox =>
    rw [houtbox]
    exact h.outbox

/-- Its row in the outbox. -/
theorem Partial.addDispatch (h : Partial t g locks x v) {row : Dispatch}
    (hbare : g.bare = [(j, job)]) (hlocks : ∀ κ ∈ locks, κ ∈ locks')
    (hlock : Key.dispatch j ∈ locks') (hhash : row.payload.snapshotHash = job.snapshotHash)
    (hexpires : row.payload.expiresAt = job.expiresAt) (hnone : (Outbox v).find j = none)
    (hmonitors : Monitors v' = Monitors v) (hjobs : Jobs v' = Jobs v)
    (houtbox : Outbox v' = (Outbox v).put j row) :
    Partial t { g with bare := [] } locks' x v' := by
  have hgrown : ∀ j' row', (Outbox v).find j' = some row' →
      (Outbox v').find j' = some row' := by
    intro j' row' hj'
    rw [houtbox, Table.find_put_ne]
    · exact hj'
    · rintro rfl
      rw [hnone] at hj'
      cases hj'
  have hsame : Partial t g locks' x v' := h.same hlocks hmonitors hjobs hgrown
  refine { hsame with created := ?_ }
  intro j' job' hj'
  rcases hsame.created j' job' hj' with hold | ⟨hlock', hmine, hfresh, hpair⟩
  · exact .inl hold
  · refine .inr ⟨hlock', hmine, hfresh, .inr ?_⟩
    rcases hpair with hbare' | hpaired
    · rw [hbare, List.mem_singleton, Prod.mk.injEq] at hbare'
      obtain ⟨rfl, rfl⟩ := hbare'
      exact ⟨hlock, row, by rw [houtbox, Table.find_put], hhash, hexpires⟩
    · exact hpaired

/-- The turn is over. -/
theorem Partial.moveOn (h : Partial t g locks x v) {row' : Monitor} (hm : g.rest = m :: rest)
    (hturn : ∀ m' ∈ g.turn, m' = m.id) (hlast : ∀ m' ∈ rest, m'.id ≠ m.id)
    (hlocks : ∀ κ ∈ locks, κ ∈ locks') (hadvanced : Advanced t m.monitor row')
    (hmonitors : Monitors v' = (Monitors v).put m.id row') (hjobs : Jobs v' = Jobs v)
    (houtbox : Outbox v' = Outbox v) :
    Partial t { g with rest := rest, done := m.id :: g.done, turn := [] } locks' x v' := by
  obtain ⟨hid, hundone, hrow⟩ := h.waiting m (hm ▸ List.mem_cons_self)
  constructor
  case inside =>
    intro m' hm'
    rcases List.mem_cons.mp hm' with rfl | hm'
    · exact hid
    · exact h.inside m' (List.mem_append_right _ hm')
  case advanced =>
    intro m' hm'
    by_cases hsame : m' = m.id
    · subst hsame
      exact ⟨m.monitor, row', hrow, by rw [hmonitors, Table.find_put], hadvanced⟩
    · rw [hmonitors, Table.find_put_ne _ _ hsame]
      exact h.advanced m' ((List.mem_cons.mp hm').resolve_left hsame)
  case others =>
    intro m' hm'
    rw [List.mem_cons, not_or] at hm'
    rw [hmonitors, Table.find_put_ne _ _ hm'.1]
    exact h.others m' hm'.2
  case waiting =>
    intro m' hm'
    obtain ⟨hid', hundone', hrow'⟩ := h.waiting m' (hm ▸ List.mem_cons_of_mem _ hm')
    refine ⟨hid', fun hdone => ?_, hrow'⟩
    rcases List.mem_cons.mp hdone with hsame | hdone
    · exact hlast m' hm' hsame
    · exact hundone' hdone
  case kept =>
    rw [hjobs]
    exact h.kept
  case created =>
    intro j job hj
    rw [hjobs] at hj
    rcases h.created j job hj with hold | ⟨hlock, hmine, hfresh, hpair⟩
    · exact .inl hold
    · refine .inr ⟨hlocks _ hlock, ?_, hfresh, ?_⟩
      · rcases List.mem_append.mp hmine with hmine | hmine
        · rw [hturn _ hmine]
          exact List.mem_cons_self
        · exact List.mem_cons_of_mem _ hmine
      · rcases hpair with hbare | ⟨hdispatch, row, hrow', hpayload⟩
        · exact .inl hbare
        · exact .inr ⟨hlocks _ hdispatch, row, houtbox ▸ hrow', hpayload⟩
  case single =>
    rw [hjobs]
    exact h.single
  case outbox =>
    rw [houtbox]
    exact h.outbox

/-! ## The statements -/

/-- A statement that has nothing to do with monitors, jobs and outbox. -/
def Incidental (q : Stmt β) : Prop :=
  ∀ begun env busy v e, q begun env busy v = some e →
    (∀ db, Monitors (e.write db) = Monitors db ∧ Jobs (e.write db) = Jobs db ∧
      Outbox (e.write db) = Outbox db ∧ (e.write db).core.periods = db.core.periods) ∧
    ∀ m, Key.monitor m ∉ e.locks

theorem countActiveScheduledJobs_incidental : Incidental countActiveScheduledJobs := by
  intro begun env busy v e he
  cases he
  exact ⟨fun _ => ⟨rfl, rfl, rfl, rfl⟩, fun m hm => by cases hm⟩

theorem getDatabaseTime_incidental : Incidental getDatabaseTime := by
  intro begun env busy v e he
  cases he
  exact ⟨fun _ => ⟨rfl, rfl, rfl, rfl⟩, fun m hm => by cases hm⟩

theorem newJobId_incidental : Incidental newJobId := by
  intro begun env busy v e he
  cases he
  exact ⟨fun _ => ⟨rfl, rfl, rfl, rfl⟩, fun m hm => by cases hm⟩

theorem insertMonitoringCoverageGap_incidental (key : GapKey)
    (organizationId environmentId : Uuid) :
    Incidental (insertMonitoringCoverageGap key organizationId environmentId) := by
  intro begun env busy v e he
  obtain ⟨e', he', rfl⟩ := onLedger_some he
  split at he'
  · cases he'
    exact ⟨fun _ => ⟨rfl, rfl, rfl, rfl⟩, fun m hm => by cases hm⟩
  cases he'
  refine ⟨fun _ => ⟨rfl, rfl, rfl, rfl⟩, fun m hm => ?_⟩
  have hlock : Key.monitor m ∈ [Key.gap key] := hm
  simp at hlock

theorem insertMonitoringOperationalEvent_incidental (eventType : OperationalEventType)
    (jobId : IdText) (workerPoolId safeDetails : String) :
    Incidental (insertMonitoringOperationalEvent eventType jobId workerPoolId safeDetails) := by
  intro begun env busy v e he
  obtain ⟨e', he', -, hlocks, hwrite⟩ := onJournal_some he
  refine ⟨fun db => ⟨?_, ?_, ?_, ?_⟩, fun m hm => ?_⟩
  · rw [Monitors, hwrite]
  · rw [Jobs, hwrite]
  · rw [Outbox, hwrite]
  · rw [hwrite]
  · rw [hlocks] at hm
    split at he'
    · cases he'
    · cases he'
      cases hm

theorem Drafting.incidental {q : Stmt β} (h : Drafting t g o x) (hq : Incidental q)
    (he : q o.begun env busy (o.write x) = some e) : Drafting t g (o.extend e) x := by
  obtain ⟨hsame, hfree⟩ := hq _ _ _ _ e he
  refine { h.toBounded.extend (.same fun db => (hsame db).1) (.same fun db => (hsame db).2.1)
      (.same fun db => (hsame db).2.2.1) (fun db => (hsame db).2.2.2)
      (fun m hm => absurd hm (hfree m)) with partly := ?_ }
  refine h.partly.same (fun κ hκ => List.mem_append_right _ hκ) (hsame _).1 (hsame _).2.1 ?_
  intro j row hj
  exact ((hsame (o.write x)).2.2.1 ▸ hj : (Outbox (e.write (o.write x))).find j = some row)

/-- The monitors that are due are locked, and wait for their turn. -/
theorem Drafting.listed {batch : Nat} {e : Effect Database Key (List DueMonitor)}
    (h : Drafting t {} o x)
    (he : listDueScheduledMonitors batch o.begun env busy (o.write x) = some e) :
    Drafting t { ids := e.value.map DueMonitor.id, rest := e.value } (o.extend e) x ∧
      (e.value.map DueMonitor.id).Nodup ∧
      ∀ m ∈ e.value, m.monitor.nextCheckAt ≤ t ∧ m.monitor.pausedAt = none ∧
        m.monitor.deletedAt = none := by
  cases he
  set due := (((dueMonitors o.begun.now (o.write x)).filter fun d =>
    !busy (.monitor d.id)).take batch) with hdue
  have hlisted : ∀ m ∈ due, m ∈ dueMonitors o.begun.now (o.write x) :=
    fun m hm => List.mem_of_mem_filter (List.mem_of_mem_take hm)
  have hrows : ∀ m ∈ due, (Monitors x).find m.id = some m.monitor := by
    intro m hm
    rw [← h.partly.others m.id (by simp)]
    exact (mem_dueMonitors (hlisted m hm)).1
  refine ⟨?_, ?_, ?_⟩
  · refine { begun := h.begun, monitors := h.monitors.comp (.same fun _ => rfl),
             jobs := h.jobs.comp (.same fun _ => rfl),
             outbox := h.outbox.comp (.same fun _ => rfl), periods := h.periods,
             scope := ?_, partly := ?_ }
    · intro m
      have hnone : Key.monitor m ∉ o.locks := fun hm => by
        have := (h.scope m).mp hm
        cases this
      rw [show (o.extend _).locks = (due.map fun d => Key.monitor d.id) ++ o.locks from rfl,
        List.mem_append, List.mem_map, List.mem_map]
      constructor
      · rintro (⟨d, hd, hm⟩ | hm)
        · exact ⟨d, hd, Key.monitor.inj hm⟩
        · exact absurd hm hnone
      · rintro ⟨d, hd, rfl⟩
        exact .inl ⟨d, hd, rfl⟩
    · refine { h.partly.same (fun κ hκ => List.mem_append_right _ hκ) rfl rfl
          (fun _ _ hj => hj) with inside := ?_, waiting := ?_ }
      · intro m hm
        cases hm
      · intro m hm
        exact ⟨List.mem_map_of_mem hm, by simp, hrows m hm⟩
  · exact (nodup_dueMonitors _ _).sublist
      (((List.take_sublist _ _).trans List.filter_sublist).map _)
  · intro m hm
    obtain ⟨-, -, hnow, hrunning⟩ := mem_dueMonitors (hlisted m hm)
    exact ⟨h.begun ▸ hnow, hrunning⟩

/-- The insert of a job: there is one for the slot already, or it is the new one. -/
theorem Drafting.inserted {hash : String} {e : Effect Database Key Nat} (h : Drafting t g o x)
    (hm : m ∈ g.rest) (hturn : g.turn = []) (hbare : g.bare = [])
    (hdue : m.monitor.nextCheckAt ≤ t)
    (he : createScheduledCheckJob jobId (m.row (slotTime m.monitor t) hash) o.begun env busy
      (o.write x) = some e) :
    (e.value = 0 ∧ Drafting t g (o.extend e) x) ∨ (e.value = 1 ∧ Drafting t
        { g with turn := [m.id], bare := [(jobId, m.row (slotTime m.monitor t) hash)] }
        (o.extend e) x) := by
  obtain ⟨e', he', rfl⟩ := onLedger_some he
  split at he'
  · cases he'
    refine .inl ⟨rfl, { h.toBounded.extend (.same fun _ => rfl) (.same fun _ => rfl)
      (.same fun _ => rfl) (fun _ => rfl) (fun m hm => by cases hm) with partly := ?_ }⟩
    exact h.partly.same (fun κ hκ => List.mem_append_right _ hκ) rfl rfl fun _ _ hj => hj
  split at he'
  · cases he'
  next hfree =>
  cases he'
  have hnone : (Jobs (o.write x)).find jobId = none := by
    simp only [Bool.or_eq_true, not_or, Bool.not_eq_true, Option.isSome_eq_false_iff,
      Option.isNone_iff_eq_none] at hfree
    exact hfree.1
  refine .inr ⟨rfl, { h.toBounded.extend (.same fun _ => rfl)
    (.put (fun _ => rfl) List.mem_cons_self) (.same fun _ => rfl) (fun _ => rfl) ?_ with
      partly := ?_ }⟩
  · intro m' hm'
    have hlock : Key.monitor m' ∈ [Key.job jobId, Key.slot m.id (slotTime m.monitor t),
        Key.outstanding m.id] := hm'
    simp at hlock
  · exact h.partly.addJob hm hturn hbare (fun κ hκ => List.mem_append_right _ hκ)
      (List.mem_append_left _ List.mem_cons_self) rfl rfl hdue rfl hnone rfl rfl rfl

theorem Drafting.dispatched {payload : DispatchPayload} {e : Effect Database Key Unit}
    (h : Drafting t g o x) (hbare : g.bare = [(jobId, job)])
    (hhash : payload.snapshotHash = job.snapshotHash)
    (hexpires : payload.expiresAt = job.expiresAt)
    (he : createScheduledDispatchOutbox jobId payload o.begun env busy (o.write x) =
      some e) : Drafting t { g with bare := [] } (o.extend e) x := by
  unfold createScheduledDispatchOutbox createDispatchOutbox at he
  obtain ⟨e', he', rfl⟩ := onLedger_some he
  split at he'
  · cases he'
  next hfree =>
  cases he'
  have hnone : (Outbox (o.write x)).find jobId = none := by
    simp only [Bool.or_eq_true, not_or, Bool.not_eq_true, Option.isSome_eq_false_iff,
      Option.isNone_iff_eq_none] at hfree
    exact hfree.2
  refine { h.toBounded.extend (.same fun _ => rfl) (.same fun _ => rfl)
    (.put (fun _ => rfl) List.mem_cons_self) (fun _ => rfl) ?_ with partly := ?_ }
  · intro m hm
    have hlock : Key.monitor m ∈ [Key.dispatch jobId] := hm
    simp at hlock
  · exact h.partly.addDispatch hbare (fun κ hκ => List.mem_append_right _ hκ)
      (List.mem_append_left _ List.mem_cons_self) hhash hexpires hnone rfl rfl rfl

/-- The next check of the monitor whose turn it is. The row is the one that was
listed, so the condition of the update holds. -/
theorem Drafting.movedOn {next : Time} {e : Effect Database Key Unit} (h : Drafting t g o x)
    (hm : g.rest = m :: rest) (hturn : ∀ m' ∈ g.turn, m' = m.id)
    (hlast : ∀ m' ∈ rest, m'.id ≠ m.id) (hdue : m.monitor.nextCheckAt ≤ t)
    (hrunning : m.monitor.pausedAt = none ∧ m.monitor.deletedAt = none)
    (hnext : nextSchedule m.monitor.nextCheckAt t m.monitor.intervalSeconds = some next)
    (he : updateMonitorNextCheck m.id next m.monitor.nextCheckAt o.begun env busy
      (o.write x) = some e) :
    Drafting t { g with rest := rest, done := m.id :: g.done, turn := [] }
      (o.extend e) x := by
  obtain ⟨hid, hundone, hrow⟩ := h.partly.waiting m (hm ▸ List.mem_cons_self)
  have hview : (o.write x).core.monitors.find m.id = some m.monitor :=
    (h.partly.others m.id hundone).trans hrow
  obtain ⟨e', he', -, hlocks, hwrite⟩ := onCore_some he
  simp only [hview, if_pos, Option.some.injEq] at he'
  subst he'
  have hput : ∀ db, Monitors (e.write db) =
      (Monitors db).put m.id { m.monitor with nextCheckAt := next } := by
    intro db
    rw [Monitors, hwrite]
  have hledger : ∀ db, (e.write db).ledger = db.ledger := by
    intro db
    rw [hwrite]
  refine { h.toBounded.extend (.put hput (hlocks ▸ List.mem_cons_self))
    (.same fun db => congrArg Ledger.jobs (hledger db))
    (.same fun db => congrArg Ledger.outbox (hledger db))
    (fun db => by rw [hwrite]) ?_ with
      partly := ?_ }
  · intro m' hm'
    rw [hlocks, List.mem_singleton, Key.monitor.injEq] at hm'
    rw [hm']
    exact hid
  · exact h.partly.moveOn hm hturn hlast (fun κ hκ => List.mem_append_right _ hκ)
      ⟨hdue, hrunning, hnext, rfl⟩ (hput _) (congrArg Ledger.jobs (hledger _))
      (congrArg Ledger.outbox (hledger _))

end Draft

end WatchTrace.Proofs
