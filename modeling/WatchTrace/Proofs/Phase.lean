import WatchTrace.Proofs.Periods
import WatchTrace.Proofs.Rounds
import WatchTrace.Proofs.Slots

/-!
# Jobs and slots

The scheduler takes the time of a job from `next_check_at`; reports and rollups
count the slots they compute from the schedule periods. The two stay in phase
because every change of a monitor sets `next_check_at` and opens a period with
that as its first slot, and because the scheduler moves `next_check_at` by whole
intervals.

There are two ways out of phase. A monitor that is taken more than two minutes
after its slot gets a job for the present, which is no slot. And a period that
is closed at the very time of a job ends before that job.
-/

namespace WatchTrace.Proofs

open Tx Arith Model Protocol

/-! ## In phase -/

variable {seconds : Int}

/-- The intervals a monitor may have are from one minute to half an hour. -/
theorem allowed_step (h : allowedIntervals.contains seconds = true) :
    0 < seconds * second ∧ seconds * second ≤ 1800000000000 := by
  simp only [allowedIntervals, List.contains_eq_mem, List.mem_cons, List.not_mem_nil,
    or_false, decide_eq_true_eq] at h
  show 0 < seconds * 1000000000 ∧ seconds * 1000000000 ≤ 1800000000000
  omega

/-- A time that a period of the monitor asks for. -/
def OnSlot (c : Core) (m : Uuid) (slot : Time) : Prop :=
  ∃ p ∈ c.periods, p.monitorId = m ∧ p.startsAt ≤ slot ∧
    (∀ endsAt, p.endsAt = some endsAt → slot < endsAt) ∧
    ∃ k : Nat, slot = p.firstSlotAt + k * stepOf p

/-- The period a monitor is checked in, and where its next check is. -/
structure InStep (m : Uuid) (row : Monitor) (p : SchedulePeriod) : Prop where
  monitor : p.monitorId = m
  current : p.endsAt = none
  interval : p.intervalSeconds = row.intervalSeconds
  allowed : allowedIntervals.contains row.intervalSeconds = true
  first : p.startsAt ≤ p.firstSlotAt
  next : ∃ k : Nat, row.nextCheckAt = p.firstSlotAt + k * stepOf p

structure InPhase (db : Database) : Prop where
  running : ∀ m row, (Monitors db).find m = some row → row.pausedAt = none →
    row.deletedAt = none → ∃ p ∈ db.core.periods, InStep m row p
  jobs : ∀ j job, (Jobs db).find j = some job → job.jobType = .scheduled →
    OnSlot db.core job.monitorId job.scheduledAt

variable {c : Core} {m : Uuid} {row : Monitor}

variable {p : SchedulePeriod}

theorem InStep.onSlot (h : InStep m row p) (hp : p ∈ c.periods) :
    OnSlot c m row.nextCheckAt := by
  obtain ⟨k, hk⟩ := h.next
  refine ⟨p, hp, h.monitor, ?_, fun endsAt hends => ?_, k, hk⟩
  · have hstep : 0 ≤ stepOf p := by
      rw [stepOf, h.interval]
      exact Int.le_of_lt (allowed_step h.allowed).1
    rw [hk]
    exact Int.le_trans h.first
      (Int.le_add_of_nonneg_right (Int.mul_nonneg (Int.natCast_nonneg k) hstep))
  · rw [h.current] at hends
    cases hends

/-- What is on a slot is one that the reports and the rollups count. -/
theorem OnSlot.expected {slot fromAt toAt : Int} (h : OnSlot c m slot)
    (hregular : RegularPeriods c m) (hto : microsecond ∣ toAt) (hfrom : fromAt ≤ slot)
    (huntil : slot < toAt) : slot ∈ c.expectedSlots m fromAt toAt := by
  obtain ⟨p, hp, hm, -, hends, k, hk⟩ := h
  refine List.mem_flatMap.mpr ⟨p, List.mem_filter.mpr ⟨hp, beq_iff_eq.mpr hm⟩, ?_⟩
  refine ((hregular p hp hm).mem_slots hto).mpr ⟨k, hk, hfrom, ?_⟩
  unfold endIn
  cases hend : p.endsAt with
  | none => simpa using huntil
  | some endsAt => exact lt_min (hends endsAt hend) huntil

/-! ## The scheduler -/

/-- The monitors a transaction has taken can still be checked in time. -/
def Prompt (o : Open Database Key Env) (db : Database) : Prop :=
  ∀ m row, Key.monitor m ∈ o.locks → (Monitors db).find m = some row →
    o.begun.now ≤ row.nextCheckAt + jobStartWindow

/-- So little is never out of range. -/
theorem inRange_of_prompt {scheduled now : Int} (hdue : scheduled ≤ now)
    (hprompt : now ≤ scheduled + jobStartWindow)
    (hseconds : allowedIntervals.contains seconds = true) :
    InRange scheduled now seconds := by
  obtain ⟨hpos, hmost⟩ := allowed_step hseconds
  have hwindow : now - scheduled ≤ 120000000000 := by
    have hval : jobStartWindow = (120000000000 : Int) := by decide
    rw [hval] at hprompt
    omega
  have hfloor : (now - scheduled) / (seconds * second) * (seconds * second) ≤
      now - scheduled := Int.ediv_mul_le _ (Int.ne_of_gt hpos)
  unfold InRange
  omega

variable {x y : Database}

theorem InPhase.advance {o : Open Database Key Env} {ms : List Uuid} (h : InPhase x)
    (hprompt : Prompt o x) (hscope : ∀ m, Key.monitor m ∈ o.locks ↔ m ∈ ms)
    (hxy : Advance o.begun.now ms x y) : InPhase y := by
  -- what is known of a monitor that is taken
  have htaken : ∀ m ∈ ms, ∃ row row' p, (Monitors x).find m = some row ∧
      (Monitors y).find m = some row' ∧ Advanced o.begun.now row row' ∧
      p ∈ x.core.periods ∧ InStep m row p ∧
      o.begun.now ≤ row.nextCheckAt + jobStartWindow := by
    intro m hm
    obtain ⟨row, row', hrow, hrow', hadvanced⟩ := hxy.advanced m hm
    obtain ⟨p, hp, hstep⟩ := h.running m row hrow hadvanced.running.1 hadvanced.running.2
    exact ⟨row, row', p, hrow, hrow', hadvanced, hp, hstep, hprompt m row ((hscope m).mpr hm) hrow⟩
  constructor
  case running =>
    intro m row' hrow' hpaused hdeleted
    rw [hxy.periods]
    by_cases hm : m ∈ ms
    · obtain ⟨row, r', p, -, hr', hadvanced, hp, hstep, hlate⟩ := htaken m hm
      rw [hr', Option.some.injEq] at hrow'
      subst hrow'
      obtain ⟨-, -, -, hnext⟩ := nextSchedule_spec hadvanced.next hadvanced.due
        (inRange_of_prompt hadvanced.due hlate hstep.allowed)
      obtain ⟨k, hk⟩ := hstep.next
      have hrest := hadvanced.rest
      refine ⟨p, hp, hstep.monitor, hstep.current, ?_, ?_, hstep.first, ?_⟩
      · rw [hrest]
        exact hstep.interval
      · rw [hrest]
        exact hstep.allowed
      · have hstepOf : stepOf p = row.intervalSeconds * second := by
          rw [stepOf, hstep.interval]
        have hpos := (allowed_step hstep.allowed).1
        have hnonneg : 0 ≤ (o.begun.now - row.nextCheckAt) / (row.intervalSeconds * second) :=
          Int.ediv_nonneg (Int.sub_nonneg_of_le hadvanced.due) (Int.le_of_lt hpos)
        obtain ⟨n, hn⟩ := Int.eq_ofNat_of_zero_le hnonneg
        refine ⟨k + n + 1, ?_⟩
        rw [hnext, hn, hk, hstepOf, Int.add_assoc, ← Int.add_mul, Int.natCast_succ,
          Int.natCast_add, Int.add_assoc]
    · rw [hxy.others m hm] at hrow'
      exact h.running m row' hrow' hpaused hdeleted
  case jobs =>
    intro j job hj hscheduled
    have hcore : ∀ m slot, OnSlot x.core m slot → OnSlot y.core m slot := by
      intro m slot hslot
      unfold OnSlot
      rw [hxy.periods]
      exact hslot
    rcases hxy.created j job hj with hold | ⟨hm, hnew, -⟩
    · exact hcore _ _ (h.jobs j job hold hscheduled)
    · obtain ⟨row, row', p, hrow, -, hadvanced, hp, hstep, hlate⟩ := htaken _ hm
      obtain ⟨r, hr, -, hslot⟩ := hnew.row
      rw [hrow, Option.some.injEq] at hr
      subst hr
      have hnow : job.scheduledAt = row.nextCheckAt := by
        rw [hslot, slotTime, if_neg (not_lt.mpr hlate)]
      rw [hnow]
      exact hcore _ _ (hstep.onSlot hp)

theorem InPhase.attend (h : InPhase x) (hxy : Attend x y) : InPhase y := by
  constructor
  case running =>
    rw [hxy.monitors, hxy.periods]
    exact h.running
  case jobs =>
    intro j job hj hscheduled
    unfold OnSlot
    rw [hxy.periods]
    rcases hxy.jobs j with hsame | ⟨old, new, hold, hnext, hnew⟩
    · exact h.jobs j job (hsame ▸ hj) hscheduled
    · rw [hnew, Option.some.injEq] at hj
      subst hj
      have hmonitor : new.monitorId = old.monitorId := congrArg Prod.fst hnext.slot
      have hslot : new.scheduledAt = old.scheduledAt := congrArg Prod.snd hnext.slot
      rw [hmonitor, hslot]
      exact h.jobs j old hold (hnext.jobType ▸ hscheduled)

/-! ## A change of a monitor -/

/-- What a change commits: the row, the period that was open closed, and another
one opened if the monitor is to be checked. No job was for the time at which a
period is closed, or later. -/
structure Change (m : Uuid) (t : Time) (row : Monitor) (x y : Database) : Prop where
  monitors : Monitors y = (Monitors x).put m row
  periods : y.core.periods = x.core.periods.map (SchedulePeriod.closed m t) ++
    if row.pausedAt.isNone && row.deletedAt.isNone then [periodFrom m row t] else []
  ledger : y.ledger = x.ledger
  allowed : allowedIntervals.contains row.intervalSeconds = true
  next : row.pausedAt = none → row.deletedAt = none → t ≤ row.nextCheckAt
  before : (∃ p ∈ x.core.periods, p.isOpen m = true) → ∀ j job,
    (Jobs x).find j = some job → job.jobType = .scheduled → job.monitorId = m →
    job.scheduledAt < t

variable {t : Time}

theorem InPhase.change (h : InPhase x) (hxy : Change m t row x y) : InPhase y := by
  -- a period that is not the open one of this monitor stays
  have hkept : ∀ p ∈ x.core.periods, p.isOpen m = false → p ∈ y.core.periods := by
    intro p hp hclosed
    rw [hxy.periods]
    refine List.mem_append_left _ (List.mem_map.mpr ⟨p, hp, ?_⟩)
    unfold SchedulePeriod.closed
    rw [hclosed]
    rfl
  constructor
  case running =>
    intro m' row' hrow' hpaused hdeleted
    by_cases hm : m' = m
    · subst hm
      rw [hxy.monitors, Table.find_put, Option.some.injEq] at hrow'
      subst hrow'
      refine ⟨periodFrom m' row t, ?_, rfl, rfl, rfl, hxy.allowed, ?_, 0, ?_⟩
      · rw [hxy.periods, hpaused, hdeleted]
        exact List.mem_append_right _ (List.mem_singleton_self _)
      · exact hxy.next hpaused hdeleted
      · simp [periodFrom]
    rw [hxy.monitors, Table.find_put_ne _ _ hm] at hrow'
    obtain ⟨p, hp, hstep⟩ := h.running m' row' hrow' hpaused hdeleted
    refine ⟨p, hkept p hp ?_, hstep⟩
    simp [SchedulePeriod.isOpen, hstep.monitor, hm]
  case jobs =>
    intro j job hj hscheduled
    rw [Jobs, hxy.ledger] at hj
    obtain ⟨p, hp, hmonitor, hstarts, hends, k, hk⟩ := h.jobs j job hj hscheduled
    cases hopen : p.isOpen m with
    | false => exact ⟨p, hkept p hp hopen, hmonitor, hstarts, hends, k, hk⟩
    | true =>
    -- the job is for a time before the period is closed
    have hm : p.monitorId = m := by
      simp only [SchedulePeriod.isOpen, Bool.and_eq_true, beq_iff_eq] at hopen
      exact hopen.1
    have hbefore := hxy.before ⟨p, hp, hopen⟩ j job hj hscheduled (hmonitor.symm.trans hm)
    have hclosed : p.closed m t = { p with endsAt := some t } := by
      unfold SchedulePeriod.closed
      rw [hopen]
      rfl
    refine ⟨{ p with endsAt := some t }, ?_, hmonitor, hstarts, fun endsAt he => ?_, k, hk⟩
    · rw [hxy.periods, ← hclosed]
      exact List.mem_append_left _ (List.mem_map_of_mem hp)
    · cases he
      exact hbefore

variable {m' : Uuid}

theorem closed_of_other (hp : p.monitorId = m') (hm : m' ≠ m) :
    p.closed m t = p := by
  have hopen : p.isOpen m = false := by simp [SchedulePeriod.isOpen, hp, hm]
  unfold SchedulePeriod.closed
  rw [hopen]
  rfl

/-- The history of another monitor. -/
theorem Change.others (h : Change m t row x y) (hm : m' ≠ m) :
    periodsOf y m' = periodsOf x m' := by
  have hopened : (if row.pausedAt.isNone && row.deletedAt.isNone then [periodFrom m row t]
      else []).filter (fun p => p.monitorId == m') = [] := by
    rw [List.filter_eq_nil_iff]
    intro p hp
    split at hp
    · rw [List.mem_singleton.mp hp]
      simpa [periodFrom] using Ne.symm hm
    · cases hp
  have hclosed : (x.core.periods.map (SchedulePeriod.closed m t)).filter
      (fun p => p.monitorId == m') = periodsOf x m' := by
    rw [List.filter_map]
    have hsame : (fun p : SchedulePeriod => p.monitorId == m') ∘
        SchedulePeriod.closed m t = fun p => p.monitorId == m' := by
      funext p
      simp only [Function.comp_apply, closed_monitorId]
    rw [hsame]
    refine (List.map_congr_left fun p hp => ?_).trans (List.map_id _)
    exact closed_of_other (beq_iff_eq.mp (List.mem_filter.mp hp).2) hm
  rw [periodsOf, h.periods, List.filter_append, hopened, List.append_nil, hclosed]

/-! ## The calls that change a monitor -/

/-- What the one who changes a monitor commits. -/
def Edited (x y : Database) : Prop := ∃ m t row, Change m t row x y

/-- No job of a monitor the transaction owns is for the time it began, or later. -/
def Behind (o : Open Database Key Env) (db : Database) : Prop :=
  ∀ j job, Key.monitor job.monitorId ∈ o.locks → (Jobs db).find j = some job →
    job.jobType = .scheduled → job.scheduledAt < o.begun.now

def editTerms (Fair : Open Database Key Env → Database → Prop) : Terms Database Key Env Key where
  own := fun ses κ => κ ∈ ses.locks
  fair := fun ses db => ∀ o, ses = .active o → Fair o db

abbrev phases : Protocol Database Key World Unit := turnProtocol Prompt Edited

variable {env : Env} {busy : Key → Bool} {begun : Env} {db : Database}
variable {organizationId environmentId userId : Uuid} {config : Configuration}

variable {input : MonitorService.CreateInput}

section Calls

variable {m : Uuid} {t : Time} {i : Nat} {o : Open Database Key Env} {x : Database × World}
variable {α β : Type} {e : Effect Database Key β}
variable {Fair : Open Database Key Env → Database → Prop}
variable {Q : α → Session Database Key Env → Unit → Database × World → Prop}

/-- One statement. What others do meanwhile is no concern of a change. -/
theorem edit_query {q : Stmt β} {k : Except Fault β → Prog α}
    (hok : ∀ env busy e, q o.begun env busy (o.write x.1) = some e →
      ∀ y : Database × World, Fair (o.extend e) y.1 →
        phases.Honours (editTerms Fair) remote i Q (k (.ok e.value)) (.active (o.extend e)) () y)
    (herr : ∀ f y, phases.Honours (editTerms Fair) remote i Q (k (.error f)) .failed () y) :
    phases.Honours (editTerms Fair) remote i Q (query q >>= k) (.active o) () x := by
  refine lasting_query id (fun env busy e he => ?_) herr
  exact ⟨fun _ _ => True, fun _ _ _ _ _ _ => trivial, trivial,
    fun y _ hfair => hok env busy e he y (hfair _ rfl)⟩

/-- What a change has written so far: the row, whether the period that was open
is closed, and the one that is opened. -/
structure Sketch where
  row : Option Monitor := none
  closed : Bool := false
  opened : List SchedulePeriod := []

structure Sketched (m : Uuid) (t : Time) (g : Sketch) (o : Open Database Key Env) :
    Prop where
  begun : o.begun.now = t
  locked : Key.monitor m ∈ o.locks
  monitors : ∀ db, Monitors (o.write db) =
    match g.row with
    | none => Monitors db
    | some row => (Monitors db).put m row
  periods : ∀ db, (o.write db).core.periods =
    (if g.closed then db.core.periods.map (SchedulePeriod.closed m t)
      else db.core.periods) ++ g.opened
  ledger : ∀ db, (o.write db).ledger = db.ledger

variable {g : Sketch}

/-- A statement that writes neither monitors nor periods nor the ledger. -/
theorem Sketched.same (h : Sketched m t g o) (hcore : Derived e.write)
    (hledger : ∀ db, (e.write db).ledger = db.ledger) : Sketched m t g (o.extend e) where
  begun := h.begun
  locked := List.mem_append_right _ h.locked
  monitors := fun db => (hcore (o.write db)).monitors.trans (h.monitors db)
  periods := fun db => (hcore (o.write db)).periods.trans (h.periods db)
  ledger := fun db => (hledger _).trans (h.ledger db)

theorem Sketched.put (h : Sketched m t g o) (he : Rewritten m row e) :
    Sketched m t { g with row := some row } (o.extend e) where
  begun := h.begun
  locked := List.mem_append_right _ h.locked
  monitors := by
    intro db
    show (e.write (o.write db)).core.monitors = _
    rw [he.write]
    show (Monitors (o.write db)).put m row = _
    rw [h.monitors]
    cases g.row with
    | none => rfl
    | some old => exact Table.put_put _ _ _ _
  periods := by
    intro db
    show (e.write (o.write db)).core.periods = _
    rw [he.write]
    exact h.periods db
  ledger := by
    intro db
    show (e.write (o.write db)).ledger = _
    rw [he.write]
    exact h.ledger db

theorem Sketched.close {row : Option Monitor} {e : Effect Database Key Unit}
    (h : Sketched m t { row := row } o)
    (he : closeMonitorSchedulePeriod m o.begun env busy (o.write x.1) = some e) :
    Sketched m t { row := row, closed := true } (o.extend e) where
  begun := h.begun
  locked := List.mem_append_right _ h.locked
  monitors := by
    intro db
    show (e.write (o.write db)).core.monitors = _
    rw [close_some he]
    exact h.monitors db
  periods := by
    intro db
    show (e.write (o.write db)).core.periods = _
    rw [close_some he, h.begun, h.periods]
    simp
  ledger := by
    intro db
    show (e.write (o.write db)).ledger = _
    rw [close_some he]
    exact h.ledger db

/-- A period is opened for the row in view, and only if none is open. -/
theorem open_some {e : Effect Database Key Unit}
    (h : openMonitorSchedulePeriod m begun env busy db = some e)
    (hrow : db.core.monitors.find m = some row) :
    (∀ p ∈ db.core.periods, p.isOpen m = false) ∧
      ∀ db', e.write db' = { db' with core := { db'.core with
        periods := db'.core.periods ++ [periodFrom m row begun.now] } } := by
  obtain ⟨e', he', -, -, hwrite⟩ := onCore_some h
  simp only [hrow] at he'
  split at he'
  · next hcond =>
    cases he'
    simp only [Bool.and_eq_true, Bool.not_eq_true', List.any_eq_false] at hcond
    refine ⟨fun p hp => ?_, hwrite⟩
    simpa using hcond.2 p hp
  · cases he'

theorem Sketched.openPeriod {closed : Bool} {e : Effect Database Key Unit}
    (h : Sketched m t { row := some row, closed := closed } o)
    (he : openMonitorSchedulePeriod m o.begun env busy (o.write x.1) = some e) :
    (∀ p ∈ (o.write x.1).core.periods, p.isOpen m = false) ∧
      Sketched m t { row := some row, closed := closed, opened := [periodFrom m row t] }
        (o.extend e) := by
  have hrow : (o.write x.1).core.monitors.find m = some row := by
    show (Monitors (o.write x.1)).find m = some row
    rw [h.monitors]
    exact Table.find_put _ _ _
  obtain ⟨hnone, hwrite⟩ := open_some he hrow
  refine ⟨hnone, h.begun, List.mem_append_right _ h.locked, fun db => ?_, fun db => ?_,
    fun db => ?_⟩
  · show (e.write (o.write db)).core.monitors = _
    rw [hwrite]
    exact h.monitors db
  · show (e.write (o.write db)).core.periods = _
    rw [hwrite, h.begun]
    show (o.write db).core.periods ++ _ = _
    rw [h.periods, List.append_nil]
  · show (e.write (o.write db)).ledger = _
    rw [hwrite]
    exact h.ledger db

/-- The end of every change. -/
theorem announce_edits (row : Monitor) {γ : Type} {value : γ} (h : Sketched m t g o)
    (hchange : ∀ e : Effect Database Key Unit, Sketched m t g (o.extend e) →
      ∀ y : Database × World, Fair (o.extend e) y.1 → Spared (· ∈ (o.extend e).locks) x.1 y.1 →
        Change m t row y.1 ((o.extend e).write y.1)) :
    phases.Honours (editTerms Fair) remote i Done (do
      let .ok () ← query (insertMonitorRefreshEvent organizationId environmentId
        "monitor.changed" "monitor" m) | return .error Failure.database
      let .ok () ← commit | return .error Failure.database
      return .ok value : Prog (Except Failure γ)) (.active o) () x := by
  refine honours_query (fun h => h.elim) ?_ fun f y _ _ => trivial
  intro env busy e he y hy hfair
  have hsketch : Sketched m t g (o.extend e) := by
    unfold insertMonitorRefreshEvent insertRefreshEvent at he
    obtain ⟨e', -, -, -, hwrite⟩ := onJournal_some he
    refine h.same (fun db => ?_) fun db => ?_
    · rw [hwrite]
      exact .refl _
    · rw [hwrite]
  have hedit := hchange e hsketch y (hfair _ rfl) hy
  have htakes : phases.Takes (editTerms Fair) i (.active (o.extend e)) () y ()
      ((o.extend e).write y.1, y.2) := by
    refine ⟨.inr (.inr ⟨m, t, row, hedit⟩), fun L hL => ?_⟩
    have hother : ∀ m', L (.monitor m') → m' ≠ m := by
      rintro m' hm' rfl
      exact hL _ hm' hsketch.locked
    refine ⟨fun m' hm' => ?_, fun m' hm' => hedit.others (hother m' hm'), fun j _ => ?_,
      fun j _ => ?_⟩
    · show (Monitors ((o.extend e).write y.1)).find m' = _
      rw [hedit.monitors, Table.find_put_ne _ _ (hother m' hm')]
    · show (Jobs ((o.extend e).write y.1)).find j = _
      rw [Jobs, hedit.ledger]
    · show (Outbox ((o.extend e).write y.1)).find j = _
      rw [Outbox, hedit.ledger]
  refine honours_commit trivial ⟨(), htakes, fun r z _ _ => ?_⟩ fun _ _ _ => trivial
  cases r <;> trivial

/-- A change that is through. -/
def wholeSketch (m : Uuid) (t : Time) (row : Monitor) (reopen : Bool) : Sketch :=
  { row := some row, closed := true, opened := if reopen then [periodFrom m row t] else [] }

/-- The row has been changed, and the rest of a change follows. -/
theorem reschedule_edits {monitor : Monitor} {reopen : Bool}
    (h : Sketched m t { row := some row } o)
    (hon : (row.pausedAt.isNone && row.deletedAt.isNone) = reopen)
    (hallowed : allowedIntervals.contains row.intervalSeconds = true)
    (hnext : reopen = true → t ≤ row.nextCheckAt) :
    phases.Honours (editTerms Behind) remote i Done
      (MonitorService.reschedule monitor m reopen) (.active o) () x := by
  -- what is committed, whether or not a period has been opened
  have hchange : ∀ (o : Open Database Key Env), Sketched m t (wholeSketch m t row reopen) o →
      ∀ y : Database, Behind o y → Change m t row y (o.write y) := by
    intro o h y hbehind
    refine ⟨h.monitors y, ?_, h.ledger y, hallowed, fun hpaused hdeleted => ?_, ?_⟩
    · rw [h.periods, hon]
      rfl
    · rw [hpaused, hdeleted] at hon
      exact hnext hon.symm
    · rintro - j job hj hscheduled rfl
      rw [← h.begun]
      exact hbehind j job h.locked hj hscheduled
  refine edit_query (fun env busy e he y _ => ?_) fun _ _ => trivial
  have hclosed := h.close he
  cases reopen with
  | false => exact announce_edits row hclosed fun e h y hbehind _ => hchange _ h y.1 hbehind
  | true =>
  refine edit_query (fun env busy e he y _ => ?_) fun _ _ => trivial
  obtain ⟨-, hopened⟩ := hclosed.openPeriod he
  exact announce_edits row hopened fun e h y hbehind _ => hchange _ h y.1 hbehind

/-- A transaction that has written nothing. -/
theorem Sketched.fresh {env : Env} (hwrite : e.write = id) (hlocks : Key.monitor m ∈ e.locks) :
    Sketched m env.now {} ((Open.fresh env).extend e) := by
  refine ⟨rfl, List.mem_append_left _ hlocks, fun db => ?_, fun db => ?_, fun db => ?_⟩
  · show (e.write db).core.monitors = _
    rw [hwrite]
    rfl
  · show (e.write db).core.periods = _
    rw [hwrite]
    exact (List.append_nil _).symm
  · show (e.write db).ledger = _
    rw [hwrite]
    rfl

theorem phases_handled : Handles phases (editTerms Behind) i m
    (fun o _ => Sketched m o.begun.now {} o) where
  lock := fun _ => lockManaged_honours fun _ _ hwrite hlocks _ _ _ _ => .fresh hwrite hlocks
  query := fun hheld _ hok herr =>
    edit_query (fun env busy e he y _ => hok env busy e he y hheld) herr
  change := fun hheld hrewritten hon hnext =>
    reschedule_edits (hheld.put hrewritten) hon hrewritten.interval hnext

variable (L : Destination.Library) (encrypt : MonitorService.Encrypt) (hash : Uuid → Nat)

/-! A new monitor has no period that could be open. -/

theorem createMonitor_some {e : Effect Database Key Uuid}
    (h : createMonitor organizationId environmentId config begun env busy db = some e) :
    e.value = env.uuid ∧ Key.monitor env.uuid ∈ e.locks ∧
      ∃ row, Rewritten env.uuid row e ∧ row.pausedAt = none ∧ row.deletedAt = none := by
  obtain ⟨e', he', hvalue, hlocks, hwrite⟩ := onCore_some h
  split at he'
  · cases he'
  obtain ⟨hput, hrewritten⟩ := rewritten_of_put he' hwrite
  refine ⟨hvalue.trans hput, ?_, _, hrewritten, rfl, rfl⟩
  rw [hlocks]
  unfold putMonitor at he'
  split at he'
  · cases he'
    exact List.mem_singleton_self _
  · cases he'

theorem storeSecureMonitorConfiguration_some {id : Uuid} {e : Effect Database Key Unit}
    (h : storeSecureMonitorConfiguration hash id config begun env busy db = some e)
    (hrow : db.core.monitors.find id = some row) :
    ∃ row', Rewritten id row' e ∧ row'.pausedAt = row.pausedAt ∧
      row'.deletedAt = row.deletedAt ∧ begun.now ≤ row'.nextCheckAt := by
  obtain ⟨e', he', -, -, hwrite⟩ := onCore_some h
  simp only [hrow] at he'
  obtain ⟨-, hrewritten⟩ := rewritten_of_put he' hwrite
  refine ⟨_, hrewritten, rfl, rfl, ?_⟩
  exact Int.le_add_of_nonneg_right (slotOffset_nonneg hash id hrewritten.interval)

/-- Nobody opens a period of a monitor that is locked. -/
theorem Spared.noneOpen {L : Key → Prop} {x : Database} (h : Spared L x y) (hm : L (.monitor m))
    (hx : ∀ p ∈ x.core.periods, p.isOpen m = false) :
    ∀ p ∈ y.core.periods, p.isOpen m = false := by
  intro p hp
  cases hopen : p.isOpen m with
  | false => rfl
  | true =>
  have hid : (p.monitorId == m) = true := by
    simp only [SchedulePeriod.isOpen, Bool.and_eq_true] at hopen
    exact hopen.1
  have hmem : p ∈ periodsOf x m := by
    rw [← h.periods m hm]
    exact List.mem_filter.mpr ⟨hp, hid⟩
  rw [hx p (List.mem_filter.mp hmem).1] at hopen
  exact hopen.symm

theorem map_closed_of_noneOpen (h : ∀ p ∈ c.periods, p.isOpen m = false) :
    c.periods.map (SchedulePeriod.closed m t) = c.periods := by
  refine (List.map_congr_left fun p hp => ?_).trans (List.map_id _)
  unfold SchedulePeriod.closed
  rw [h p hp]
  rfl

/-- The rest of `Create`, once the row is there. -/
theorem storeMonitor_edits (h : Sketched m t { row := some row } o)
    (hpaused : row.pausedAt = none) (hdeleted : row.deletedAt = none) :
    phases.Honours (editTerms fun _ _ => True) remote i Done (do
      let .ok () ← query (storeSecureMonitorConfiguration hash m config)
        | return .error .database
      let .ok () ← query (openMonitorSchedulePeriod m) | return .error .database
      let .ok () ← query (ensureMonitorReliabilityState m) | return .error .database
      let .ok () ← query (insertMonitorRefreshEvent organizationId environmentId
        "monitor.changed" "monitor" m) | return .error .database
      let .ok () ← commit | return .error .database
      return .ok m : Prog (Except Failure Uuid)) (.active o) () x := by
  refine edit_query (fun env busy e he y _ => ?_) fun _ _ => trivial
  have hrow : (o.write x.1).core.monitors.find m = some row := by
    show (Monitors (o.write x.1)).find m = some row
    rw [h.monitors]
    exact Table.find_put _ _ _
  obtain ⟨row', hrewritten, hpaused', hdeleted', hnext⟩ :=
    storeSecureMonitorConfiguration_some hash he hrow
  rw [hpaused] at hpaused'
  rw [hdeleted] at hdeleted'
  rw [h.begun] at hnext
  have hstored := h.put hrewritten
  refine honours_query (fun h => h.elim) ?_ fun f z _ _ => trivial
  intro env busy e he z hz _
  obtain ⟨hnone, hopened⟩ := hstored.openPeriod he
  have hbefore : ∀ p ∈ y.1.core.periods, p.isOpen m = false := by
    rw [hstored.periods, List.append_nil] at hnone
    exact hnone
  have hnone : ∀ p ∈ z.1.core.periods, p.isOpen m = false :=
    Spared.noneOpen hz hopened.locked hbefore
  refine honours_query (fun h => h.elim) ?_ fun f z _ _ => trivial
  intro env busy e he z' hz' _
  have hensured := hopened.same ((evaluates_derived m).ensure _ _ _ _ e he) (onCore_ledger he)
  have hnone' : ∀ p ∈ z'.1.core.periods, p.isOpen m = false :=
    Spared.noneOpen hz' hensured.locked hnone
  refine announce_edits row' hensured fun e h w _ hw => ?_
  have hfree : ∀ p ∈ w.1.core.periods, p.isOpen m = false :=
    Spared.noneOpen hw h.locked hnone'
  refine ⟨h.monitors w.1, ?_, h.ledger w.1, hrewritten.interval, fun _ _ => hnext, ?_⟩
  · rw [h.periods, map_closed_of_noneOpen hfree, hpaused', hdeleted']
    rfl
  · rintro ⟨p, hp, hopen⟩
    rw [hfree p hp] at hopen
    cases hopen

theorem insertMonitor_edits (h : o.write = id) :
    phases.Honours (editTerms fun _ _ => True) remote i Done
      (MonitorService.insertMonitor hash organizationId environmentId config)
      (.active o) () x := by
  refine edit_query (fun env busy e he y _ => ?_) fun _ _ => trivial
  obtain ⟨hvalue, hlock, row, hrewritten, hpaused, hdeleted⟩ := createMonitor_some he
  rw [hvalue]
  refine storeMonitor_edits hash (t := o.begun.now) ⟨rfl, List.mem_append_left _ hlock,
    fun db => ?_, fun db => ?_, fun db => ?_⟩ hpaused hdeleted
  · show (e.write (o.write db)).core.monitors = _
    rw [h, hrewritten.write]
    rfl
  · show (e.write (o.write db)).core.periods = _
    rw [h, hrewritten.write]
    exact (List.append_nil _).symm
  · show (e.write (o.write db)).ledger = _
    rw [h, hrewritten.write]
    rfl

theorem lockEnvironment_write {e : Effect Database Key (Option (Uuid × Role))}
    (he : lockEnvironmentForMonitorCreation userId environmentId begun env busy db =
      some e) : e.write = id := by
  obtain ⟨e', he', -, -, hwrite⟩ := onCore_some he
  refine funext fun db' => (hwrite db').trans ?_
  repeat' split at he'
  all_goals cases he'
  all_goals rfl

theorem create_edits : phases.Honours (editTerms fun _ _ => True) remote i Done
      (MonitorService.create L encrypt hash userId environmentId input) .idle () x := by
  unfold MonitorService.create
  cases MonitorService.normalizeCreateInput L input with
  | none => trivial
  | some normalized =>
  refine honours_start (fun env y hy _ => ?_) fun _ _ _ => trivial
  refine edit_query (fun env' busy e he y _ => ?_) fun _ _ => trivial
  cases hvalue : e.value with
  | none => trivial
  | some found =>
  dsimp only
  split
  · trivial
  cases MonitorService.encryptHeaders encrypt normalized.headers with
  | none => trivial
  | some sealed =>
  refine edit_query (fun env'' busy' e' he' y _ => ?_) fun _ _ => trivial
  dsimp only
  split
  · trivial
  · refine insertMonitor_edits hash ?_
    cases he'
    exact lockEnvironment_write he

end Calls

/-! ## Every run -/

/-- What there is to be done, and by whom. -/
inductive Part
  | schedules
  | attends
  | edits
  | creates
  deriving DecidableEq

/-- The calls that create, change and delete monitors, the scheduler, and the
workers that attend to its jobs. -/
inductive Operating (P : Primitives) (L : Destination.Library)
    (encrypt : MonitorService.Encrypt) (hash : Uuid → Nat) : Part → Prog Unit → Prop
  | schedules {p : Prog Unit} : Working P true p → Operating P L encrypt hash .schedules p
  | attends {p : Prog Unit} : Working P false p → Operating P L encrypt hash .attends p
  | edits (m : Uuid) {p : Prog Unit} :
      Edits L encrypt hash m p → Operating P L encrypt hash .edits p
  | creates (userId environmentId : Uuid) (input : MonitorService.CreateInput) :
      Operating P L encrypt hash .creates (MonitorService.create L encrypt hash userId
        environmentId input >>= fun _ => pure ())

/-- What each of them has to find. -/
def Part.fair : Part → Open Database Key Env → Database → Prop
  | .schedules => Prompt
  | .attends => fun _ _ => True
  | .edits => Behind
  | .creates => fun _ _ => True

def Part.terms : Part → Terms Database Key Env Key
  | .schedules => turnTerms Prompt
  | .attends => lockTerms
  | .edits => editTerms Behind
  | .creates => editTerms fun _ _ => True

/-- In every transaction that is open things are as they should be. -/
def OnTime (s : System) (parts : List Part) : Prop :=
  ∀ (i : Nat) (p : Process Database Key Env Call) (part : Part)
    (o : Open Database Key Env), s.procs[i]? = some p → parts[i]? = some part → ¬ p.Over →
    p.session = .active o → part.fair o s.db

section Runs

-- whether an input is acceptable is not to be computed where programs are compared
attribute [local irreducible] MonitorService.normalizeCreateInput

variable {P : Primitives} {L : Destination.Library} {encrypt : MonitorService.Encrypt}
variable {hash : Uuid → Nat}

theorem kept_of_onTime {s : System} {parts : List Part} (hapart : s.Apart)
    (h : OnTime s parts) : s.Kept Part.terms parts where
  fair := by
    intro i p part hp ht hover
    cases part with
    | schedules => exact fun o ho => h i p _ o hp ht hover ho
    | attends => trivial
    | edits => exact fun o ho => h i p _ o hp ht hover ho
    | creates => exact fun _ _ => trivial
  apart := by
    intro i j p q part part' hp hq _ _ hij _ _ κ
    cases part <;> cases part' <;> exact hapart i j p q hp hq hij κ

theorem operating_phases {part : Part} {p : Prog Unit}
    (hp : Operating P L encrypt hash part p) (i : Nat) (x : Database × World) :
    phases.Honours part.terms remote i Done p .idle () x := by
  cases hp with
  | schedules hp =>
    rcases working_cases hp with ⟨-, key, batch, rfl⟩ | ⟨hworker, -⟩
    · exact scheduleDue_turns.void
    · cases hworker
  | attends hp => exact working_attends hp
  | edits m hp => exact hp.handled phases_handled trivial
  | creates userId environmentId input => exact (create_edits L encrypt hash).void

theorem InPhase.step {p q : (Database × World) × List Unit}
    (hstep : AbsStep phases p q) (h : InPhase p.1.1) : InPhase q.1.1 := by
  cases hstep with
  | spawn => exact h
  | move _ hmove =>
  rcases hmove with ⟨o, ms, hprompt, hscope, hadvance⟩ | hattend | ⟨m, t, row, hchange⟩
  · exact h.advance hprompt hscope hadvance
  · exact h.attend hattend
  · exact h.change hchange

/-- Every scheduled job is on a slot of a period of its monitor, and inside it, so
that the queries of reports and rollups find it there. -/
theorem jobs_on_slots {db : Database} {w : World} {s : System} {parts : List Part} (h : InPhase db)
    (hrun : TaggedSteps remote (Operating P L encrypt hash) OnTime (Sys.quiet db w, [])
      (s, parts)) :
    ∀ j job, (Jobs s.db).find j = some job → job.jobType = .scheduled →
      OnSlot s.db.core job.monitorId job.scheduledAt ∧
      (RegularPeriods s.db.core job.monitorId → ∀ fromAt toAt : Time, microsecond ∣ toAt →
        fromAt ≤ job.scheduledAt → job.scheduledAt < toAt →
        job.scheduledAt ∈ s.db.core.expectedSlots job.monitorId fromAt toAt) := by
  obtain ⟨hkept, -⟩ := TaggedSteps.mono (Sys.apart_quiet db w) hrun
    fun _ _ hapart h => kept_of_onTime hapart h
  have hF : ∀ (part : Part) (p : Prog Unit), Operating P L encrypt hash part p → ∀ i x,
      phases.good x → phases.Honours part.terms remote i Done p .idle () x :=
    fun part p hp i x _ => operating_phases hp i x
  obtain ⟨as, -, hphase⟩ := kept_invariant hF (fun x => InPhase x.1.1)
    (fun hstep _ h => h.step hstep) (s := (Sys.quiet db w, []))
    (honoured_quiet (x := (db, w)) trivial) h hkept
  intro j job hj hscheduled
  have hslot := hphase.jobs j job hj hscheduled
  exact ⟨hslot, fun hregular fromAt toAt hto hfrom huntil =>
    hslot.expected hregular hto hfrom huntil⟩

end Runs

namespace Sample

/-- The sample monitor is due at the first slot of its period. -/
theorem managing_inPhase : InPhase managing.db where
  running := by
    intro m row hrow _ _
    have hone : (Monitors managing.db).find m = if m = 1 then some monitor else none :=
      Table.find_put_eq _ _ _ _
    rw [hone] at hrow
    split at hrow
    · next hm =>
      cases hrow
      subst hm
      exact ⟨_, List.mem_singleton_self _, rfl, rfl, rfl, by decide, by decide, 0, by decide⟩
    · cases hrow
  jobs := by
    intro j job hj
    cases hj

/-- The calls about the sample monitor. -/
abbrev Operates : Part → Prog Unit → Prop :=
  Operating primitives noUrls (fun _ => none) (fun _ => 0)

/-- The scheduler takes the monitor at one time, and it is paused at another. -/
def scheduledThenPaused (scheduling pausingAt : Int) :
    List (Act Database Key Env Call × List Part) :=
  (scheduler, [.schedules]) :: marked (steps 0 (moment scheduling 11 21) 14) ++
    (change pausing, [.edits]) :: marked (steps 1 (moment pausingAt 12 21) 7)

theorem scheduledThenPaused_tagged (scheduling pausingAt : Int) :
    ∀ a ∈ scheduledThenPaused scheduling pausingAt, Act.Tagged Operates a := by
  simp only [scheduledThenPaused, List.forall_mem_append, List.forall_mem_cons]
  exact ⟨⟨⟨_, .schedules (.scheduleDue _ _), rfl⟩, steps_tagged _ _ _ _⟩,
    ⟨_, .edits 1 (.pause 5 3), rfl⟩, steps_tagged _ _ _ _⟩

/-- Nobody is late, and no job is for the time a transaction began or later. -/
def onTime (s : System) (parts : List Part) : Bool :=
  (s.procs.zip parts).all fun e =>
    match e.1.session, e.2 with
    | .active o, .schedules => s.db.core.monitors.rows.all fun r =>
      decide (o.begun.now ≤ r.2.nextCheckAt + jobStartWindow)
    | .active o, .edits => s.db.ledger.jobs.rows.all fun r => decide (r.2.scheduledAt < o.begun.now)
    | _, _ => true

theorem onTime_sound (s : System) (parts : List Part) (h : onTime s parts = true) :
    OnTime s parts := by
  intro i p part o hp hpart _ ho
  have hzip : (s.procs.zip parts)[i]? = some (p, part) := by
    rw [List.getElem?_zip_eq_some]
    exact ⟨hp, hpart⟩
  have hproc := List.all_eq_true.mp h (p, part) (List.mem_of_getElem? hzip)
  cases part with
  | attends | creates => trivial
  | schedules =>
    intro m row _ hrow
    simp only [ho] at hproc
    exact of_decide_eq_true (List.all_eq_true.mp hproc (m, row) (Table.mem_rows.mpr hrow))
  | edits =>
  intro j job _ hj _
  simp only [ho] at hproc
  exact of_decide_eq_true (List.all_eq_true.mp hproc (j, job) (Table.mem_rows.mpr hj))

/-- What the job is for, and the first and only period. -/
def jobAndPeriod (x : System × List Part) :
    Option (Uuid × JobType × Time) × List (Time × Option Time × Time × Int) :=
  (((Jobs x.1.db).find 11).map fun job => (job.monitorId, job.jobType, job.scheduledAt),
    x.1.db.core.periods.map fun p => (p.startsAt, p.endsAt, p.firstSlotAt, p.intervalSeconds))

/-- A run after which the job is for `slot` and the period has ended at `endsAt`. -/
theorem run_of_jobAndPeriod (test : System → List Part → Bool)
    {C : System → List Part → Prop} (htest : ∀ s parts, test s parts = true → C s parts)
    (scheduling pausingAt : Int) (slot endsAt : Time)
    (h : (Sys.runTagged remote test (managing, [])
      (scheduledThenPaused scheduling pausingAt)).map jobAndPeriod =
        some (some (1, .scheduled, slot), [(0, some endsAt, 60 * second, 60)])) :
    ∃ s parts job, TaggedSteps remote Operates C (managing, []) (s, parts) ∧
      (Jobs s.db).find 11 = some job ∧ job.jobType = .scheduled ∧ job.monitorId = 1 ∧
      job.scheduledAt = slot ∧
      ∀ p ∈ s.db.core.periods, p.endsAt = some endsAt ∧ p.firstSlotAt = 60 * second ∧
        p.intervalSeconds = 60 := by
  obtain ⟨⟨s, parts⟩, hs, hvalues⟩ := Option.map_eq_some_iff.mp h
  simp only [jobAndPeriod, Prod.mk.injEq, Option.map_eq_some_iff] at hvalues
  obtain ⟨⟨job, hjob, hmonitor, htype, hslot⟩, hperiods⟩ := hvalues
  refine ⟨s, parts, job, Sys.runTagged_steps htest (scheduledThenPaused_tagged _ _) hs,
    hjob, htype, hmonitor, hslot, fun p hp => ?_⟩
  have hmem := List.mem_map_of_mem (f := fun p : SchedulePeriod =>
    (p.startsAt, p.endsAt, p.firstSlotAt, p.intervalSeconds)) hp
  rw [hperiods, List.mem_singleton] at hmem
  simp only [Prod.mk.injEq] at hmem
  exact hmem.2

end Sample

open Sample

/-- Taken at its slot, and paused later. -/
theorem jobs_on_slots_sample : ∃ s parts job,
    TaggedSteps remote Operates OnTime (managing, []) (s, parts) ∧
    (Jobs s.db).find 11 = some job ∧ job.scheduledAt = 60 * second ∧
    OnSlot s.db.core job.monitorId job.scheduledAt := by
  obtain ⟨s, parts, job, hrun, hjob, htype, -, hslot, -⟩ := run_of_jobAndPeriod
    onTime onTime_sound 60 70 (60 * second) (70 * second) rfl
  exact ⟨s, parts, job, hrun, hjob, hslot,
    (jobs_on_slots managing_inPhase hrun 11 job hjob htype).1⟩

/-- Taken at second 185, the monitor is checked at second 185; paused at second 60,
its period ends before the check of second 60. -/
theorem job_off_slot : InPhase managing.db ∧
    (∃ s parts job, TaggedSteps remote Operates (fun _ _ => True)
      (managing, []) (s, parts) ∧ (Jobs s.db).find 11 = some job ∧
      job.jobType = .scheduled ∧ job.scheduledAt = 185 * second ∧
      ¬ OnSlot s.db.core job.monitorId job.scheduledAt) ∧
    ∃ s parts job, TaggedSteps remote Operates (fun _ _ => True)
      (managing, []) (s, parts) ∧ (Jobs s.db).find 11 = some job ∧
      job.jobType = .scheduled ∧ job.scheduledAt = 60 * second ∧
      ¬ OnSlot s.db.core job.monitorId job.scheduledAt := by
  refine ⟨managing_inPhase, ?_, ?_⟩
  · obtain ⟨s, parts, job, hrun, hjob, htype, -, hslot, hperiods⟩ :=
      run_of_jobAndPeriod (fun _ _ => true) (fun _ _ _ => trivial) 185 190
        (185 * second) (190 * second) rfl
    refine ⟨s, parts, job, hrun, hjob, htype, hslot, ?_⟩
    rintro ⟨p, hp, -, -, -, k, hk⟩
    obtain ⟨-, hfirst, hinterval⟩ := hperiods p hp
    rw [hslot, stepOf, hfirst, hinterval] at hk
    have hnumbers : (185 * 1000000000 : Int) = 60 * 1000000000 + k * (60 * 1000000000) := hk
    omega
  · obtain ⟨s, parts, job, hrun, hjob, htype, -, hslot, hperiods⟩ :=
      run_of_jobAndPeriod (fun _ _ => true) (fun _ _ _ => trivial) 60 60
        (60 * second) (60 * second) rfl
    refine ⟨s, parts, job, hrun, hjob, htype, hslot, ?_⟩
    rintro ⟨p, hp, -, -, hends, -⟩
    have hbefore := hends _ (hperiods p hp).1
    rw [hslot] at hbefore
    exact absurd hbefore (lt_irrefl _)

end WatchTrace.Proofs
