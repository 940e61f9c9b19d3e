import WatchTrace.Proofs.Rounds

/-!
# Progress of the scheduler

As long as nobody edits a monitor, its next check moves in one direction only:
each `ScheduleDue` that takes the monitor moves it past its own time, and
creates a job for a moment that lies between the old and the new value. So the
jobs of a monitor come in the order of their slots, whoever creates them, and
each of them comes with its row in the outbox.

All this rests on `nextSchedule`. It multiplies in an `int64`, and a monitor
that is late by 292 years or more makes the product wrap: the next check is
then in the past, and not even in step with the old one. `InTime` says that
this does not happen to the monitors a transaction has taken.
-/

namespace WatchTrace.Proofs

open Tx Model Protocol

/-- The next checks of the monitors the transaction has taken can be computed. -/
def InTime (o : Open Database Key Env) (db : Database) : Prop :=
  ∀ m row, Key.monitor m ∈ o.locks → (Monitors db).find m = some row →
    InRange row.nextCheckAt o.begun.now row.intervalSeconds

/-- Nobody edits a monitor. -/
abbrev inTime : Protocol Database Key World Unit := turnProtocol InTime fun _ _ => False

def inTimeTerms (scheduler : Bool) : Terms Database Key Env Key :=
  if scheduler then turnTerms InTime else lockTerms

theorem working_inTime {P : Primitives} {i : Nat} {x : Database × World} {scheduler : Bool}
    {p : Prog Unit} (hp : Working P scheduler p) :
    inTime.Honours (inTimeTerms scheduler) remote i Done p .idle () x := by
  cases scheduler with
  | false => exact working_attends hp
  | true =>
  rcases working_cases hp with ⟨-, key, batch, rfl⟩ | ⟨hworker, -⟩
  · exact scheduleDue_turns.void
  · cases hworker

/-! ## Since then -/

variable {t : Time}

theorem slotTime_le {row : Monitor} (hdue : row.nextCheckAt ≤ t) :
    row.nextCheckAt ≤ slotTime row t ∧ slotTime row t ≤ t := by
  unfold slotTime
  split
  · exact ⟨hdue, le_refl t⟩
  · exact ⟨le_refl _, hdue⟩

/-- A job that is there now, and was not. -/
def Created (b x : Database) (j : Uuid) (job : CheckJob) : Prop :=
  (Jobs b).find j = none ∧ (Jobs x).find j = some job

/-- What has become of the rows `b`. The slot of a job that was created since
lies between the next check then and the next check now. -/
structure Onward (b x : Database) : Prop where
  absent : ∀ m, (Monitors b).find m = none → (Monitors x).find m = none
  later : ∀ m row, (Monitors b).find m = some row →
    ∃ row', (Monitors x).find m = some row' ∧ row.nextCheckAt ≤ row'.nextCheckAt
  created : ∀ j job, Created b x j job → ∃ row row', (Monitors b).find job.monitorId = some row ∧
    (Monitors x).find job.monitorId = some row' ∧
    row.nextCheckAt ≤ job.scheduledAt ∧ job.scheduledAt < row'.nextCheckAt
  distinct : ∀ j job j' job', Created b x j job → Created b x j' job' →
    job'.monitorId = job.monitorId → job'.scheduledAt = job.scheduledAt → j' = j
  paired : ∀ j job, (Jobs x).find j = some job →
    (∀ job₀, (Jobs b).find j = some job₀ → Paired b j job₀) → Paired x j job

theorem Onward.refl (b : Database) : Onward b b where
  absent := fun _ h => h
  later := fun m row h => ⟨row, h, le_refl _⟩
  created := fun j job ⟨hnone, hsome⟩ => by
    rw [hnone] at hsome
    cases hsome
  distinct := fun j job j' job' ⟨hnone, hsome⟩ => by
    rw [hnone] at hsome
    cases hsome
  paired := fun j job hj h => h job hj

variable {x b y : Database}

/-- A `ScheduleDue` commits. -/
theorem Onward.advance {ms : List Uuid} (h : Onward b x)
    (hrange : ∀ m ∈ ms, ∀ row, (Monitors x).find m = some row →
      InRange row.nextCheckAt t row.intervalSeconds) (hxy : Advance t ms x y) : Onward b y := by
  -- the next check of a monitor that has had its turn is past the transaction
  have hmoved : ∀ m row, (Monitors x).find m = some row → ∃ row',
      (Monitors y).find m = some row' ∧ row.nextCheckAt ≤ row'.nextCheckAt ∧
        (m ∈ ms → t < row'.nextCheckAt) := by
    intro m row hrow
    by_cases hm : m ∈ ms
    · obtain ⟨r, r', hr, hr', hadvanced⟩ := hxy.advanced m hm
      rw [hr, Option.some.injEq] at hrow
      subst hrow
      obtain ⟨hlater, -⟩ := nextSchedule_spec hadvanced.next hadvanced.due (hrange m hm r hr)
      exact ⟨r', hr', le_of_lt (lt_of_le_of_lt hadvanced.due hlater), fun _ => hlater⟩
    · exact ⟨row, (hxy.others m hm).trans hrow, le_refl _, fun hms => absurd hms hm⟩
  -- where a job comes from that was created since
  have hsource : ∀ j job, Created b y j job → Created b x j job ∨
      (job.monitorId ∈ ms ∧ NewJob t x j job) := by
    rintro j job ⟨hnone, hsome⟩
    rcases hxy.created j job hsome with hold | ⟨hms, hnew, -⟩
    · exact .inl ⟨hnone, hold⟩
    · exact .inr ⟨hms, hnew⟩
  -- one that is new now is later than all that were there
  have hordered : ∀ j job j' job', Created b x j job → NewJob t x j' job' →
      job'.monitorId = job.monitorId → job.scheduledAt < job'.scheduledAt := by
    intro j job j' job' hold hnew hsame
    obtain ⟨row, row', -, hrow', -, hbefore⟩ := h.created j job hold
    obtain ⟨r, hr, hdue, hslot⟩ := hnew.row
    rw [hsame, hrow', Option.some.injEq] at hr
    subst hr
    rw [hslot]
    exact lt_of_lt_of_le hbefore (slotTime_le hdue).1
  constructor
  case absent =>
    intro m hnone
    have hx := h.absent m hnone
    by_cases hm : m ∈ ms
    · obtain ⟨row, -, hrow, -⟩ := hxy.advanced m hm
      rw [hx] at hrow
      cases hrow
    · exact (hxy.others m hm).trans hx
  case later =>
    intro m row hrow
    obtain ⟨row', hrow', hle⟩ := h.later m row hrow
    obtain ⟨row'', hrow'', hle', -⟩ := hmoved m row' hrow'
    exact ⟨row'', hrow'', le_trans hle hle'⟩
  case created =>
    intro j job hj
    rcases hsource j job hj with hold | ⟨hms, hnew⟩
    · obtain ⟨row, row', hrow, hrow', hfrom, hbefore⟩ := h.created j job hold
      obtain ⟨row'', hrow'', hle, -⟩ := hmoved _ row' hrow'
      exact ⟨row, row'', hrow, hrow'', hfrom, lt_of_lt_of_le hbefore hle⟩
    · obtain ⟨row', hrow', hdue, hslot⟩ := hnew.row
      obtain ⟨row'', hrow'', -, hpast⟩ := hmoved _ row' hrow'
      obtain ⟨hfrom, huntil⟩ := slotTime_le hdue
      cases hb : (Monitors b).find job.monitorId with
      | none =>
        rw [h.absent _ hb] at hrow'
        cases hrow'
      | some row =>
      obtain ⟨r, hr, hle⟩ := h.later _ row hb
      rw [hr, Option.some.injEq] at hrow'
      subst hrow'
      rw [hslot]
      exact ⟨row, row'', rfl, hrow'', le_trans hle hfrom, lt_of_le_of_lt huntil (hpast hms)⟩
  case distinct =>
    intro j job j' job' hj hj' hmonitor hslot
    rcases hsource j job hj with hold | ⟨-, hnew⟩
    · rcases hsource j' job' hj' with hold' | ⟨-, hnew'⟩
      · exact h.distinct j job j' job' hold hold' hmonitor hslot
      · exact absurd hslot (ne_of_gt (hordered j job j' job' hold hnew' hmonitor))
    · rcases hsource j' job' hj' with hold' | ⟨-, hnew'⟩
      · exact absurd hslot (ne_of_lt (hordered j' job' j job hold' hnew hmonitor.symm))
      · exact hxy.single j job j' job' hj.2 hnew.absent hj'.2 hnew'.absent hmonitor
  case paired =>
    intro j job hj hb
    rcases hxy.created j job hj with hold | ⟨-, -, hpaired⟩
    · obtain ⟨row, hrow, hpayload⟩ := h.paired j job hold hb
      exact ⟨row, hxy.outbox j row hrow, hpayload⟩
    · exact hpaired

/-- Another worker commits. -/
theorem Onward.attend (h : Onward b x) (hxy : Attend x y) : Onward b y := by
  -- jobs keep their slots
  have hback : ∀ j job, (Jobs y).find j = some job →
      ∃ job₀, (Jobs x).find j = some job₀ ∧ job.slot = job₀.slot ∧
        job.snapshotHash = job₀.snapshotHash ∧ job.expiresAt = job₀.expiresAt := by
    intro j job hj
    rcases hxy.jobs j with hsame | ⟨job₀, job', hold, hnext, hnew⟩
    · exact ⟨job, hsame ▸ hj, rfl, rfl, rfl⟩
    · rw [hnew, Option.some.injEq] at hj
      subst hj
      exact ⟨job₀, hold, hnext.slot, hnext.snapshotHash, hnext.expiresAt⟩
  have hcreated : ∀ j job, Created b y j job → ∃ job₀, Created b x j job₀ ∧
      job.monitorId = job₀.monitorId ∧ job.scheduledAt = job₀.scheduledAt := by
    rintro j job ⟨hnone, hsome⟩
    obtain ⟨job₀, hold, hslot, -⟩ := hback j job hsome
    exact ⟨job₀, ⟨hnone, hold⟩, congrArg Prod.fst hslot, congrArg Prod.snd hslot⟩
  constructor
  case absent =>
    rw [hxy.monitors]
    exact h.absent
  case later =>
    rw [hxy.monitors]
    exact h.later
  case created =>
    intro j job hj
    obtain ⟨job₀, hold, hmonitor, hslot⟩ := hcreated j job hj
    rw [hxy.monitors, hmonitor, hslot]
    exact h.created j job₀ hold
  case distinct =>
    intro j job j' job' hj hj' hmonitor hslot
    obtain ⟨job₀, hold, hmonitor₀, hslot₀⟩ := hcreated j job hj
    obtain ⟨job₁, hold', hmonitor₁, hslot₁⟩ := hcreated j' job' hj'
    refine h.distinct j job₀ j' job₁ hold hold' ?_ ?_
    · rw [← hmonitor₁, hmonitor, hmonitor₀]
    · rw [← hslot₁, hslot, hslot₀]
  case paired =>
    intro j job hj hb
    obtain ⟨job₀, hold, -, hhash, hexpires⟩ := hback j job hj
    obtain ⟨row, hrow, hrowhash, hrowexpires⟩ := h.paired j job₀ hold hb
    rcases hxy.outbox j with hsame | ⟨row₀, row', hrow₀, hpayload, hnew⟩
    · exact ⟨row, hsame.trans hrow, hrowhash.trans hhash.symm, hrowexpires.trans hexpires.symm⟩
    · rw [hrow, Option.some.injEq] at hrow₀
      subst hrow₀
      refine ⟨row', hnew, ?_, ?_⟩
      · rw [hpayload, hrowhash, hhash]
      · rw [hpayload, hrowexpires, hexpires]

theorem Onward.step {p q : (Database × World) × List Unit} (hstep : AbsStep inTime p q)
    (h : Onward b p.1.1) : Onward b q.1.1 := by
  cases hstep with
  | spawn => exact h
  | move _ hmove =>
  rcases hmove with ⟨o, ms, htime, hscope, hadvance⟩ | hattend | hedited
  · refine h.advance (fun m hm row hrow => ?_) hadvance
    exact htime m row ((hscope m).mpr hm) hrow
  · exact h.attend hattend
  · exact hedited.elim

/-! ## Runs -/

/-- Every `ScheduleDue` at work finds the monitors it has taken in time. -/
def SchedulersInTime (s : System) (tags : List Bool) : Prop :=
  ∀ (i : Nat) (p : Process Database Key Env Call) (o : Open Database Key Env),
    s.procs[i]? = some p → tags[i]? = some true → ¬ p.Over → p.session = .active o →
    InTime o s.db

theorem kept_of_inTime {s : System} {tags : List Bool} (hapart : s.Apart)
    (h : SchedulersInTime s tags) : s.Kept inTimeTerms tags where
  fair := by
    intro i p scheduler hp ht hover
    cases scheduler with
    | false => trivial
    | true => exact fun o ho => h i p o hp ht hover ho
  apart := by
    intro i j p q scheduler scheduler' hp hq _ _ hij _ _ κ
    cases scheduler <;> cases scheduler' <;> exact hapart i j p q hp hq hij κ

/-- The jobs that `ScheduleDue` creates for a monitor come in the order of their
slots: one that is created later has a later slot, and no two that are created
have the same. Each has its row in the outbox, and if there was no job without
one there is none. A `ScheduleDue` that is about to commit moves the monitors it
has taken to the future, in step with where they were. -/
theorem scheduler_progress {P : Primitives} {db : Database} {w : World} {s s' : System}
    {tags tags' : List Bool}
    (hrun : TaggedSteps remote (Working P) SchedulersInTime (Sys.quiet db w, []) (s, tags))
    (hrun' : TaggedSteps remote (Working P) SchedulersInTime (s, tags) (s', tags')) :
    (∀ j job j' job', Created db s.db j job → Created s.db s'.db j' job' →
      job'.monitorId = job.monitorId → job.scheduledAt < job'.scheduledAt) ∧
    (∀ j job j' job', Created db s.db j job → Created db s.db j' job' →
      job'.monitorId = job.monitorId → job'.scheduledAt = job.scheduledAt → j' = j) ∧
    (∀ j job, Created db s.db j job → Paired s.db j job) ∧
    ((∀ j job, (Jobs db).find j = some job → Paired db j job) →
      ∀ j job, (Jobs s.db).find j = some job → Paired s.db j job) ∧
    ∀ (i : Nat) (k : Except Fault Unit → Prog Unit) (o : Open Database Key Env) (m : Uuid),
      s.procs[i]? = some ⟨.commit k, .active o⟩ → tags[i]? = some true →
      Key.monitor m ∈ o.locks → ∃ row row', (Monitors s.db).find m = some row ∧
        (Monitors (o.write s.db)).find m = some row' ∧
        (∃ n : Int, row'.nextCheckAt = row.nextCheckAt + n * (row.intervalSeconds * second)) ∧
        o.begun.now < row'.nextCheckAt := by
  have hF : ∀ (t : Bool) (p : Prog Unit), Working P t p → ∀ i x, inTime.good x →
      inTime.Honours (inTimeTerms t) remote i Done p .idle inTime.init x :=
    fun t p hp i x _ => working_inTime hp
  obtain ⟨hkept, hapart⟩ := TaggedSteps.mono (Sys.apart_quiet db w) hrun
    fun _ _ hapart h => kept_of_inTime hapart h
  obtain ⟨hkept', -⟩ := TaggedSteps.mono hapart hrun' fun _ _ hapart h => kept_of_inTime hapart h
  obtain ⟨as, has, hsince⟩ := kept_invariant hF (fun x => Onward db x.1.1)
    (fun hstep _ h => h.step hstep) (s := (Sys.quiet db w, []))
    (honoured_quiet (x := (db, w)) trivial) (Onward.refl db) hkept
  obtain ⟨as', -, hsince'⟩ := kept_invariant hF (fun x => Onward s.db x.1.1)
    (fun hstep _ h => h.step hstep) has (Onward.refl s.db) hkept'
  refine ⟨?_, hsince.distinct, ?_, ?_, ?_⟩
  · intro j job j' job' hj hj' hmonitor
    obtain ⟨-, row, -, hrow, -, hbefore⟩ := hsince.created j job hj
    obtain ⟨row', -, hrow', -, hfrom, -⟩ := hsince'.created j' job' hj'
    have hsame : row' = row := by
      rw [hmonitor] at hrow'
      exact Option.some.inj (hrow'.symm.trans hrow)
    rw [hsame] at hfrom
    exact lt_of_lt_of_le hbefore hfrom
  · rintro j job ⟨hnone, hsome⟩
    refine hsince.paired j job hsome fun job₀ hold => ?_
    rw [hnone] at hold
    cases hold
  · intro hdb j job hj
    exact hsince.paired j job hj fun job₀ => hdb j job₀
  · intro i k o m hp ht hm
    obtain ⟨htime, ms, hscope, hadvance⟩ : (inTimeTerms true).vow o s.db := has.vows hp ht
    have hms := (hscope m).mp hm
    obtain ⟨row, row', hrow, hrow', hadvanced⟩ := hadvance.advanced m hms
    obtain ⟨hlater, -, -, hnext⟩ := nextSchedule_spec hadvanced.next hadvanced.due
      (htime m row hm hrow)
    exact ⟨row, row', hrow, hrow', ⟨_, hnext⟩, hlater⟩

namespace Sample

instance (scheduled now seconds : Int) : Decidable (InRange scheduled now seconds) :=
  inferInstanceAs (Decidable (_ < _))

/-- All monitors are in time for every transaction that is open. -/
def punctual (s : System) (_ : List Bool) : Bool :=
  s.procs.all fun p => match p.session with
    | .active o => s.db.core.monitors.rows.all fun e =>
      decide (InRange e.2.nextCheckAt o.begun.now e.2.intervalSeconds)
    | _ => true

theorem punctual_inTime (s : System) (tags : List Bool) (h : punctual s tags = true) :
    SchedulersInTime s tags := by
  intro i p o hp _ _ ho m row _ hrow
  have hproc := List.all_eq_true.mp h p (List.mem_of_getElem? hp)
  rw [ho] at hproc
  have hmonitor := List.all_eq_true.mp hproc (m, row) (Table.mem_rows.mpr hrow)
  exact of_decide_eq_true hmonitor

/-- A second `ScheduleDue`, when the first job is over, as far as its commit. -/
def again : List (Act Database Key Env Call × List Bool) :=
  inTurn ++ (scheduler, [true]) :: marked (steps 2 (moment 301 15 21) 11)

theorem again_tagged : ∀ a ∈ again, Act.Tagged (Working primitives) a := by
  simp only [again, List.forall_mem_append, List.forall_mem_cons]
  exact ⟨inTurn_tagged, ⟨true, .scheduleDue _ _, rfl⟩, steps_tagged _ _ _ _⟩

def committing : List (Act Database Key Env Call × List Bool) :=
  marked (steps 2 (moment 301 15 21) 1)

/-- The monitors of the jobs `11` and `15`. -/
def twoJobs (x : System × List Bool) : Option Uuid × Option Uuid :=
  (((Jobs x.1.db).find 11).map CheckJob.monitorId, ((Jobs x.1.db).find 15).map CheckJob.monitorId)

end Sample

/-- The second job of a monitor, just before it is committed and after. -/
theorem scheduler_progress_sample : ∃ s s' tags tags' job job',
    TaggedSteps remote (Working Sample.primitives) SchedulersInTime (Sample.beginning, [])
      (s, tags) ∧
    TaggedSteps remote (Working Sample.primitives) SchedulersInTime (s, tags) (s', tags') ∧
    Created Sample.beginning.db s.db 11 job ∧ Created s.db s'.db 15 job' ∧
    job'.monitorId = job.monitorId ∧ job.scheduledAt < job'.scheduledAt := by
  have hend : (Sys.runTagged remote Sample.punctual (Sample.beginning, [])
      (Sample.again ++ Sample.committing)).map Sample.twoJobs = some (some 1, some 1) := by
    decide +kernel
  have hmid : (Sys.runTagged remote Sample.punctual (Sample.beginning, [])
      Sample.again).map Sample.twoJobs = some (some 1, none) := by
    decide +kernel
  obtain ⟨⟨s', tags'⟩, hs', hjobs'⟩ := Option.map_eq_some_iff.mp hend
  rw [Sys.runTagged_append] at hs'
  obtain ⟨⟨s, tags⟩, hs, hcommit⟩ := Option.bind_eq_some_iff.mp hs'
  rw [hs, Option.map_some, Option.some.injEq] at hmid
  simp only [Sample.twoJobs, Prod.mk.injEq, Option.map_eq_some_iff,
    Option.map_eq_none_iff] at hmid hjobs'
  obtain ⟨⟨job, hjob, hmonitor⟩, hnone⟩ := hmid
  obtain ⟨-, job', hjob', hmonitor'⟩ := hjobs'
  have hrun : TaggedSteps remote (Working Sample.primitives) SchedulersInTime
      (Sample.beginning, []) (s, tags) :=
    Sys.runTagged_steps Sample.punctual_inTime Sample.again_tagged hs
  have hrun' : TaggedSteps remote (Working Sample.primitives) SchedulersInTime
      (s, tags) (s', tags') :=
    Sys.runTagged_steps Sample.punctual_inTime (Sample.steps_tagged _ _ _ _) hcommit
  have hsame : job'.monitorId = job.monitorId := hmonitor'.trans hmonitor.symm
  exact ⟨s, s', tags, tags', job, job', hrun, hrun', ⟨rfl, hjob⟩, ⟨hnone, hjob'⟩, hsame,
    (scheduler_progress hrun hrun').1 11 job 15 job' ⟨rfl, hjob⟩ ⟨hnone, hjob'⟩ hsame⟩

/-! ## A monitor that is 292 years late -/

namespace Sample

/-- The due monitor is taken after so many seconds that the time that has passed
is still less than `2 ^ 63` nanoseconds, and the next slot is not. -/
def overdue : List (Act Database Key Env Call × List Bool) :=
  (scheduler, [true]) :: marked (steps 0 (moment 9223372080 15 21) 11)

theorem overdue_tagged : ∀ a ∈ overdue, Act.Tagged (Working primitives) a := by
  simp only [overdue, List.forall_mem_cons]
  exact ⟨⟨true, .scheduleDue _ _, rfl⟩, steps_tagged _ _ _ _⟩

/-- What the first call is about to commit for the monitor. -/
def moving (x : System × List Bool) : Option (Option Bool × Time × Time × Time × Int) :=
  match (x.1.procs[0]? : Option (Process Database Key Env Call)) with
  | some ⟨.commit _, .active o⟩ =>
    if Key.monitor 1 ∈ o.locks then
      ((Monitors x.1.db).find 1).bind fun row =>
        ((Monitors (o.write x.1.db)).find 1).map fun row' =>
          (x.2[0]?, o.begun.now, row.nextCheckAt, row'.nextCheckAt, row.intervalSeconds)
    else none
  | _ => none

end Sample

open Sample

/-- Its next check is computed to be 292 years before the beginning of time, and
not in step with the one before. -/
theorem next_check_behind : ∃ (s : System) (tags : List Bool)
    (k : Except Fault Unit → Prog Unit) (o : Open Database Key Env) (row row' : Monitor),
    TaggedSteps remote (Working primitives) (fun _ _ => True) (beginning, []) (s, tags) ∧
    s.procs[0]? = some ⟨.commit k, .active o⟩ ∧ tags[0]? = some true ∧
    Key.monitor 1 ∈ o.locks ∧ (Monitors s.db).find 1 = some row ∧
    (Monitors (o.write s.db)).find 1 = some row' ∧ row'.nextCheckAt < o.begun.now ∧
    ∀ n : Int, row'.nextCheckAt ≠ row.nextCheckAt + n * (row.intervalSeconds * second) := by
  have hmoving : (Sys.runTagged remote (fun _ _ => true) (beginning, [])
      overdue).bind moving = some (some true, 9223372080 * second, 60 * second,
        -9223371873709551616, 60) := by decide +kernel
  obtain ⟨⟨s, tags⟩, hs, hmoving⟩ := Option.bind_eq_some_iff.mp hmoving
  have hrun : TaggedSteps remote (Working primitives) (fun _ _ => True) (beginning, []) (s, tags) :=
    Sys.runTagged_steps (fun _ _ _ => trivial) overdue_tagged hs
  unfold moving at hmoving
  split at hmoving
  next k o hproc =>
    split at hmoving
    next hlock =>
      obtain ⟨row, hrow, hmoving⟩ := Option.bind_eq_some_iff.mp hmoving
      obtain ⟨row', hrow', hvalues⟩ := Option.map_eq_some_iff.mp hmoving
      simp only [Prod.mk.injEq] at hvalues
      obtain ⟨htag, hnow, hbefore, hafter, hinterval⟩ := hvalues
      refine ⟨s, tags, k, o, row, row', hrun, hproc, htag, hlock, hrow, hrow', ?_, ?_⟩
      · rw [hnow, hafter]
        decide
      · intro n
        rw [hbefore, hafter, hinterval]
        show (-9223371873709551616 : Int) ≠ 60 * 1000000000 + n * (60 * 1000000000)
        omega
    · cases hmoving
  · cases hmoving

end WatchTrace.Proofs
