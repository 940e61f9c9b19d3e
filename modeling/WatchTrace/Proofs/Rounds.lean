import WatchTrace.Proofs.Admission
import WatchTrace.Proofs.Turns

/-!
# `ScheduleDue` among other calls

The rows a `ScheduleDue` has taken are locked, and everybody else leaves them
alone: the workers, which move jobs on and never touch a monitor, and whoever
edits a monitor and has to lock it for that. So the draft of the transaction
stays right while others commit, statement by statement, and what it commits
is an `Advance`.

What can be said of the monitors it takes depends on the run. `Ready` is what
may be assumed of a transaction and the rows it finds, in every state it passes
through; `Edited` is what else may be committed.
-/

namespace WatchTrace.Proofs

open Tx Model Protocol

/-! ## What the calls commit -/

abbrev SamePayload (row row' : Dispatch) : Prop := row'.payload = row.payload

/-- What a worker commits that attends to jobs. -/
structure Attend (x y : Database) : Prop where
  monitors : Monitors y = Monitors x
  periods : y.core.periods = x.core.periods
  jobs : Evolves Jobs Succeeds x y
  outbox : Evolves Outbox SamePayload x y

theorem Spared.refl (L : Key → Prop) (x : Database) : Spared L x x :=
  ⟨fun _ _ => rfl, fun _ _ => rfl, fun _ _ => rfl, fun _ _ => rfl⟩

section Protocol

variable (Ready : Open Database Key Env → Database → Prop)
variable (Edited : Database → Database → Prop)

/-- One commit: of a `ScheduleDue` that found things as they should be, of a
worker, or of whoever else there is. -/
def Worked (x y : Database) : Prop :=
  (∃ o ms, Ready o x ∧ (∀ m, Key.monitor m ∈ o.locks ↔ m ∈ ms) ∧
    Advance o.begun.now ms x y) ∨ Attend x y ∨ Edited x y

/-- Locked rows stand still. -/
def turnProtocol : Protocol Database Key World Unit where
  init := ()
  move := fun _ _ x _ y => Worked Ready Edited x.1 y.1
  rely := fun L x y => Spared L x.1 y.1
  good := fun _ => True
  rely_refl := fun _ _ => .refl _ _
  rely_trans := fun h h' =>
    ⟨fun m hm => (h'.monitor m hm).trans (h.monitor m hm),
      fun m hm => (h'.periods m hm).trans (h.periods m hm),
      fun j hj => (h'.job j hj).trans (h.job j hj),
      fun j hj => (h'.dispatch j hj).trans (h.dispatch j hj)⟩
  rely_anti := fun hL h =>
    ⟨fun m hm => h.monitor m (hL _ hm), fun m hm => h.periods m (hL _ hm),
      fun j hj => h.job j (hL _ hj), fun j hj => h.dispatch j (hL _ hj)⟩
  good_rely := fun _ _ => trivial

/-- The terms of a `ScheduleDue`: it owns what it has locked, finds things as they
should be, and vows to move on the monitors it has taken. -/
def turnTerms : Terms Database Key Env Key where
  own := fun ses κ => κ ∈ ses.locks
  fair := fun ses db => ∀ o, ses = .active o → Ready o db
  vow := fun o db => Ready o db ∧ ∃ ms, (∀ m, Key.monitor m ∈ o.locks ↔ m ∈ ms) ∧
    Advance o.begun.now ms db (o.write db)

theorem turn_worldly (T : Terms Database Key Env Key) : (turnProtocol Ready Edited).Worldly T :=
  fun _ _ _ _ _ => ⟨.inr (.inl ⟨rfl, rfl, .refl _, .refl _⟩), fun _ _ => .refl _ _⟩

end Protocol

/-! ## The workers -/

/-- The statements of a worker that attends to jobs. -/
def Attends {β : Type} (q : Stmt β) : Prop :=
  WritesDerived q ∧ RevisesJobs q ∧ RevisesOutbox q

structure Attending (o : Open Database Key Env) (x : Database) : Prop where
  monitors : ∀ db, Monitors (o.write db) = Monitors db
  periods : ∀ db, (o.write db).core.periods = db.core.periods
  jobs : Revising Jobs Key.job Succeeds o x
  outbox : Revising Outbox Key.dispatch SamePayload o x

theorem Succeeds.trans {job job' job'' : CheckJob} (h : Succeeds job job')
    (h' : Succeeds job' job'') : Succeeds job job'' :=
  ⟨h'.jobType.trans h.jobType, h'.slot.trans h.slot, h'.snapshotHash.trans h.snapshotHash,
    h'.expiresAt.trans h.expiresAt, fun ha => h.active (h'.active ha)⟩

theorem Attends.upholds {β : Type} {q : Stmt β} (hq : Attends q) :
    Upholds Attending q := by
  intro o x env busy e h he
  obtain ⟨hderived, hjobs, houtbox⟩ := hq
  refine ⟨fun db => ?_, fun db => ?_, ?_, ?_⟩
  · exact (hderived _ _ _ _ _ he (o.write db)).monitors.trans (h.monitors db)
  · exact (hderived _ _ _ _ _ he (o.write db)).periods.trans (h.periods db)
  · exact h.jobs.extend (fun _ _ _ => Succeeds.trans) hjobs he
  · exact h.outbox.extend (fun _ _ _ h h' => h'.trans h) houtbox he

variable {Ready : Open Database Key Env → Database → Prop}
variable {Edited : Database → Database → Prop}

theorem attending_safe : (turnProtocol Ready Edited).Safe lockTerms Attending where
  fresh := fun env x => ⟨fun _ => rfl, fun _ => rfl, .fresh env x, .fresh env x⟩
  lasting := fun o x y h hxy _ =>
    ⟨h.monitors, h.periods, h.jobs.later hxy.job, h.outbox.later hxy.dispatch⟩
  commits := by
    intro o x i a h
    refine ⟨trivial, (), .inr (.inl ⟨h.monitors x.1, h.periods x.1, h.jobs.evolves,
      h.outbox.evolves⟩), ?_⟩
    intro L hL
    refine ⟨fun m _ => ?_, fun m _ => ?_, fun j hj => ?_, fun j hj => ?_⟩
    · rw [h.monitors]
    · rw [periodsOf, h.periods]
      rfl
    · exact h.jobs.isLocal.locked (hL _ hj)
    · exact h.outbox.isLocal.locked (hL _ hj)

/-! ## `ScheduleDue` -/

variable {key : String}

variable {next : Time} {ids : List Uuid}

section Turn

variable {P : Primitives} {i : Nat} {o : Open Database Key Env} {x : Database × World}
variable {t : Time} {g : Agenda} {α β : Type}

/-- A draft of a transaction that finds things as they should be. -/
structure Underway (Ready : Open Database Key Env → Database → Prop) (t : Time)
    (g : Agenda) (o : Open Database Key Env) (x : Database) : Prop
    extends Drafting t g o x where
  ready : Ready o x

theorem drafting_lasting (t : Time) (g : Agenda) :
    (turnProtocol Ready Edited).Lasting (turnTerms Ready) (Drafting t g) :=
  fun _ _ _ h hxy _ => h.later hxy

theorem underway_lasting (t : Time) (g : Agenda) :
    (turnProtocol Ready Edited).Lasting (turnTerms Ready) (Underway Ready t g) :=
  fun o _ _ h hxy hfair => ⟨h.toDrafting.later hxy, hfair o rfl⟩

/-- One statement of the transaction. -/
theorem underway_query (t : Time) {Q : α → Session Database Key Env → Unit → Database × World → Prop}
    {q : Stmt β} {k : Except Fault β → Prog α}
    (hok : ∀ env busy e, q o.begun env busy (o.write x.1) = some e →
      ∃ g', Drafting t g' (o.extend e) x.1 ∧
        ∀ y : Database × World, Underway Ready t g' (o.extend e) y.1 →
          (turnProtocol Ready Edited).Honours (turnTerms Ready) remote i Q (k (.ok e.value))
            (.active (o.extend e)) () y)
    (herr : ∀ f y,
      (turnProtocol Ready Edited).Honours (turnTerms Ready) remote i Q (k (.error f)) .failed () y) :
    (turnProtocol Ready Edited).Honours (turnTerms Ready) remote i Q (query q >>= k) (.active o) () x := by
  refine lasting_query id (fun env busy e he => ?_) herr
  obtain ⟨g', hdraft, hk⟩ := hok env busy e he
  exact ⟨Drafting t g', drafting_lasting t g', hdraft, fun y hy hfair => hk y ⟨hy, hfair _ rfl⟩⟩

/-- One that has nothing to do with the turns. -/
theorem incidental_query {Q : α → Session Database Key Env → Unit → Database × World → Prop}
    {q : Stmt β} {k : Except Fault β → Prog α} (hq : Incidental q)
    (h : Underway Ready t g o x.1)
    (hok : ∀ env busy e, q o.begun env busy (o.write x.1) = some e →
      ∀ y : Database × World, Underway Ready t g (o.extend e) y.1 →
        (turnProtocol Ready Edited).Honours (turnTerms Ready) remote i Q (k (.ok e.value))
          (.active (o.extend e)) () y)
    (herr : ∀ f y,
      (turnProtocol Ready Edited).Honours (turnTerms Ready) remote i Q (k (.error f)) .failed () y) :
    (turnProtocol Ready Edited).Honours (turnTerms Ready) remote i Q (query q >>= k) (.active o) () x :=
  underway_query t (fun env busy e he => ⟨g, h.toDrafting.incidental hq he, hok env busy e he⟩) herr

/-- How a turn may end: with an error, or with the next monitor. -/
def Took (Ready : Open Database Key Env → Database → Prop) (t : Time) (g : Agenda) (m : DueMonitor) (rest : List DueMonitor)
    (r : Except Failure Bool) (ses : Session Database Key Env) (_ : Unit)
    (y : Database × World) : Prop :=
  ∀ created, r = .ok created → ∃ o, ses = .active o ∧
    Underway Ready t { g with rest := rest, done := m.id :: g.done } o y.1

/-- A monitor whose turn has come. -/
structure Called (t : Time) (g : Agenda) (m : DueMonitor) (rest : List DueMonitor) :
    Prop where
  first : g.rest = m :: rest
  turn : g.turn = []
  bare : g.bare = []
  last : ∀ m' ∈ rest, m'.id ≠ m.id
  due : m.monitor.nextCheckAt ≤ t
  running : m.monitor.pausedAt = none ∧ m.monitor.deletedAt = none

variable {m : DueMonitor} {rest : List DueMonitor}

/-- The last statement of a turn. -/
theorem updateMonitorNextCheck_took (turn : List Uuid) {created : Bool} (hm : Called t g m rest)
    (hturn : ∀ m' ∈ turn, m' = m.id)
    (hnext : nextSchedule m.monitor.nextCheckAt t m.monitor.intervalSeconds = some next)
    (h : Underway Ready t { g with turn := turn } o x.1) :
    (turnProtocol Ready Edited).Honours (turnTerms Ready) remote i (Took Ready t g m rest)
      (do
        let .ok () ← query (updateMonitorNextCheck m.id next m.monitor.nextCheckAt)
          | return .error .database
        return .ok created)
      (.active o) () x := by
  refine underway_query t (fun env busy e he => ?_) fun _ _ => nofun
  refine ⟨_, h.toDrafting.movedOn hm.first hturn hm.last hm.due hm.running hnext he, ?_⟩
  intro y hy c hc
  cases hc
  have hg : { g with turn := [], rest := rest, done := m.id :: g.done } =
      { g with rest := rest, done := m.id :: g.done } := by
    rw [← hm.turn]
  exact ⟨_, rfl, hg ▸ hy⟩

theorem recordAdmissionLimit_took (hm : Called t g m rest)
    (hnext : nextSchedule m.monitor.nextCheckAt t m.monitor.intervalSeconds = some next)
    (h : Underway Ready t g o x.1) :
    (turnProtocol Ready Edited).Honours (turnTerms Ready) remote i (Took Ready t g m rest)
      (recordAdmissionLimit m next) (.active o) () x := by
  refine incidental_query (insertMonitoringCoverageGap_incidental _ _ _) h ?_ fun _ _ => nofun
  intro env busy e he x h
  -- The event may be lost; the statement after it then fails.
  refine incidental_query (insertMonitoringOperationalEvent_incidental _ _ _ _) h ?_
    fun _ _ _ _ _ => nofun
  intro env busy e he x h
  exact updateMonitorNextCheck_took g.turn hm (by simp [hm.turn]) hnext h

theorem recordMissed_slot (h : Underway Ready t g o x.1) :
    (turnProtocol Ready Edited).Honours (turnTerms Ready) remote i
      (fun r ses _ y => ∀ at_, r = .ok at_ → at_ = slotTime m.monitor t ∧
        ∃ o, ses = .active o ∧ Underway Ready t g o y.1)
      (recordMissed m t) (.active o) () x := by
  unfold recordMissed slotTime
  split
  · refine incidental_query (insertMonitoringCoverageGap_incidental _ _ _) h ?_ fun _ _ => nofun
    intro env busy e he x h at_ hat
    cases hat
    exact ⟨rfl, _, rfl, h⟩
  · intro at_ hat
    cases hat
    exact ⟨rfl, o, rfl, h⟩

/-- The job and its row in the outbox, or neither. -/
theorem insertScheduled_turn {jobId : Uuid} {payload : DispatchPayload} (hm : Called t g m rest)
    (hexpires : payload.expiresAt = slotTime m.monitor t + jobStartWindow)
    (h : Underway Ready t g o x.1) :
    (turnProtocol Ready Edited).Honours (turnTerms Ready) remote i
      (fun r ses _ y => ∀ created, r = .ok created → ∃ turn o, ses = .active o ∧
        (∀ m' ∈ turn, m' = m.id) ∧ Underway Ready t { g with turn := turn } o y.1)
      (insertScheduled jobId (m.row (slotTime m.monitor t) payload.snapshotHash) payload)
      (.active o) () x := by
  have hwaits : m ∈ g.rest := hm.first ▸ List.mem_cons_self
  refine underway_query t (fun env busy e he => ?_) fun _ _ => nofun
  rcases h.toDrafting.inserted hwaits hm.turn hm.bare hm.due he with
    ⟨hvalue, hsame⟩ | ⟨hvalue, hnew⟩
  · refine ⟨g, hsame, fun y hy => ?_⟩
    rw [hvalue]
    intro created hcreated
    cases hcreated
    exact ⟨g.turn, _, rfl, by simp [hm.turn], hy⟩
  · refine ⟨_, hnew, fun y hy => ?_⟩
    rw [hvalue]
    refine underway_query t (fun env busy e he => ?_) fun _ _ => nofun
    refine ⟨_, hy.toDrafting.dispatched rfl rfl hexpires he, fun y hy => ?_⟩
    intro created hcreated
    cases hcreated
    have hg : { g with turn := [m.id], bare := [] } = { g with turn := [m.id] } := by
      rw [← hm.bare]
    exact ⟨[m.id], _, rfl, fun m' hm' => List.mem_singleton.mp hm', hg ▸ hy⟩

theorem scheduleMonitor_took {outstanding : Nat} (hm : Called t g m rest)
    (h : Underway Ready t g o x.1) :
    (turnProtocol Ready Edited).Honours (turnTerms Ready) remote i (Took Ready t g m rest)
      (scheduleMonitor P key t outstanding m) (.active o) () x := by
  unfold scheduleMonitor
  split
  next next hnext =>
    split
    · exact recordAdmissionLimit_took hm hnext h
    split
    · exact nofun
    split
    · refine incidental_query newJobId_incidental h ?_ fun _ _ => nofun
      intro env busy e he x h
      refine honours_bind (recordMissed_slot h) fun r ses _ x hr => ?_
      cases r with
      | error f => exact nofun
      | ok scheduledAt =>
      obtain ⟨rfl, o, rfl, h⟩ := hr scheduledAt rfl
      dsimp only
      split
      · refine honours_bind (lasting_outside (turn_worldly Ready Edited _)
          (underway_lasting t g) (sealedPayload_outside _ _) h) fun sealed ses _ x hr => ?_
        obtain ⟨hexpires, rfl, h⟩ := hr
        cases sealed with
        | none => exact nofun
        | some payload =>
        refine honours_bind (insertScheduled_turn hm (hexpires payload rfl) h)
          fun r ses _ x hr => ?_
        cases r with
        | error failure => exact nofun
        | ok created =>
        obtain ⟨turn, o, rfl, hturn, h⟩ := hr created rfl
        exact updateMonitorNextCheck_took turn hm hturn hnext h
      · exact nofun
    · exact nofun
  · exact nofun

/-- The list of those that wait. -/
structure Queue (t : Time) (ids done : List Uuid) (due : List DueMonitor) : Prop where
  nodup : (due.map DueMonitor.id).Nodup
  ready : ∀ m ∈ due, m.monitor.nextCheckAt ≤ t ∧ m.monitor.pausedAt = none ∧
    m.monitor.deletedAt = none
  covers : ∀ m ∈ ids, m ∈ done ∨ ∃ d ∈ due, d.id = m

/-- The loop: everybody has a turn, or there is an error. -/
theorem scheduleMonitors_took :
    ∀ {due : List DueMonitor} {done : List Uuid} {outstanding created : Nat}
      {o : Open Database Key Env} {x : Database × World}, Queue t ids done due →
      Underway Ready t { ids := ids, done := done, rest := due } o x.1 →
      (turnProtocol Ready Edited).Honours (turnTerms Ready) remote i
        (fun r ses _ y => ∀ n, r = .ok n → ∃ done o, ses = .active o ∧
          Underway Ready t { ids := ids, done := done } o y.1 ∧ ∀ m ∈ ids, m ∈ done)
        (scheduleMonitors P key t outstanding created due) (.active o) () x := by
  intro due
  induction due with
  | nil =>
    intro done outstanding created o x hq h n hn
    refine ⟨done, o, rfl, h, fun m hm => ?_⟩
    rcases hq.covers m hm with hdone | ⟨d, hd, -⟩
    · exact hdone
    · cases hd
  | cons m rest ih =>
    intro done outstanding created o x hq h
    have hnodup := hq.nodup
    rw [List.map_cons, List.nodup_cons] at hnodup
    obtain ⟨hdue, hrunning⟩ := hq.ready m List.mem_cons_self
    have hm : Called t { ids := ids, done := done, rest := m :: rest } m rest := by
      refine ⟨rfl, rfl, rfl, fun m' hm' hsame => hnodup.1 ?_, hdue, hrunning⟩
      exact hsame ▸ List.mem_map_of_mem hm'
    have hqueue : Queue t ids (m.id :: done) rest := by
      refine ⟨hnodup.2, fun m' hm' => hq.ready m' (List.mem_cons_of_mem _ hm'), ?_⟩
      intro m' hm'
      rcases hq.covers m' hm' with hdone | ⟨d, hd, rfl⟩
      · exact .inl (List.mem_cons_of_mem _ hdone)
      · rcases List.mem_cons.mp hd with rfl | hd
        · exact .inl List.mem_cons_self
        · exact .inr ⟨d, hd, rfl⟩
    refine honours_bind (scheduleMonitor_took hm h) fun r ses _ x hr => ?_
    cases r with
    | error failure => exact nofun
    | ok inserted =>
    obtain ⟨o, rfl, h⟩ := hr inserted rfl
    cases inserted with
    | true | false => exact ih hqueue h

/-- A transaction that is through may commit. -/
theorem Underway.commits {done : List Uuid}
    (h : Underway Ready t { ids := ids, done := done } o x.1) (hall : ∀ m ∈ ids, m ∈ done) :
    (turnTerms Ready).vow o x.1 ∧ (turnProtocol Ready Edited).Takes (turnTerms Ready) i
      (.active o) () x () (o.write x.1, x.2) := by
  have hadvance : Advance o.begun.now ids x.1 (o.write x.1) := by
    rw [h.begun]
    exact h.toDrafting.advance hall rfl
  refine ⟨⟨h.ready, ids, h.scope, hadvance⟩, .inl ⟨o, ids, h.ready, h.scope, hadvance⟩, ?_⟩
  intro L hL
  refine ⟨fun m hm => h.monitors.locked (hL _ hm), fun m _ => ?_,
    fun j hj => h.jobs.locked (hL _ hj), fun j hj => h.outbox.locked (hL _ hj)⟩
  rw [periodsOf, h.periods]
  rfl

theorem scheduleDue_turns {batch : Nat} :
    (turnProtocol Ready Edited).Honours (turnTerms Ready) remote i Done
      (scheduleDue P key batch) .idle () x := by
  unfold scheduleDue
  split
  · trivial
  refine honours_start (fun begun y _ hfair => ?_) fun _ _ _ => trivial
  have hstart : Underway Ready begun.now {} (.fresh begun) y.1 :=
    ⟨.fresh begun y.1, hfair _ rfl⟩
  refine incidental_query countActiveScheduledJobs_incidental hstart ?_ fun _ _ => trivial
  intro env busy e he y h
  refine incidental_query getDatabaseTime_incidental h ?_ fun _ _ => trivial
  intro env busy e' he' y h
  have hnow : e'.value = begun.now := by
    cases he'
    rfl
  rw [hnow]
  refine underway_query begun.now (fun env busy due hdue => ?_) fun _ _ => trivial
  obtain ⟨hlisted, hnodup, hready⟩ := h.toDrafting.listed hdue
  refine ⟨_, hlisted, fun y h => ?_⟩
  have hqueue : Queue begun.now (due.value.map DueMonitor.id) [] due.value := by
    refine ⟨hnodup, hready, fun m hm => .inr ?_⟩
    exact List.mem_map.mp hm
  refine honours_bind (scheduleMonitors_took hqueue h) fun r ses _ z hr => ?_
  cases r with
  | error failure => trivial
  | ok n =>
  obtain ⟨done, o, rfl, h, hall⟩ := hr n rfl
  obtain ⟨hvow, htakes⟩ := h.commits (i := i) (x := z) hall
  refine honours_commit hvow ⟨(), htakes, fun r y _ _ => ?_⟩ fun _ _ _ => trivial
  cases r <;> trivial

/-- A worker that schedules nothing. -/
theorem working_attends {p : Prog Unit} (hp : Working P false p) :
    (turnProtocol Ready Edited).Honours lockTerms remote i Done p .idle () x := by
  rcases working_cases hp with ⟨hscheduler, -⟩ | ⟨-, hwithin⟩
  · cases hscheduler
  · have hattends : p.Within Attends :=
      (hwithin _ consumes_derived publishes_derived maintains_derived).and
        (hwithin _ consumes_work publishes_work maintains_work)
    exact honours_upheld (fun _ => id) (turn_worldly _ _ _) attending_safe
      (hattends.mono fun h => h.upholds) fun _ ho => by cases ho

end Turn

end WatchTrace.Proofs
