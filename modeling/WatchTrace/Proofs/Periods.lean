import WatchTrace.Arith.Timeline
import WatchTrace.Model.Monitor
import WatchTrace.Proofs.Outbox
import WatchTrace.Tx.Terms

/-!
# The periods of a monitor

Every change of a monitor closes the period that is open and, if the monitor
is then to be checked, opens another, both at the time its transaction began.
The row of the monitor is locked first, so the changes come one after the
other and a change sees all that was done before it. What the lock does not
settle is the time. A transaction that began early and came late to the lock
writes a time that lies in the past of what it finds.

So everything here is said of runs in which whoever owns the row began no
earlier than anything the periods have on record. In those the periods stay a
timeline, one period is open exactly while the monitor is to be checked, and
no constraint of `monitor_schedule_periods` is ever violated.
-/

namespace WatchTrace.Proofs

open Tx Arith Model Protocol

-- the order that can be computed
local instance (priority := high) timeOrder : Preorder Time := Int.instLinearOrder.toPreorder

/-- When a period was in force. -/
def spanOf (p : SchedulePeriod) : Span Time := ⟨p.startsAt, p.endsAt⟩

/-- The history of a monitor. -/
def timeline (c : Core) (m : Uuid) : List (Span Time) :=
  (c.periods.filter fun p => p.monitorId == m).map spanOf

/-- The monitor is neither paused nor deleted. -/
def running (c : Core) (m : Uuid) : Bool :=
  (c.monitors.find m).any fun monitor => monitor.pausedAt.isNone && monitor.deletedAt.isNone

/-- What the periods of a monitor ought to be: rows that satisfy their
constraints, in order, and one of them open exactly if the monitor is to be
checked. -/
structure Timetable (m : Uuid) (c : Core) : Prop where
  checked : ∀ p ∈ c.periods, p.monitorId = m → p.admissible = true
  order : Timeline (timeline c m)
  current : (c.periods.filter fun p => p.isOpen m).length = if running c m then 1 else 0

/-! ## One statement -/

section Statements

variable {m : Uuid} {now : Time} {c : Core} {p : SchedulePeriod}

theorem closed_monitorId : (p.closed m now).monitorId = p.monitorId := by
  unfold SchedulePeriod.closed
  split <;> rfl

theorem closed_not_open : (p.closed m now).isOpen m = false := by
  unfold SchedulePeriod.closed
  split
  · simp [SchedulePeriod.isOpen]
  · next h => simpa using h

theorem spanOf_closed (h : p.monitorId = m) :
    spanOf (p.closed m now) = (spanOf p).closed now := by
  unfold SchedulePeriod.closed SchedulePeriod.isOpen Span.closed spanOf
  cases hends : p.endsAt with
  | none => simp [h]
  | some e => simp [hends]

/-- Closing, on the history. -/
theorem timeline_close : timeline { c with
    periods := c.periods.map (SchedulePeriod.closed m now) } m =
    (timeline c m).map (Span.closed now) := by
  unfold timeline
  dsimp only
  rw [List.filter_map, List.map_map, List.map_map]
  have hsame : (fun p : SchedulePeriod => p.monitorId == m) ∘
      SchedulePeriod.closed m now = fun p => p.monitorId == m := by
    funext p
    simp only [Function.comp_apply, closed_monitorId]
  rw [hsame]
  refine List.map_congr_left fun p hp => ?_
  have hid : p.monitorId = m := by simpa using (List.mem_filter.mp hp).2
  exact spanOf_closed hid

/-- A period that is closed no earlier than it started satisfies its
constraints. -/
theorem closed_admissible (hp : p.admissible = true) (hnow : p.startsAt ≤ now) :
    (p.closed m now).admissible = true := by
  unfold SchedulePeriod.closed
  split
  · simp only [SchedulePeriod.admissible, Bool.and_eq_true, decide_eq_true_eq] at hp ⊢
    exact ⟨hp.1, hnow⟩
  · exact hp

theorem settled_starts (h : Settled now (timeline c m)) (hp : p ∈ c.periods)
    (hid : p.monitorId = m) : p.startsAt ≤ now := by
  refine (h (spanOf p) (List.mem_map_of_mem ?_)).1
  exact List.mem_filter.mpr ⟨hp, by simpa using hid⟩

/-- What is found open, closed. -/
theorem close_answers (hchecked : ∀ p ∈ c.periods, p.monitorId = m → p.admissible = true)
    (h : Settled now (timeline c m)) :
    (c.periods.filter fun p => p.isOpen m).all
      (fun p => (p.closed m now).admissible) = true := by
  rw [List.all_eq_true]
  intro p hp
  obtain ⟨hmem, hopen⟩ := List.mem_filter.mp hp
  have hid : p.monitorId = m := by
    simp only [SchedulePeriod.isOpen, Bool.and_eq_true, beq_iff_eq] at hopen
    exact hopen.1
  exact closed_admissible (hchecked p hmem hid) (settled_starts h hmem hid)

theorem slotOffset_nonneg (hash : Uuid → Nat) (id : Uuid) {seconds : Int}
    (h : allowedIntervals.contains seconds = true) : 0 ≤ slotOffset hash id seconds := by
  have hpos : 0 < seconds := by
    simp only [allowedIntervals, List.contains_eq_mem, List.mem_cons, List.not_mem_nil,
      or_false, decide_eq_true_eq] at h
    omega
  exact Int.mul_nonneg (Int.emod_nonneg _ (by omega)) (by decide)

end Statements

/-! ## One change -/

section Changes

variable {m : Uuid} {now : Time} {c c' : Core} {p : SchedulePeriod}

theorem filter_closed :
    (c.periods.map (SchedulePeriod.closed m now)).filter (fun p => p.isOpen m) = [] := by
  rw [List.filter_eq_nil_iff]
  intro p' hp'
  obtain ⟨p, -, rfl⟩ := List.mem_map.mp hp'
  rw [closed_not_open]
  exact Bool.false_ne_true

theorem checked_closed (h : Timetable m c) (hnow : Settled now (timeline c m)) :
    ∀ p ∈ c.periods.map (SchedulePeriod.closed m now), p.monitorId = m →
      p.admissible = true := by
  intro p' hp' hid
  obtain ⟨p, hp, rfl⟩ := List.mem_map.mp hp'
  rw [closed_monitorId] at hid
  exact closed_admissible (h.checked p hp hid) (settled_starts hnow hp hid)

/-- The monitor is not to be checked any more. -/
theorem Timetable.stop (h : Timetable m c) (hnow : Settled now (timeline c m))
    (hperiods : c'.periods = c.periods.map (SchedulePeriod.closed m now))
    (hoff : running c' m = false) : Timetable m c' where
  checked := by
    rw [hperiods]
    exact checked_closed h hnow
  order := by
    have hline : timeline c' m = (timeline c m).map (Span.closed now) := by
      rw [← timeline_close]
      unfold timeline
      rw [hperiods]
    rw [hline]
    exact h.order.close hnow
  current := by
    rw [hperiods, filter_closed, hoff]
    rfl

/-- The monitor is checked from now on. -/
theorem Timetable.restart (h : Timetable m c) (hnow : Settled now (timeline c m))
    (hperiods : c'.periods = c.periods.map (SchedulePeriod.closed m now) ++ [p])
    (hid : p.monitorId = m) (hstart : p.startsAt = now) (hends : p.endsAt = none)
    (hp : p.admissible = true) (hon : running c' m = true) : Timetable m c' where
  checked := by
    intro q hq hqid
    rw [hperiods] at hq
    rcases List.mem_append.mp hq with hq | hq
    · exact checked_closed h hnow q hq hqid
    · rw [List.mem_singleton] at hq
      rw [hq]
      exact hp
  order := by
    have hline : timeline c' m = (timeline c m).map (Span.closed now) ++ [⟨now, none⟩] := by
      rw [← timeline_close]
      unfold timeline
      rw [hperiods, List.filter_append, List.map_append]
      simp [hid, spanOf, hstart, hends]
    rw [hline]
    exact (h.order.close hnow).extend (Timeline.over_of_closed hnow)
  current := by
    have hopen : p.isOpen m = true := by simp [SchedulePeriod.isOpen, hid, hends]
    rw [hperiods, List.filter_append, filter_closed, hon]
    simp [hopen]

end Changes

/-! ## The protocol of the row lock -/

/-- The statements that write periods of the monitor. -/
inductive PeriodWrite (m : Uuid) : {β : Type} → Stmt β → Prop
  | close : PeriodWrite m (closeMonitorSchedulePeriod m)
  | opening : PeriodWrite m (openMonitorSchedulePeriod m)

variable {β : Type} {q : Stmt β}

theorem PeriodWrite.subsingleton {m : Uuid} (h : PeriodWrite m q) : Subsingleton β := by
  cases h <;> infer_instance

/-- Whoever owns the row of the monitor began no earlier than anything its
periods have on record; then the periods can be written. -/
def periodTerms (m : Uuid) : Terms Database Key Env Key :=
  { lockTerms with
    fair := fun ses db => ∀ o, ses = .active o → .monitor m ∈ o.locks →
      Settled o.begun.now (timeline db.core m)
    must := fun q => PeriodWrite m q }

/-- The owner of the row is alone with the database. -/
def periodProtocol (m : Uuid) : Protocol Database Key World Unit where
  init := ()
  move := fun _ _ _ _ _ => True
  rely := fun L x y => (L (.monitor m) → y = x) ∧ (Timetable m x.1.core → Timetable m y.1.core)
  good := fun x => Timetable m x.1.core
  rely_refl := fun _ _ => ⟨fun _ => rfl, id⟩
  rely_trans := fun h h' => ⟨fun hL => (h'.1 hL).trans (h.1 hL), fun hx => h'.2 (h.2 hx)⟩
  rely_anti := fun hL h => ⟨fun hκ => h.1 (hL _ hκ), h.2⟩
  good_rely := fun h => h.2

variable {α : Type} {env : Env} {db : Database} {row : Monitor}
variable {organizationId environmentId userId : Uuid} {updated : Monitor}

variable {begun : Env} {busy : Key → Bool} {e : Effect Database Key α} {monitor : Monitor}
variable {reopen paused : Bool}

section Calls

variable {m : Uuid} {i : Nat} {o : Open Database Key Env} {x : Database × World}

theorem later_owned {Q : Database × World → Prop} (hlock : Key.monitor m ∈ o.locks)
    (h : Settled o.begun.now (timeline x.1.core m) → Q x) :
    (periodProtocol m).Later (periodTerms m) (.active o) Q x := by
  intro y hy hfair
  obtain rfl : y = x := hy.1 hlock
  exact h (hfair o rfl hlock)

/-- A statement of the owner that is never refused. -/
theorem honours_owned {k : Except Fault β → Prog α}
    {Q : α → Session Database Key Env → Unit → Database × World → Prop}
    (hlock : Key.monitor m ∈ o.locks)
    (hmust : PeriodWrite m q → ∀ env busy, q o.begun env busy (o.write x.1) ≠ none)
    (hok : ∀ env busy e, q o.begun env busy (o.write x.1) = some e →
      Settled o.begun.now (timeline x.1.core m) →
      (periodProtocol m).Honours (periodTerms m) remote i Q (k (.ok e.value))
        (.active (o.extend e)) () x)
    (herr : ∀ f y, (periodProtocol m).Honours (periodTerms m) remote i Q (k (.error f))
      .failed () y) :
    (periodProtocol m).Honours (periodTerms m) remote i Q (query q >>= k)
      (.active o) () x := by
  refine honours_query hmust ?_ fun f y _ _ => herr f y
  intro env busy e he
  have hlock' : Key.monitor m ∈ (o.extend e).locks := List.mem_append_right _ hlock
  exact later_owned hlock' (hok env busy e he)

theorem close_some {e : Effect Database Key Unit}
    (h : closeMonitorSchedulePeriod m begun env busy db = some e) (db' : Database) :
    e.write db' = { db' with core := { db'.core with
      periods := db'.core.periods.map (SchedulePeriod.closed m begun.now) } } := by
  obtain ⟨e', he', -, -, hwrite⟩ := onCore_some h
  dsimp only at he'
  split at he'
  · cases he'
    exact hwrite db'
  · cases he'

/-- The period a change of the monitor opens. -/
def periodFrom (m : Uuid) (row : Monitor) (now : Time) : SchedulePeriod :=
  { organizationId := row.organizationId, environmentId := row.environmentId
    monitorId := m, intervalSeconds := row.intervalSeconds, startsAt := now
    firstSlotAt := row.nextCheckAt, endsAt := none }

theorem periodFrom_admissible {now : Time}
    (hinterval : allowedIntervals.contains row.intervalSeconds = true)
    (hnext : now ≤ row.nextCheckAt) : (periodFrom m row now).admissible = true := by
  simp only [SchedulePeriod.admissible, periodFrom, Bool.and_eq_true]
  exact ⟨⟨hinterval, decide_eq_true hnext⟩, trivial⟩

theorem open_of (begun env : Env) (busy : Key → Bool) (hrow : db.core.monitors.find m = some row)
    (hinterval : allowedIntervals.contains row.intervalSeconds = true)
    (hnext : begun.now ≤ row.nextCheckAt)
    (hfree : db.core.periods.filter (fun p => p.isOpen m) = []) :
    ∃ e, openMonitorSchedulePeriod m begun env busy db = some e ∧
      ∀ db', e.write db' = { db' with core := { db'.core with
        periods := db'.core.periods ++ [periodFrom m row begun.now] } } := by
  have hnone : (db.core.periods.any fun p => p.isOpen m) = false := by
    rw [List.any_eq_false]
    intro p hp hopen
    have hmem : p ∈ db.core.periods.filter fun p => p.isOpen m :=
      List.mem_filter.mpr ⟨hp, hopen⟩
    rw [hfree] at hmem
    cases hmem
  have hadm := periodFrom_admissible (m := m) hinterval hnext
  refine ⟨_, onCore_of (e := ⟨(), fun c => { c with
    periods := c.periods ++ [periodFrom m row begun.now] }, [.openPeriod m]⟩) ?_,
    fun _ => rfl⟩
  simp only [hrow, hnone]
  exact if_pos (by rw [Bool.and_eq_true]; exact ⟨hadm, rfl⟩)

/-- The last two steps of every change. -/
theorem announce_keeps (hlock : Key.monitor m ∈ o.locks) (h : Timetable m (o.write x.1).core) :
    (periodProtocol m).Honours (periodTerms m) remote i Done (do
      let .ok () ← query (insertMonitorRefreshEvent organizationId environmentId
        "monitor.changed" "monitor" m) | return .error Failure.database
      let .ok () ← commit | return .error Failure.database
      return .ok () : Prog (Except Failure Unit)) (.active o) () x := by
  refine honours_owned hlock ?_ ?_ fun _ _ => trivial
  · intro _ env busy hnone
    cases hnone
  · intro env busy e he _
    have hcore : ((o.extend e).write x.1).core = (o.write x.1).core := by
      unfold insertMonitorRefreshEvent insertRefreshEvent at he
      obtain ⟨e', -, -, -, hwrite⟩ := onJournal_some he
      show (e.write (o.write x.1)).core = _
      rw [hwrite]
    have hlock' : Key.monitor m ∈ (o.extend e).locks := List.mem_append_right _ hlock
    refine honours_commit trivial
      ⟨(), ⟨trivial, fun L hL => ⟨fun hκ => ?_, fun _ => ?_⟩⟩, fun r y _ _ => ?_⟩
      fun _ _ _ => trivial
    · exact absurd hlock' (hL _ hκ)
    · show Timetable m ((o.extend e).write x.1).core
      rw [hcore]
      exact h
    · cases r <;> trivial

theorem reschedule_keeps (hlock : Key.monitor m ∈ o.locks) (h : Timetable m x.1.core)
    (hnow : Settled o.begun.now (timeline x.1.core m))
    (hview : (o.write x.1).core = { x.1.core with monitors := x.1.core.monitors.put m row })
    (hon : (row.pausedAt.isNone && row.deletedAt.isNone) = reopen)
    (hnext : reopen = true → allowedIntervals.contains row.intervalSeconds = true ∧
      o.begun.now ≤ row.nextCheckAt) :
    (periodProtocol m).Honours (periodTerms m) remote i Done
      (MonitorService.reschedule monitor m reopen) (.active o) () x := by
  have hrow : (o.write x.1).core.monitors.find m = some row := by
    rw [hview]
    exact Table.find_put _ _ _
  refine honours_owned hlock ?_ ?_ fun _ _ => trivial
  · intro _ env busy hnone
    have hall := close_answers h.checked hnow
    have hsome : (closeMonitorSchedulePeriod m o.begun env busy (o.write x.1)).isSome := by
      unfold closeMonitorSchedulePeriod onCore Stmt.zoom
      rw [Option.isSome_map, hview]
      dsimp only
      rw [if_pos hall]
      rfl
    rw [hnone] at hsome
    cases hsome
  · intro env busy e he _
    have hlock' : Key.monitor m ∈ (o.extend e).locks := List.mem_append_right _ hlock
    have hclosed : ((o.extend e).write x.1).core = { (o.write x.1).core with
        periods := x.1.core.periods.map (SchedulePeriod.closed m o.begun.now) } := by
      show (e.write (o.write x.1)).core = _
      rw [close_some he, hview]
    have hrow' : ((o.extend e).write x.1).core.monitors.find m = some row := by
      rw [hclosed]
      exact hrow
    have hfree : ((o.extend e).write x.1).core.periods.filter (fun p => p.isOpen m) = [] := by
      rw [hclosed]
      exact filter_closed
    cases reopen with
    | false =>
      refine announce_keeps hlock' (h.stop hnow (by rw [hclosed]) ?_)
      simp only [running, hrow', Option.any_some, hon]
    | true =>
    obtain ⟨hinterval, hafter⟩ := hnext rfl
    refine honours_owned hlock' ?_ ?_ fun _ _ => trivial
    · intro _ env' busy' hnone
      obtain ⟨e', he', -⟩ := open_of o.begun env' busy' hrow' hinterval hafter hfree
      rw [show (o.extend e).begun = o.begun from rfl, he'] at hnone
      cases hnone
    · intro env' busy' e' he' _
      obtain ⟨e'', he'', hwrite⟩ :=
        open_of o.begun env' busy' hrow' hinterval hafter hfree
      rw [show (o.extend e).begun = o.begun from rfl, he''] at he'
      cases he'
      have hopened : (((o.extend e).extend e').write x.1).core =
          { ((o.extend e).write x.1).core with
            periods := x.1.core.periods.map (SchedulePeriod.closed m o.begun.now) ++
              [periodFrom m row o.begun.now] } := by
        show (e'.write ((o.extend e).write x.1)).core = _
        rw [hwrite, hclosed]
      refine announce_keeps (List.mem_append_right _ hlock')
        (h.restart hnow (by rw [hopened]) rfl rfl rfl ?_ ?_)
      · exact periodFrom_admissible hinterval hafter
      · simp only [running, hopened, hrow', Option.any_some, hon]

/-- What a change knows once it owns the row. -/
structure Managed (m : Uuid) (row : Monitor) (o : Open Database Key Env)
    (x : Database × World) : Prop where
  locked : .monitor m ∈ o.locks
  fresh : o.write = id
  row : x.1.core.monitors.find m = some row
  table : Timetable m x.1.core
  settled : Settled o.begun.now (timeline x.1.core m)

/-- Owning the row, and reading it. -/
theorem lockManagedMonitor_some {e : Effect Database Key (Option (Monitor × Role))}
    (h : lockManagedMonitor userId environmentId m begun env busy db = some e) :
    e.write = id ∧ ∀ row role, e.value = some (row, role) →
      .monitor m ∈ e.locks ∧ db.core.monitors.find m = some row ∧ row.deletedAt = none := by
  obtain ⟨e', he', hvalue, hlocks, hwrite⟩ := onCore_some h
  -- every branch but one answers nothing and does nothing
  have hnothing : e' = { value := none } → e.write = id ∧ ∀ row role, e.value = some (row, role) →
        .monitor m ∈ e.locks ∧ db.core.monitors.find m = some row ∧ row.deletedAt = none := by
    rintro rfl
    refine ⟨funext hwrite, fun row role hrow => ?_⟩
    rw [hvalue] at hrow
    cases hrow
  cases hfind : db.core.monitors.find m with
  | none =>
    simp only [hfind, Option.some.injEq] at he'
    exact hfind ▸ hnothing he'.symm
  | some monitor =>
  simp only [hfind] at he'
  split at he'
  · cases he'
    exact hfind ▸ hnothing rfl
  split at he'
  · next hhere =>
    cases he'
    refine ⟨funext hwrite, fun row role hrow => ?_⟩
    rw [hvalue] at hrow
    cases hrow
    rw [hlocks]
    exact ⟨List.mem_cons_self, rfl, hhere.2⟩
  · cases he'
    exact hfind ▸ hnothing rfl

theorem lockManagedMonitor_answers (begun env : Env) (busy : Key → Bool) (db : Database) :
    lockManagedMonitor userId environmentId m begun env busy db ≠ none := by
  unfold lockManagedMonitor onCore Stmt.zoom
  rw [ne_eq, Option.map_eq_none_iff]
  dsimp only
  repeat' split
  all_goals exact Option.some_ne_none _

/-- Owning the row, under any protocol. -/
theorem lockManaged_honours {P : Protocol Database Key World Unit}
    {T : Terms Database Key Env Key} {Held : Open Database Key Env → Database × World → Prop}
    (hlock : ∀ (e : Effect Database Key (Option (Monitor × Role))) (row : Monitor),
      e.write = id → Key.monitor m ∈ e.locks → x.1.core.monitors.find m = some row →
      P.Later T (.active ((Open.fresh env).extend e)) (Held ((Open.fresh env).extend e)) x) :
    P.Honours T remote i (fun r ses _ y => ∀ row, r = .ok row → ∃ o, ses = .active o ∧ Held o y)
      (lockManaged userId environmentId m) (.active (.fresh env)) () x := by
  refine honours_query (fun _ _ _ => lockManagedMonitor_answers _ _ _ _) ?_
    fun f y _ _ row hrow => by cases hrow
  intro env' busy e he y hy hfair
  obtain ⟨hwrite, hfound⟩ := lockManagedMonitor_some he
  cases hvalue : e.value with
  | none =>
    intro row hrow
    cases hrow
  | some found =>
  obtain ⟨row, role⟩ := found
  obtain ⟨hlocks, hfind, -⟩ := hfound row role hvalue
  dsimp only
  cases allows role .monitorsManage with
  | false =>
    intro row hrow
    cases hrow
  | true =>
  intro _ _
  exact ⟨_, rfl, hlock e row hwrite hlocks hfind y hy hfair⟩

/-- What the owner of the row makes of it. -/
structure Rewritten (m : Uuid) (row : Monitor) (e : Effect Database Key α) : Prop where
  write : ∀ db, e.write db = { db with core := { db.core with
    monitors := db.core.monitors.put m row } }
  interval : allowedIntervals.contains row.intervalSeconds = true

theorem rewritten_of_put {c : Core} {value : α} {e' : Effect Core Key α}
    (h : putMonitor c m row value = some e')
    (hwrite : ∀ db, e.write db = { db with core := e'.write db.core }) :
    e'.value = value ∧ Rewritten m row e := by
  unfold putMonitor at h
  split at h
  · next hadm =>
    cases h
    refine ⟨rfl, hwrite, ?_⟩
    simp only [Monitor.admissible, Bool.and_eq_true] at hadm
    exact hadm.1.1.1.1.1.1.2
  · cases h

section Statements

variable {hash : Uuid → Nat} {begun env : Env} {busy : Key → Bool} {db : Database}

theorem updateManagedMonitor_some {config : Configuration}
    {e : Effect Database Key (Option Monitor)}
    (h : updateManagedMonitor hash organizationId environmentId m config begun env busy db =
      some e) (hvalue : e.value = some updated) :
    Rewritten m updated e ∧ updated.deletedAt = none ∧
      (updated.pausedAt = none → begun.now ≤ updated.nextCheckAt) := by
  obtain ⟨e', he', hval, -, hwrite⟩ := onCore_some h
  rw [hval] at hvalue
  split at he'
  · cases he'
    cases hvalue
  split at he'
  · next hhere =>
    obtain ⟨hput, hrewritten⟩ := rewritten_of_put he' hwrite
    rw [hput] at hvalue
    cases hvalue
    refine ⟨hrewritten, hhere.2.2, fun hpaused => ?_⟩
    have hoffset := slotOffset_nonneg hash m hrewritten.interval
    dsimp only at hpaused hoffset ⊢
    rw [if_pos hpaused]
    exact Int.le_add_of_nonneg_right hoffset
  · cases he'
    cases hvalue

theorem setManagedMonitorPaused_some {e : Effect Database Key (Option Monitor)}
    (h : setManagedMonitorPaused hash paused organizationId environmentId m begun env busy
      db = some e) (hvalue : e.value = some updated) :
    Rewritten m updated e ∧ updated.deletedAt = none ∧ updated.pausedAt.isNone = !paused ∧
      (paused = false → begun.now ≤ updated.nextCheckAt) ∧
      ∃ old, db.core.monitors.find m = some old ∧
        updated.intervalSeconds = old.intervalSeconds ∧ (paused = false →
          updated.nextCheckAt = begun.now + slotOffset hash m old.intervalSeconds) := by
  obtain ⟨e', he', hval, -, hwrite⟩ := onCore_some h
  rw [hval] at hvalue
  split at he'
  · cases he'
    cases hvalue
  next monitor hfind =>
  split at he'
  · next hhere =>
    obtain ⟨hput, hrewritten⟩ := rewritten_of_put he' hwrite
    rw [hput] at hvalue
    cases hvalue
    refine ⟨hrewritten, hhere.2.2, ?_, ?_, monitor, hfind, rfl, fun h => by rw [h]; rfl⟩
    · cases paused <;> rfl
    · intro hpaused
      subst hpaused
      exact Int.le_add_of_nonneg_right (slotOffset_nonneg hash m hrewritten.interval)
  · cases he'
    cases hvalue

theorem softDeleteMonitor_some {e : Effect Database Key Nat}
    (h : softDeleteMonitor organizationId environmentId m begun env busy db = some e)
    (hvalue : e.value = 1) : ∃ deleted, Rewritten m deleted e ∧ deleted.deletedAt ≠ none := by
  obtain ⟨e', he', hval, -, hwrite⟩ := onCore_some h
  rw [hval] at hvalue
  split at he'
  · cases he'
    cases hvalue
  split at he'
  · exact ⟨_, (rewritten_of_put he' hwrite).2, Option.some_ne_none _⟩
  · cases he'
    cases hvalue

end Statements

/-- A change of the row by its owner, and the periods after it. -/
theorem change_keeps (h : Managed m row o x) (hrewritten : Rewritten m updated e)
    (hon : (updated.pausedAt.isNone && updated.deletedAt.isNone) = reopen)
    (hnext : reopen = true → o.begun.now ≤ updated.nextCheckAt) :
    (periodProtocol m).Honours (periodTerms m) remote i Done
      (MonitorService.reschedule monitor m reopen) (.active (o.extend e)) () x := by
  have hlock : Key.monitor m ∈ (o.extend e).locks := List.mem_append_right _ h.locked
  refine reschedule_keeps hlock h.table h.settled ?_ hon fun hr => ⟨hrewritten.interval, hnext hr⟩
  show (e.write (o.write x.1)).core = _
  rw [h.fresh, hrewritten.write]
  rfl

/-- What a protocol has to say of the statements of a change of a monitor. -/
structure Handles (P : Protocol Database Key World Unit) (T : Terms Database Key Env Key)
    (i : Nat) (m : Uuid) (Held : Open Database Key Env → Database × World → Prop) : Prop where
  lock : ∀ {userId environmentId env x}, P.good x → P.Honours T remote i
    (fun r ses _ y => ∀ row, r = .ok row → ∃ o, ses = .active o ∧ Held o y)
    (lockManaged userId environmentId m) (.active (.fresh env)) () x
  query : ∀ {α β : Type} {q : Stmt β} {k : Except Fault β → Prog α} {o x}, Held o x →
    ¬ Subsingleton β →
    (∀ env busy e, q o.begun env busy (o.write x.1) = some e → ∀ y, Held o y →
      P.Honours T remote i Done (k (.ok e.value)) (.active (o.extend e)) () y) →
    (∀ f y, P.Honours T remote i Done (k (.error f)) .failed () y) →
    P.Honours T remote i Done (Tx.query q >>= k) (.active o) () x
  change : ∀ {β : Type} {e : Effect Database Key β} {o y row monitor reopen}, Held o y →
    Rewritten m row e → (row.pausedAt.isNone && row.deletedAt.isNone) = reopen →
    (reopen = true → o.begun.now ≤ row.nextCheckAt) →
    P.Honours T remote i Done (MonitorService.reschedule monitor m reopen)
      (.active (o.extend e)) () y

theorem not_subsingleton_row (row : Monitor) : ¬ Subsingleton (Option Monitor) := by
  intro h
  cases h.elim none (some row)

theorem periods_handled : Handles (periodProtocol m) (periodTerms m) i m
    (fun o y => ∃ row, Managed m row o y) where
  lock := fun h => lockManaged_honours fun e row hwrite hlocks hfind =>
    have hlock : Key.monitor m ∈ ((Open.fresh _).extend e).locks := List.mem_append_left _ hlocks
    later_owned hlock fun hsettled => ⟨row, hlock, hwrite, hfind, h, hsettled⟩
  query := by
    rintro _ _ q k o x ⟨row, hmanaged⟩ hβ hok herr
    exact honours_owned hmanaged.locked (fun hmust => absurd hmust.subsingleton hβ)
      (fun env busy e he _ => hok env busy e he x ⟨row, hmanaged⟩) herr
  change := by
    rintro _ e o y updated monitor reopen ⟨row, hmanaged⟩ hrewritten hon hnext
    exact change_keeps hmanaged hrewritten hon hnext

section Handled

variable {P : Protocol Database Key World Unit} {T : Terms Database Key Env Key}
variable {Held : Open Database Key Env → Database × World → Prop}
variable (H : Handles P T i m Held) (L : Destination.Library)
variable (encrypt : MonitorService.Encrypt) (hash : Uuid → Nat)

include H

theorem update_handled {input : MonitorService.CreateInput} (h : P.good x) :
    P.Honours T remote i Done
      (MonitorService.update L encrypt hash userId environmentId m input) .idle () x := by
  unfold MonitorService.update
  cases MonitorService.normalizeCreateInput L input with
  | none => trivial
  | some normalized =>
  refine honours_start (fun env y hy _ => ?_) fun _ _ _ => trivial
  refine honours_bind (H.lock (P.good_rely hy h)) fun r ses _ z hr => ?_
  cases r with
  | error failure => trivial
  | ok row =>
  obtain ⟨o, rfl, hheld⟩ := hr row rfl
  dsimp only
  cases MonitorService.encryptHeaders encrypt normalized.headers with
  | none => trivial
  | some sealed =>
  refine H.query hheld (not_subsingleton_row row) ?_ fun _ _ => trivial
  intro env' busy e he y hy
  cases hvalue : e.value with
  | none => trivial
  | some updated =>
  obtain ⟨hrewritten, halive, hnext⟩ := updateManagedMonitor_some he hvalue
  refine honours_bind (H.change hy hrewritten ?_ fun hr => ?_) fun r _ _ _ _ => ?_
  · rw [halive]
    exact Bool.and_true _
  · exact hnext (Option.isNone_iff_eq_none.mp hr)
  · cases r <;> trivial

theorem setPaused_handled (h : P.good x) : P.Honours T remote i Done
      (MonitorService.setPaused hash userId environmentId m paused) .idle () x := by
  refine honours_start (fun env y hy _ => ?_) fun _ _ _ => trivial
  refine honours_bind (H.lock (P.good_rely hy h)) fun r ses _ z hr => ?_
  cases r with
  | error failure => trivial
  | ok row =>
  obtain ⟨o, rfl, hheld⟩ := hr row rfl
  refine H.query hheld (not_subsingleton_row row) ?_ fun _ _ => trivial
  intro env' busy e he y hy
  cases hvalue : e.value with
  | none => trivial
  | some updated =>
  obtain ⟨hrewritten, halive, hpaused, hnext, -⟩ := setManagedMonitorPaused_some he hvalue
  refine honours_bind (H.change hy hrewritten ?_ fun hr => ?_) fun r _ _ _ _ => ?_
  · rw [halive, hpaused]
    exact Bool.and_true _
  · exact hnext (by simpa using hr)
  · cases r <;> trivial

theorem delete_handled (h : P.good x) : P.Honours T remote i Done
      (MonitorService.delete userId environmentId m) .idle () x := by
  refine honours_start (fun env y hy _ => ?_) fun _ _ _ => trivial
  refine honours_bind (H.lock (P.good_rely hy h)) fun r ses _ z hr => ?_
  cases r with
  | error failure => trivial
  | ok row =>
  obtain ⟨o, rfl, hheld⟩ := hr row rfl
  refine H.query hheld (not_subsingleton Nat) ?_ fun _ _ => trivial
  intro env' busy e he y hy
  dsimp only
  split
  · trivial
  next hone =>
  obtain ⟨deleted, hrewritten, hgone⟩ := softDeleteMonitor_some he (not_not.mp hone)
  refine H.change hy hrewritten ?_ nofun
  cases hdeleted : deleted.deletedAt with
  | none => exact absurd hdeleted hgone
  | some t => exact Bool.and_false _

end Handled

end Calls

/-! ## Every run -/

/-- The calls that change a monitor. -/
inductive Edits (L : Destination.Library) (encrypt : MonitorService.Encrypt)
    (hash : Uuid → Nat) (m : Uuid) : Prog Unit → Prop
  | update (userId environmentId : Uuid) (input : MonitorService.CreateInput) :
      Edits L encrypt hash m (MonitorService.update L encrypt hash userId environmentId m
        input >>= fun _ => pure ())
  | pause (userId environmentId : Uuid) : Edits L encrypt hash m
        (MonitorService.pause hash userId environmentId m >>= fun _ => pure ())
  | resume (userId environmentId : Uuid) : Edits L encrypt hash m
        (MonitorService.resume hash userId environmentId m >>= fun _ => pure ())
  | delete (userId environmentId : Uuid) : Edits L encrypt hash m
        (MonitorService.delete userId environmentId m >>= fun _ => pure ())

section Runs

-- whether an input is acceptable is not to be computed where programs are compared
attribute [local irreducible] MonitorService.normalizeCreateInput

variable {L : Destination.Library} {encrypt : MonitorService.Encrypt} {hash : Uuid → Nat}
variable {m : Uuid}

/-- Every change follows a protocol that handles its statements. -/
theorem Edits.handled {P : Protocol Database Key World Unit} {T : Terms Database Key Env Key}
    {Held : Open Database Key Env → Database × World → Prop} {i : Nat} {p : Prog Unit}
    (hp : Edits L encrypt hash m p) (H : Handles P T i m Held) {x : Database × World}
    (h : P.good x) : P.Honours T remote i Done p .idle () x := by
  cases hp with
  | update userId environmentId input => exact (update_handled H L encrypt hash h).void
  | pause | resume => exact (setPaused_handled H hash h).void
  | delete userId environmentId => exact (delete_handled H h).void

/-- In every run of changes of one monitor in which whoever owns the row began no
earlier than anything on record: its periods are a timeline, one is open exactly
while the monitor is to be checked, and a statement that writes periods is never
refused. -/
theorem periods_wellFormed {db : Database} {w : World} {s : System} (h : Timetable m db.core)
    (hrun : FairSteps (periodTerms m) remote (Edits L encrypt hash m) (.quiet db w) s) :
    Timetable m s.db.core ∧
    (∀ (i : Nat) k o env busy,
      s.procs[i]? = some ⟨.query (closeMonitorSchedulePeriod m) k, .active o⟩ →
      closeMonitorSchedulePeriod m o.begun env busy (o.write s.db) ≠ none) ∧
    (∀ (i : Nat) k o env busy,
      s.procs[i]? = some ⟨.query (openMonitorSchedulePeriod m) k, .active o⟩ →
      openMonitorSchedulePeriod m o.begun env busy (o.write s.db) ≠ none) := by
  obtain ⟨tags, as, hs⟩ := fair_honoured (P := periodProtocol m)
    (T := periodTerms m) rfl (fun _ hp _ _ hx => hp.handled periods_handled hx)
    (x := (db, w)) h hrun
  have htag : ∀ {i : Nat} {p : Process Database Key Env Call}, s.procs[i]? = some p →
      ∃ t, tags[i]? = some t := by
    intro i p hp
    have hi := (List.getElem?_eq_some_iff.mp hp).1
    exact ⟨_, List.getElem?_eq_getElem (hs.tagged ▸ hi)⟩
  refine ⟨hs.good, ?_, ?_⟩
  · intro i k o env busy hp
    obtain ⟨t, ht⟩ := htag hp
    exact hs.answers hp ht .close env busy
  · intro i k o env busy hp
    obtain ⟨t, ht⟩ := htag hp
    exact hs.answers hp ht .opening env busy

end Runs

namespace Sample

/-- The sample monitor, with somebody who may change it. -/
def managed : Core :=
  { core with
    members := Table.empty.put (2, 5) ⟨.owner, false⟩
    periods := [{
      organizationId := 2, environmentId := 3, monitorId := 1, intervalSeconds := 60
      startsAt := 0, firstSlotAt := 60 * second, endsAt := none }] }

theorem timetable_managed : Timetable 1 managed where
  checked := by
    intro p hp _
    rw [List.mem_singleton.mp hp]
    decide
  order := by
    refine ⟨fun s hs e he => ?_, List.pairwise_singleton _ _⟩
    rw [List.mem_singleton.mp hs] at he
    cases he
  current := by decide

def managing : System := Sys.quiet ⟨Ledger.empty, managed, Journal.empty⟩ World.empty

abbrev change (p : Prog (Except Failure Monitor)) : Act Database Key Env Call :=
  .spawn (p >>= fun _ => pure ())

def pausing : Prog (Except Failure Monitor) := MonitorService.pause (fun _ => 0) 5 3 1

def resuming : Prog (Except Failure Monitor) := MonitorService.resume (fun _ => 0) 5 3 1

/-- A resumption that began at second 70 comes to the row after a change that
began at second 80, and takes `n` steps from there. -/
def outOfOrder (other : Prog (Except Failure Monitor)) (n : Nat) : Script :=
  change resuming :: steps 0 (moment 70 11 21) 1 ++ change other ::
    steps 1 (moment 80 12 21) 7 ++ steps 0 (moment 81 13 21) n

/-- No text is a URL. -/
def noUrls : Destination.Library :=
  { parse := fun _ => none, parseAddr := fun _ => none, fold := id
    copies := fun _ _ _ => false }

/-- The changes of the sample monitor. -/
abbrev ManagedEdits : Prog Unit → Prop := Edits noUrls (fun _ => none) (fun _ => 0) 1

theorem outOfOrder_within {other : Prog (Except Failure Monitor)}
    (h : ManagedEdits (other >>= fun _ => pure ())) (n : Nat) :
    ∀ a ∈ outOfOrder other n, a.within ManagedEdits := by
  simp only [outOfOrder, List.forall_mem_append, List.forall_mem_cons]
  exact ⟨⟨⟨.resume 5 3, steps_within _ _ _ _⟩, h, steps_within _ _ _ _⟩, steps_within _ _ _ _⟩

/-- Whoever owns the row began late enough. -/
def inTime (s : System) : Bool :=
  s.procs.all fun p =>
    match p.session with
    | .active o => !decide (Key.monitor 1 ∈ o.locks) ||
        decide (Settled o.begun.now (timeline s.db.core 1))
    | _ => true

theorem fair_of_inTime {s : System} (h : inTime s = true) : s.Fair (periodTerms 1) := by
  intro p hp _ o ho hlock
  have hpass := List.all_eq_true.mp h p hp
  rw [ho] at hpass
  simp only [Bool.or_eq_true, Bool.not_eq_true', decide_eq_true_eq,
    decide_eq_false_iff_not] at hpass
  exact hpass.resolve_left fun hfree => hfree hlock

/-- A pause, and a resumption after it. -/
def inOrder : Script :=
  change pausing :: steps 0 (moment 70 11 21) 7 ++ change resuming :: steps 1 (moment 80 12 21) 8

theorem inOrder_within :
    ∀ a ∈ inOrder, a.within ManagedEdits := by
  simp only [inOrder, List.forall_mem_append, List.forall_mem_cons]
  exact ⟨⟨.pause 5 3, steps_within _ _ _ _⟩, .resume 5 3, steps_within _ _ _ _⟩

end Sample

open Sample

/-- Seventy seconds and on, and eighty seconds and on: in order, all is well. -/
theorem periods_wellFormed_sample : ∃ s, FairSteps (periodTerms 1) remote ManagedEdits managing s ∧
    timeline s.db.core 1 = [⟨0, some (70 * second)⟩, ⟨80 * second, none⟩] ∧
    Timetable 1 s.db.core := by
  have hline : (managing.runThrough remote inTime Sample.inOrder).map
      (fun s => timeline s.db.core 1) =
      some [⟨0, some (70 * second)⟩, ⟨80 * second, none⟩] := by decide +kernel
  obtain ⟨s, hs, hspans⟩ := Option.map_eq_some_iff.mp hline
  have hrun := Sys.runThrough_fair (fun _ => fair_of_inTime) inOrder_within hs
  exact ⟨s, hrun, hspans, (periods_wellFormed timetable_managed hrun).1⟩

/-- Out of order, two periods overlap, or the end of one lies before its start
and the statement is refused. -/
theorem periods_overlap : (∃ s, Steps remote ManagedEdits managing s ∧
      timeline s.db.core 1 = [⟨0, some (80 * second)⟩, ⟨70 * second, none⟩] ∧
      ¬ Timetable 1 s.db.core) ∧
    ∃ (s : System) (k : _) (o : _), Steps remote ManagedEdits managing s ∧
      s.procs[0]? = some ⟨.query (closeMonitorSchedulePeriod 1) k, .active o⟩ ∧
      ∀ env busy, closeMonitorSchedulePeriod 1 o.begun env busy (o.write s.db) = none := by
  constructor
  · have hline : (managing.run remote (outOfOrder pausing 6)).map (fun s => timeline s.db.core 1) =
        some [⟨0, some (80 * second)⟩, ⟨70 * second, none⟩] := by decide +kernel
    obtain ⟨s, hs, hspans⟩ := Option.map_eq_some_iff.mp hline
    refine ⟨s, Sys.run_steps (outOfOrder_within (.pause 5 3) 6) hs, hspans, fun h => ?_⟩
    have hapart := h.order.apart
    rw [hspans, List.pairwise_pair] at hapart
    -- second 75 lies in both
    refine hapart (75 * second) ⟨⟨by decide, fun e he => ?_⟩, by decide, fun e he => ?_⟩
    · cases he
      decide
    · cases he
  · refine ⟨_, _, _, Sys.run_steps (outOfOrder_within (.resume 5 3) 2) rfl, rfl, fun env busy => ?_⟩
    rfl

end WatchTrace.Proofs
