import WatchTrace.Proofs.Phase
import WatchTrace.Tx.Turn

/-!
# Pausing and resuming

A monitor that is resumed gets a first slot that depends on the time of its
resumption and on nothing else. The slots before and after are whole intervals
apart if the resumption itself is a whole number of intervals away from where the
schedule began, and otherwise they are not.
-/

namespace WatchTrace.Proofs.Resumption

open Tx Tx.Prog Model

/-- The slots of a monitor are a whole number of intervals away from `phase`. -/
structure InTime (m : Uuid) (interval : Int) (phase : Int) (c : Core) : Prop where
  monitor : ∀ row, c.monitors.find m = some row → row.intervalSeconds = interval
  periods : ∀ p ∈ c.periods, p.monitorId = m →
    p.intervalSeconds = interval ∧ interval * second ∣ p.firstSlotAt - phase

/-- A call of `Pause` or `Resume`, with the readings of the clock while it runs. -/
structure Switch where
  userId : Uuid
  environmentId : Uuid
  paused : Bool
  env : Nat → Env

def Switch.apply (hash : Uuid → Nat) (m : Uuid) (x : Database × World) (s : Switch) :
    Database × World :=
  ((MonitorService.setPaused hash s.userId s.environmentId m s.paused).solo remote 0 s.env 0
    .idle x.1 x.2).2

variable {hash : Uuid → Nat} {m : Uuid} {interval phase : Int} {c : Core}
variable {db : Database} {userId environmentId : Uuid} {paused : Bool}

theorem InTime.slot (h : InTime m interval phase c) {fromAt toAt slot : Time}
    (hslot : slot ∈ c.expectedSlots m fromAt toAt) : interval * second ∣ slot - phase := by
  simp only [Core.expectedSlots, List.mem_flatMap, List.mem_filter, beq_iff_eq] at hslot
  obtain ⟨p, ⟨hp, hm⟩, hslot⟩ := hslot
  obtain ⟨hinterval, hfirst⟩ := h.periods p hp hm
  simp only [SchedulePeriod.slots, hinterval] at hslot
  split at hslot
  · obtain ⟨k, -, rfl⟩ := List.mem_map.1 (List.mem_filter.1 hslot).1
    have hmove : ∀ first a k step : Int,
        first + a * step + k * step - phase = first - phase + (a + k) * step := by
      intro first a k step
      rw [Int.add_mul]
      omega
    rw [hmove]
    exact Int.dvd_add hfirst (Int.dvd_mul_left _ _)
  · cases hslot

variable {row : Monitor}

theorem InTime.put (h : InTime m interval phase c) (hrow : row.intervalSeconds = interval) :
    InTime m interval phase { c with monitors := c.monitors.put m row } where
  monitor := by
    intro row' hrow'
    rw [Table.find_put, Option.some.injEq] at hrow'
    rw [← hrow', hrow]
  periods := h.periods

theorem InTime.close (h : InTime m interval phase c) (t : Time) :
    InTime m interval phase { c with periods := c.periods.map (SchedulePeriod.closed m t) } where
  monitor := h.monitor
  periods := by
    intro p hp hm
    obtain ⟨p, hp', rfl⟩ := List.mem_map.1 hp
    cases hopen : p.isOpen m with
    | false =>
      simp only [SchedulePeriod.closed, hopen] at hm ⊢
      exact h.periods p hp' hm
    | true =>
      simp only [SchedulePeriod.closed, hopen] at hm ⊢
      exact h.periods p hp' hm

theorem InTime.reopen (h : InTime m interval phase c) {t : Time}
    (hrow : row.intervalSeconds = interval)
    (hnext : interval * second ∣ row.nextCheckAt - phase) :
    InTime m interval phase { c with periods := c.periods ++ [periodFrom m row t] } where
  monitor := h.monitor
  periods := by
    intro p hp hm
    rcases List.mem_append.1 hp with hp | hp
    · exact h.periods p hp hm
    · rw [List.mem_singleton.1 hp]
      exact ⟨hrow, hnext⟩

/-- The end of both branches: the event, and the commit. -/
theorem announce_inTime {o : Open Database Key Env} {updated : Monitor}
    (h : InTime m interval phase db.core) (hview : InTime m interval phase (o.write db).core) :
    Ends remote (fun _ => True) (fun _ _ d => InTime m interval phase d.core) (do
      let .ok () ← query (insertMonitorRefreshEvent updated.organizationId
        updated.environmentId "monitor.changed" "monitor" m) | return .error Failure.database
      let .ok () ← commit | return .error .database
      return .ok () : Prog (Except Failure Unit)) (.active o) db := by
  refine ends_query (fun env _ e he => ?_) fun _ _ _ => h
  unfold insertMonitorRefreshEvent insertRefreshEvent at he
  obtain ⟨e', -, -, -, hwrite⟩ := onJournal_some he
  show InTime m interval phase (e.write (o.write db)).core
  rw [hwrite]
  exact hview

/-- What the last statements of a change leave. -/
theorem reschedule_inTime {o : Open Database Key Env} {updated : Monitor} {reopen : Bool}
    (h : InTime m interval phase db.core) (hview : InTime m interval phase (o.write db).core)
    (hrow : (o.write db).core.monitors.find m = some row)
    (hnext : reopen = true → interval * second ∣ row.nextCheckAt - phase) :
    Ends remote (fun _ => True) (fun _ _ d => InTime m interval phase d.core)
      (MonitorService.reschedule updated m reopen) (.active o) db := by
  have hinterval := hview.monitor row hrow
  refine ends_query (fun env _ e he => ?_) fun _ _ _ => h
  have hclosed : InTime m interval phase ((o.extend e).write db).core := by
    show InTime m interval phase (e.write (o.write db)).core
    rw [close_some he]
    exact hview.close _
  cases reopen with
  | false => exact announce_inTime h hclosed
  | true =>
  refine ends_query (fun env _ e' he' => announce_inTime h ?_) fun _ _ _ => h
  have hrow' : ((o.extend e).write db).core.monitors.find m = some row := by
    show (e.write (o.write db)).core.monitors.find m = some row
    rw [close_some he]
    exact hrow
  obtain ⟨-, hwrite⟩ := open_some he' hrow'
  show InTime m interval phase (e'.write ((o.extend e).write db)).core
  rw [hwrite]
  exact hclosed.reopen hinterval (hnext rfl)

variable {x : Database × World}

/-- What a call leaves. -/
theorem Switch.apply_inTime {s : Switch} (h : InTime m interval phase x.1.core)
    (hready : s.paused = false →
      interval * second ∣ (s.env 0).now + slotOffset hash m interval - phase) :
    InTime m interval phase (s.apply hash m x).1.core := by
  refine solo_leaves (P := fun _ (d : Database) => InTime m interval phase d.core)
    (C := fun _ => True) (fun _ => trivial) ?_ 1 x.2
  refine ends_bind ?_ fun _ _ _ h => h
  show Ends _ _ _ (lockManaged _ _ _ >>= _) _ _
  -- the row, if the caller may have it
  refine ends_bind ?_ fun _ _ _ h => h
  refine ends_query (fun env _ e he => ?_) fun _ _ _ => h
  obtain ⟨hwrite, hfound⟩ := lockManagedMonitor_some he
  cases hvalue : e.value with
  | none => exact h
  | some found =>
  obtain ⟨row, role⟩ := found
  dsimp only
  cases allows role .monitorsManage with
  | false => exact h
  | true =>
  refine ends_query (fun env' _ e' he' => ?_) fun _ _ _ => h
  cases hvalue' : e'.value with
  | none => exact h
  | some updated =>
  obtain ⟨hrewritten, -, -, -, old, hold, hsame, hnext⟩ :=
    setManagedMonitorPaused_some he' hvalue'
  have hview : ((Open.fresh (s.env 0)).extend e).write x.1 = x.1 := congrFun hwrite x.1
  have hput : (((Open.fresh (s.env 0)).extend e).extend e').write x.1 = _ :=
    (congrArg e'.write hview).trans (hrewritten.write x.1)
  rw [hview] at hold
  have hinterval := h.monitor old hold
  have hrow : ((((Open.fresh (s.env 0)).extend e).extend e').write x.1).core.monitors.find m =
      some updated := by
    rw [hput]
    exact Table.find_put _ _ _
  refine ends_bind (reschedule_inTime h ?_ hrow ?_) fun r _ _ hr => ?_
  · rw [hput]
    exact h.put (hsame.trans hinterval)
  · intro hreopen
    have hresumed : s.paused = false := by simpa using hreopen
    rw [hnext hresumed, hinterval]
    exact hready hresumed
  · cases r <;> exact hr

/-- **Pause and resume keep the schedule phase** of a monitor if every resumption
begins a whole number of intervals away from it: then any two slots, before,
between and after the calls, are whole intervals apart. -/
theorem slots_in_phase (hash : Uuid → Nat) (h : InTime m interval phase x.1.core)
    (calls : List Switch) (hready : ∀ s ∈ calls, s.paused = false →
      interval * second ∣ (s.env 0).now + slotOffset hash m interval - phase)
    {a b fromAt toAt fromAt' toAt' : Int}
    (ha : a ∈ (calls.foldl (Switch.apply hash m) x).1.core.expectedSlots m fromAt toAt)
    (hb : b ∈ (calls.foldl (Switch.apply hash m) x).1.core.expectedSlots m fromAt' toAt') :
    interval * second ∣ a - b := by
  have hall : InTime m interval phase (calls.foldl (Switch.apply hash m) x).1.core := by
    induction calls generalizing x with
    | nil => exact h
    | cons s calls ih =>
      obtain ⟨hs, hcalls⟩ := List.forall_mem_cons.1 hready
      exact ih (Switch.apply_inTime h hs) hcalls ha hb
  have := Int.dvd_sub (hall.slot ha) (hall.slot hb)
  rwa [show a - phase - (b - phase) = a - b by omega] at this

open Sample

/-- A call by the one who may change the sample monitor, at a second. -/
def switchAt (paused : Bool) (seconds : Int) : Switch :=
  { userId := 5, environmentId := 3, paused := paused, env := fun _ => moment seconds 11 21 }

def initial : Database × World := (⟨Ledger.empty, managed, Journal.empty⟩, World.empty)

/-- The slots of four minutes after some calls. -/
def slotsAfter (calls : List Switch) : List Time :=
  (calls.foldl (Switch.apply (fun _ => 0) 1) initial).1.core.expectedSlots 1 0 (4 * minute)

theorem inTime_initial : InTime 1 60 0 initial.1.core where
  monitor := by
    intro row hrow
    cases hrow
    rfl
  periods := by
    intro p hp _
    rw [List.mem_singleton.1 hp]
    exact ⟨rfl, by decide⟩

/-- A monitor with a slot at every minute that is resumed half a minute past has a
slot there. -/
theorem resumed_out_of_phase : slotsAfter [switchAt true 70, switchAt false 90] =
        [60 * second, 90 * second, 150 * second, 210 * second] ∧
      ¬ 60 * second ∣ 90 * second - 60 * second := by
  decide +kernel

theorem slots_in_phase_sample :
    slotsAfter [switchAt true 70, switchAt false 180] = [60 * second, 180 * second] ∧
      60 * second ∣ 180 * second - 60 * second := by
  have hslots : slotsAfter [switchAt true 70, switchAt false 180] =
      [60 * second, 180 * second] := by decide +kernel
  have hmem : ∀ a ∈ [60 * second, 180 * second],
      a ∈ slotsAfter [switchAt true 70, switchAt false 180] := by
    rw [hslots]
    exact fun a ha => ha
  exact ⟨hslots, slots_in_phase (fun _ => 0) inTime_initial
    [switchAt true 70, switchAt false 180] (by decide) (hmem _ (by decide)) (hmem _ (by decide))⟩

end WatchTrace.Proofs.Resumption
