import WatchTrace.Proofs.Retention

/-!
# Reports before and after retention

A report counts raw health checks, of whatever age; the rollups are not read.
Retention deletes raw checks after a week, once they are rolled up. So a report
keeps its counts exactly as long as none of the checks it counts is deleted,
which is a question about the state before retention runs.

The expected slots come from the schedule periods, which retention leaves
alone. For one slot, the checks found afterwards are those found before less
the deleted ones, and the observed count tells whether there were any.
-/

namespace WatchTrace.Proofs

open Tx Model

/-! ## The checks of a slot -/

variable {slots : List Time}

section Slot

variable {l l' : Ledger} {m : Uuid} {slot : Time} {gone : HealthCheck → Bool}

/-- The second ledger has the checks of the first but those that are gone. -/
def ChecksLeft (gone : HealthCheck → Bool) (l l' : Ledger) : Prop :=
  ∀ id, l'.checks.find id = (l.checks.find id).filter fun check => !gone check

theorem mem_checksAt {check : HealthCheck} : check ∈ l.checksAt m slot ↔
    ∃ id, l.checks.find id = some check ∧ check.monitorId = m ∧
      check.jobType = .scheduled ∧ check.scheduledAt = slot := by
  simp only [Ledger.checksAt, List.mem_filter, List.mem_map, Bool.and_eq_true, beq_iff_eq]
  constructor
  · rintro ⟨⟨⟨id, check'⟩, hmem, rfl⟩, ⟨hm, hjob⟩, hslot⟩
    exact ⟨id, Table.mem_rows.mp hmem, hm, hjob, hslot⟩
  · rintro ⟨id, hfind, hm, hjob, hslot⟩
    exact ⟨⟨(id, check), Table.mem_rows.mpr hfind, rfl⟩, ⟨hm, hjob⟩, hslot⟩

/-- A query over the checks that are left finds what it found, less what is
gone. -/
theorem ChecksLeft.filter_perm (h : ChecksLeft gone l l') (p : HealthCheck → Bool) :
    ((l'.checks.rows.map Prod.snd).filter p).Perm
      (((l.checks.rows.map Prod.snd).filter p).filter fun check => !gone check) := by
  have hrows := (Table.rows_perm_filter h).map Prod.snd
  have hmap : (l.checks.rows.filter fun e => !gone e.2).map Prod.snd =
      (l.checks.rows.map Prod.snd).filter fun check => !gone check := by
    rw [List.filter_map]
    rfl
  rw [hmap] at hrows
  refine (hrows.filter p).trans (List.Perm.of_eq ?_)
  rw [List.filter_filter, List.filter_filter]
  exact List.filter_congr fun check _ => Bool.and_comm _ _

theorem ChecksLeft.checksAt_perm (h : ChecksLeft gone l l') :
    (l'.checksAt m slot).Perm ((l.checksAt m slot).filter fun check => !gone check) :=
  h.filter_perm _

/-- What a slot contributes does not depend on the order of its checks. -/
theorem ofChecks_perm {as bs : List HealthCheck} (h : as.Perm bs) :
    SlotCounts.ofChecks as = SlotCounts.ofChecks bs := by
  refine SlotCounts.ext ?_ ?_ ?_ ?_
  · exact congrArg (max 1) h.length_eq
  · exact h.length_eq
  · exact h.countP_eq _
  · exact (h.map _).sum_eq

/-- None of the checks at these slots is gone. -/
def Intact (gone : HealthCheck → Bool) (l : Ledger) (m : Uuid) (slots : List Time) :
    Prop :=
  ∀ slot ∈ slots, ∀ check ∈ l.checksAt m slot, gone check = false

theorem ChecksLeft.countSlots_eq (h : ChecksLeft gone l l') (hintact : Intact gone l m slots) :
    l'.countSlots m slots = l.countSlots m slots := by
  refine congrArg List.sum (List.map_congr_left ?_)
  intro slot hslot
  refine (ofChecks_perm h.checksAt_perm).trans (congrArg _ ?_)
  refine List.filter_eq_self.mpr fun check hcheck => ?_
  rw [hintact slot hslot check hcheck]
  rfl

theorem ChecksLeft.observed_le (h : ChecksLeft gone l l') (slots : List Time) :
    (l'.countSlots m slots).observed ≤ (l.countSlots m slots).observed := by
  induction slots with
  | nil => exact Nat.le_refl 0
  | cons slot slots ih =>
    have hone : (l'.checksAt m slot).length ≤ (l.checksAt m slot).length := by
      rw [h.checksAt_perm.length_eq]
      exact List.length_filter_le _ _
    exact Nat.add_le_add hone ih

/-- A report that still observes as much has lost nothing. -/
theorem ChecksLeft.intact (h : ChecksLeft gone l l')
    (heq : (l'.countSlots m slots).observed = (l.countSlots m slots).observed) :
    Intact gone l m slots := by
  induction slots with
  | nil => exact fun slot hslot => absurd hslot List.not_mem_nil
  | cons first slots ih =>
    have hlength : (l'.checksAt m first).length =
        ((l.checksAt m first).filter fun check => !gone check).length :=
      h.checksAt_perm.length_eq
    have hfirst := List.length_filter_le (fun check => !gone check) (l.checksAt m first)
    have hrest := h.observed_le (m := m) slots
    have hsplit : ∀ l : Ledger, (l.countSlots m (first :: slots)).observed =
        (l.checksAt m first).length + (l.countSlots m slots).observed := fun _ => rfl
    rw [hsplit, hsplit] at heq
    have hall : ((l.checksAt m first).filter fun check => !gone check).length =
        (l.checksAt m first).length := by omega
    intro slot hslot check hcheck
    rcases List.mem_cons.mp hslot with rfl | hslot
    · have := List.length_filter_eq_length_iff.mp hall check hcheck
      simpa using this
    · exact ih (by omega) slot hslot check hcheck

end Slot

/-! ## `MonitorReport`, alone -/

section Alone

variable (i n : Nat) (env : Nat → Env) (w : World)

/-- The window of a query is settled before the database is looked at. -/
theorem normalizeQuery_exec (q : PageQuery) (maxWindow : Time) : ∃ window n', ∀ db,
    (normalizeQuery q maxWindow).exec remote i env ⟨n, .idle, db, w⟩ =
      (window, ⟨n', .idle, db, w⟩) := by
  unfold normalizeQuery
  dsimp only
  generalize (if q.limit = 0 then 50 else q.limit) = limit
  split
  · exact ⟨_, n, fun db => rfl⟩
  -- whichever bounds are read off the clock, what follows is one test
  cases q.fromAt with
  | none =>
    cases q.toAt with
    | none =>
      exact ⟨_, n + 2, fun db => congrArg (Prog.exec remote i env · _) (apply_ite pure _ _ _).symm⟩
    | some toAt =>
      exact ⟨_, n + 1, fun db => congrArg (Prog.exec remote i env · _) (apply_ite pure _ _ _).symm⟩
  | some fromAt =>
  cases q.toAt with
  | none =>
    exact ⟨_, n + 1, fun db => congrArg (Prog.exec remote i env · _) (apply_ite pure _ _ _).symm⟩
  | some toAt =>
    exact ⟨_, n, fun db => congrArg (Prog.exec remote i env · _) (apply_ite pure _ _ _).symm⟩

/-- The answer of `authorizeMonitor`. -/
def authorization (c : Core) (userId environmentId m : Uuid) : Except Failure Uuid :=
  match c.monitorAccess userId environmentId m with
  | none => .error errResourceNotFound
  | some (organizationId, role) =>
    if allows role .monitorsRead then .ok organizationId else .error errPermissionDenied

theorem authorizeMonitor_exec {o : Open Database Key Env} {db : Database}
    (userId environmentId m : Uuid) : ∃ o',
    (authorizeMonitor userId environmentId m).exec remote i env ⟨n, .active o, db, w⟩ =
      (authorization (o.write db).core userId environmentId m,
        ⟨n + 1, .active o', db, w⟩) := by
  obtain ⟨e, he, hvalue⟩ : ∃ e, authorizeBackendMonitor userId environmentId m o.begun
      (env n) (fun _ => false) (o.write db) = some e ∧ authorization (o.write db).core
        userId environmentId m = match e.value with
          | none => .error errResourceNotFound
          | some (organizationId, role) =>
            if allows role .monitorsRead then .ok organizationId
            else .error errPermissionDenied := ⟨_, rfl, rfl⟩
  refine ⟨o.extend e, ?_⟩
  rw [authorizeMonitor, Prog.exec_then (Prog.exec_query he), hvalue]
  cases e.value with
  | none => rfl
  | some found =>
  by_cases hallowed : allows found.2 .monitorsRead = true
  · simp only [hallowed, if_true]
    rfl
  · simp only [hallowed]
    rfl

/-- Samples and total of the window, unless the total is out of range. -/
def latencyOf (db : Database) (m : Uuid) (fromAt toAt : Time) : Option (Nat × Int) :=
  let samples := (db.ledger.checks.rows.map Prod.snd).filter fun h =>
    h.monitorId == m && h.jobType == .scheduled &&
      decide (fromAt ≤ h.scheduledAt ∧ h.scheduledAt < toAt)
  let total := (samples.map HealthCheck.totalDurationMicroseconds).sum
  if total < 2 ^ 63 then some (samples.length, total) else none

theorem getMonitorLatencyTotals_eq (db : Database) (m : Uuid) (fromAt toAt : Time)
    (begun e : Env) (busy : Key → Bool) :
    getMonitorLatencyTotals m fromAt toAt begun e busy db =
      (latencyOf db m fromAt toAt).map fun latency => { value := latency } := by
  simp only [getMonitorLatencyTotals, onLedger, Tx.Stmt.zoom, latencyOf]
  split
  · rfl
  · rfl

/-- The answer for an authorized window, when the clock says `wall`. -/
def answerOf (db : Database) (m : Uuid) (fromAt toAt wall : Time) : Except Failure MonitorReport :=
  if clamped wall toAt ≤ fromAt then .error errReportWindow
  else match latencyOf db m (databaseTimestamp fromAt) (databaseTimestamp toAt) with
    | none => .error .database
    | some latency =>
      let invalidated := ((db.journal.invalidations.rows.filter fun e =>
        e.1.monitorId == m && decide (e.1.bucketStart < databaseTimestamp toAt ∧
          databaseTimestamp fromAt < e.1.bucketStart +
            bucketLength e.1.bucketKind)).map fun e => e.2.invalidatedAt).min?
      .ok { fromAt := fromAt, toAt := toAt
            base := reportOf db m (databaseTimestamp fromAt)
              (databaseTimestamp (clamped wall toAt))
            averageLatencyMilliseconds :=
              if 0 < latency.1 then some ((latency.2 : Rat) / latency.1 / 1000)
              else none
            fresh := invalidated.isNone, correctedAt := invalidated }

/-- `MonitorReport` run alone: the window and the clock do not depend on the
database, the authorization depends on the core, and the rest is read off. -/
theorem monitorReport_answer (userId environmentId m : Uuid) (q : PageQuery) :
    ∃ (window : Except Failure (Time × Time)) (k : Nat), ∀ db,
      ((monitorReport userId environmentId m q).solo remote i env n .idle db w).1 =
        match window with
        | .error failure => .error failure
        | .ok (fromAt, toAt) =>
          match authorization db.core userId environmentId m with
          | .error failure => .error failure
          | .ok _ => answerOf db m fromAt toAt (env k).wall := by
  obtain ⟨window, k, hwindow⟩ := normalizeQuery_exec i n env w q (366 * day)
  refine ⟨window, k + 3, fun db => ?_⟩
  rw [Prog.solo_eq, monitorReport, Prog.exec_then (hwindow db)]
  cases window with
  | error failure => rfl
  | ok bounds =>
  obtain ⟨fromAt, toAt⟩ := bounds
  obtain ⟨o, hauthorize⟩ := authorizeMonitor_exec i (k + 1) env w
    (o := .fresh (env k)) userId environmentId m
  dsimp only
  rw [Prog.exec_then Prog.exec_start]
  dsimp only
  rw [Prog.exec_then hauthorize]
  show ((Prog.exec remote i env _ ⟨k + 3, .idle, db, w⟩)).1 = _
  cases hallowed : authorization db.core userId environmentId m with
  | error failure =>
    show (Prog.exec remote i env (match authorization db.core userId environmentId m
      with | .error failure => _ | .ok _ => _) _).1 = _
    rw [hallowed]
    rfl
  | ok organizationId =>
  show (Prog.exec remote i env (match authorization db.core userId environmentId m
    with | .error failure => _ | .ok _ => _) _).1 = _
  rw [hallowed]
  dsimp only [answerOf]
  rw [Prog.exec_bind, report_exec]
  by_cases hempty : clamped (env (k + 3)).wall toAt ≤ fromAt
  · simp only [if_pos hempty]
    rfl
  simp only [if_neg hempty]
  have hquery := getMonitorLatencyTotals_eq db m (databaseTimestamp fromAt)
    (databaseTimestamp toAt) (env (k + 7)) (env (k + 8)) fun _ => false
  rw [Prog.exec_then Prog.exec_start]
  cases hlatency : latencyOf db m (databaseTimestamp fromAt)
      (databaseTimestamp toAt) with
  | none =>
    rw [hlatency] at hquery
    dsimp only
    rw [Prog.exec_then (Prog.exec_query_refused hquery)]
    rfl
  | some latency =>
    rw [hlatency] at hquery
    dsimp only
    rw [Prog.exec_then (Prog.exec_query hquery)]
    rfl

end Alone

/-! ## Before and after -/

variable {fromAt toAt wall : Time}

variable {latency : Nat × Int}

section Retention

variable {i n i' n' : Nat} {env env' : Nat → Env} {w w' : World} {db db' : Database}
  {now : Time} {m userId environmentId : Uuid} {q : PageQuery}

theorem Retained.periods (h : Retained now db db') :
    db'.core.periods = db.core.periods := by
  have hperiods := congrArg Core.periods h.core
  exact hperiods

theorem Retained.expectedSlots (h : Retained now db db') (fromAt toAt : Time) :
    db'.core.expectedSlots m fromAt toAt = db.core.expectedSlots m fromAt toAt := by
  rw [Core.expectedSlots, h.periods]
  rfl

theorem Retained.authorization (h : Retained now db db') :
    authorization db'.core userId environmentId m =
      authorization db.core userId environmentId m := by
  have hmonitors : (bareCore db').monitors = (bareCore db).monitors := by rw [h.core]
  have hmembers : (bareCore db').members = (bareCore db).members := by rw [h.core]
  have horganizations : (bareCore db').organizations = (bareCore db).organizations := by
    rw [h.core]
  unfold Proofs.authorization Core.monitorAccess
  change db'.core.monitors = db.core.monitors at hmonitors
  change db'.core.members = db.core.members at hmembers
  change db'.core.organizations = db.core.organizations at horganizations
  rw [hmonitors, hmembers, horganizations]

theorem sum_filter_le {α : Type} (f : α → Int) (p : α → Bool) :
    ∀ as : List α, (∀ a ∈ as, 0 ≤ f a) → ((as.filter p).map f).sum ≤ (as.map f).sum
  | [], _ => Int.le_refl 0
  | a :: as, h => by
      have ih := sum_filter_le f p as fun b hb => h b (List.mem_cons_of_mem _ hb)
      have ha := h a List.mem_cons_self
      rw [List.filter_cons]
      split
      · simp only [List.map_cons, List.sum_cons]
        omega
      · simp only [List.map_cons, List.sum_cons]
        omega

/-- Durations are never negative, so a total that was in range still is. -/
theorem ChecksLeft.latencyOf {gone : HealthCheck → Bool} (h : ChecksLeft gone db.ledger db'.ledger)
    (hdurations : ∀ id check, db.ledger.checks.find id = some check →
      0 ≤ check.totalDurationMicroseconds)
    (hlatency : latencyOf db m fromAt toAt = some latency) :
    ∃ latency', Proofs.latencyOf db' m fromAt toAt = some latency' := by
  have hperm := h.filter_perm fun check => check.monitorId == m && check.jobType == .scheduled &&
      decide (fromAt ≤ check.scheduledAt ∧ check.scheduledAt < toAt)
  have hless := sum_filter_le HealthCheck.totalDurationMicroseconds
    (fun check => !gone check) ((db.ledger.checks.rows.map Prod.snd).filter fun check =>
      check.monitorId == m && check.jobType == .scheduled &&
        decide (fromAt ≤ check.scheduledAt ∧ check.scheduledAt < toAt)) (by
    intro check hcheck
    obtain ⟨⟨id, row⟩, hmem, rfl⟩ := List.mem_map.mp (List.mem_filter.mp hcheck).1
    exact hdurations id row (Table.mem_rows.mp hmem))
  have hsame := (hperm.map HealthCheck.totalDurationMicroseconds).sum_eq
  unfold Proofs.latencyOf at hlatency ⊢
  dsimp only at hlatency ⊢
  split at hlatency
  · next hfits =>
    rw [hsame, if_pos (Int.lt_of_le_of_lt hless hfits)]
    exact ⟨_, rfl⟩
  · cases hlatency

/-- The checks `ApplyRetention` would delete. -/
abbrev outdated (now : Time) (db : Database) : HealthCheck → Bool :=
  fun check => check.disposable db.journal (databaseTimestamp (now - 7 * day))

/-- The three counts of a report. -/
def counts (r : MonitorReport) : Int × Int × Int :=
  (r.base.expected, r.base.observed, r.base.successful)

/-- What an answered report says, and needs. -/
theorem answerOf_ok {r : MonitorReport} (h : answerOf db m fromAt toAt wall = .ok r) :
    fromAt < clamped wall toAt ∧ r.fromAt = fromAt ∧ r.toAt = toAt ∧
      r.base = reportOf db m (databaseTimestamp fromAt) (databaseTimestamp (clamped wall toAt)) ∧
      ∃ latency, latencyOf db m (databaseTimestamp fromAt) (databaseTimestamp toAt) =
        some latency := by
  unfold answerOf at h
  split at h
  · cases h
  next hwindow =>
  split at h
  · cases h
  · next latency hlatency =>
    cases h
    exact ⟨Int.not_le.mp hwindow, rfl, rfl, rfl, latency, hlatency⟩

theorem answerOf_of (hwindow : fromAt < clamped wall toAt)
    (hlatency : latencyOf db m (databaseTimestamp fromAt) (databaseTimestamp toAt) =
      some latency) : ∃ r, answerOf db m fromAt toAt wall = .ok r := by
  unfold answerOf
  rw [if_neg (Int.not_le.mpr hwindow), hlatency]
  exact ⟨_, rfl⟩

/-- The counts of a report after a retention that committed. -/
theorem Retained.counts_iff (h : Retained now db db') {before after : MonitorReport}
    (hbefore : answerOf db m fromAt toAt wall = .ok before)
    (hafter : answerOf db' m fromAt toAt wall = .ok after) :
    counts after = counts before ↔ Intact (outdated now db) db.ledger m
      (db.core.expectedSlots m (databaseTimestamp fromAt)
        (databaseTimestamp (clamped wall toAt))) := by
  have hleft : ChecksLeft (outdated now db) db.ledger db'.ledger := h.checks
  obtain ⟨-, -, -, hbase, -⟩ := answerOf_ok hbefore
  obtain ⟨-, -, -, hbase', -⟩ := answerOf_ok hafter
  obtain ⟨he, ho, hs⟩ := reportOf_counts db m _ _ hbase
  obtain ⟨he', ho', hs'⟩ := reportOf_counts db' m _ _ hbase'
  rw [h.expectedSlots] at he' ho' hs'
  constructor
  · intro hcounts
    have hobserved : after.base.observed = before.base.observed :=
      congrArg (fun c => c.2.1) hcounts
    rw [ho, ho'] at hobserved
    exact hleft.intact (Int.ofNat.inj hobserved)
  · intro hintact
    rw [hleft.countSlots_eq hintact] at he' ho' hs'
    simp only [counts, he, ho, hs, he', ho', hs']

variable (i' n' env' w' now)

/-- Reports and retention. A report that is answered before `ApplyRetention` is
answered after it, and it has the same counts if and only if the retention did
not commit, or no check at an expected slot of the window was due for deletion. -/
theorem report_kept_iff (hdurations : ∀ id check, db.ledger.checks.find id = some check →
      0 ≤ check.totalDurationMicroseconds)
    {before : MonitorReport}
    (hbefore : ((monitorReport userId environmentId m q).solo remote i env n .idle db w).1 =
      .ok before)
    (hover : ∀ k, before.toAt ≤ (env k).wall) :
    ∃ after, ((monitorReport userId environmentId m q).solo remote i env n .idle
        ((applyRetention now).solo remote i' env' n' .idle db w').2.1 w).1 = .ok after ∧
      (counts after = counts before ↔ (∃ id, Blocked now db id) ∨
        Intact (outdated now db) db.ledger m (db.core.expectedSlots m
          (databaseTimestamp before.fromAt) (databaseTimestamp before.toAt))) := by
  by_cases hblocked : ∃ id, Blocked now db id
  · obtain ⟨id, hid⟩ := hblocked
    obtain ⟨k, hexec⟩ := applyRetention_refused i' n' env' w' db now hid
    have hdb : ((applyRetention now).solo remote i' env' n' .idle db w').2.1 = db := by
      rw [Prog.solo_eq, hexec]
    rw [hdb]
    exact ⟨before, hbefore, fun _ => .inl ⟨id, hid⟩, fun _ => rfl⟩
  obtain ⟨total, k, db', hretained, hexec⟩ := applyRetention_commits i' n' env' w' db now
    fun id hid => hblocked ⟨id, hid⟩
  have hdb : ((applyRetention now).solo remote i' env' n' .idle db w').2.1 = db' := by
    rw [Prog.solo_eq, hexec]
  rw [hdb]
  obtain ⟨window, k, hanswer⟩ := monitorReport_answer i n env w userId environmentId m q
  rw [hanswer] at hbefore ⊢
  rw [hretained.authorization]
  cases window with
  | error failure => cases hbefore
  | ok bounds =>
  obtain ⟨fromAt, toAt⟩ := bounds
  cases hallowed : authorization db.core userId environmentId m with
  | error failure =>
    simp only [hallowed] at hbefore
    cases hbefore
  | ok organizationId =>
  simp only [hallowed] at hbefore ⊢
  obtain ⟨hwindow, hfrom, hto, -, latency, hlatency⟩ := answerOf_ok hbefore
  obtain ⟨latency', hlatency'⟩ :=
    (show ChecksLeft (outdated now db) db.ledger db'.ledger from
      hretained.checks).latencyOf hdurations hlatency
  obtain ⟨after, hafter⟩ := answerOf_of hwindow hlatency'
  refine ⟨after, hafter, ?_⟩
  have hclamp : clamped (env k).wall toAt = before.toAt := by
    rw [hto]
    exact if_neg (Int.not_lt.mpr (hto ▸ hover k))
  rw [hretained.counts_iff hbefore hafter, hclamp, hfrom]
  constructor
  · exact .inr
  · intro hor
    exact hor.resolve_left hblocked

end Retention

namespace Sample

/-- Somebody may look at the monitor. -/
def watched : Core :=
  let viewer : OrgMember := { role := .viewer, incidentNotificationsEnabled := false }
  { periodic with
    members := Table.empty.put (2, 7) viewer, organizations := Table.empty.put 2 {} }

/-- One check, its hour and its day rolled up. -/
def reporting : Script :=
  scheduling ++ consuming 1 62 21 ++ rolling 2 ++
    .spawn (rollupDay 0 >>= fun _ => pure ()) :: steps 3 (moment 172800 14 21) 10

theorem reporting_within : ∀ a ∈ reporting, a.within (Serving primitives) := by
  simp only [reporting, rolling, List.forall_mem_append, List.forall_mem_cons]
  exact ⟨⟨⟨serving_of_fair fair_scheduling, serving_of_fair (fair_consuming 1 62 21)⟩,
    .rollupHour 0, steps_within _ _ _ _⟩, .rollupDay 0, steps_within _ _ _ _⟩

/-- The report of the first two hours, asked for on the ninth day. -/
def askReport (db : Database) : Except Failure MonitorReport :=
  ((monitorReport 7 3 1 { limit := 0, fromAt := some 0, toAt := some (2 * hour) }).solo
    remote 0 (fun _ => moment (8 * 86400) 14 21) 0 .idle db World.empty).1

def retainedAt (days : Int) (db : Database) : Database :=
  ((applyRetention (days * day)).solo remote 0 (fun _ => moment (days * 86400) 14 21) 0
    .idle db World.empty).2.1

/-- Marks left, and what the rollups observed. -/
def rollupsOf (s : System) : Nat × Option Nat × Option Nat :=
  (s.db.journal.invalidations.rows.length,
    (s.db.journal.hourly.find (1, 0)).map Rollup.observedChecks,
    (s.db.journal.daily.find (1, 0)).map Rollup.observedChecks)

/-- The counts of the report before and after retention on the ninth day. -/
def reportsOf (s : System) : Option (Int × Int × Int) × Option (Int × Int × Int) :=
  ((askReport s.db).toOption.map counts, (askReport (retainedAt 8 s.db)).toOption.map counts)

end Sample

/-- All rollups are fresh and no mark is left; the report observes one check, and
after retention it observes none. -/
theorem report_forgets : ∃ s, Steps remote (Serving Sample.primitives)
      (.quiet ⟨Ledger.empty, Sample.watched, Journal.empty⟩ World.empty) s ∧
    Sample.rollupsOf s = (0, some 1, some 1) ∧
    Sample.reportsOf s = (some (119, 1, 1), some (119, 0, 0)) := by
  have hrollups : ((Sys.quiet ⟨Ledger.empty, Sample.watched, Journal.empty⟩ World.empty :
      System).run remote Sample.reporting).map Sample.rollupsOf =
      some (0, some 1, some 1) := by decide +kernel
  have hreports : ((Sys.quiet ⟨Ledger.empty, Sample.watched, Journal.empty⟩ World.empty :
      System).run remote Sample.reporting).map Sample.reportsOf =
      some (some (119, 1, 1), some (119, 0, 0)) := by decide +kernel
  obtain ⟨s, hs, hrolled⟩ := Option.map_eq_some_iff.mp hrollups
  rw [hs] at hreports
  exact ⟨s, Sys.run_steps Sample.reporting_within hs, hrolled, Option.some.inj hreports⟩

namespace Sample

/-- One check, not rolled up, of a monitor that somebody may look at. -/
def watchedOnce : Database := { observedOnce with core := watched }

end Sample

open Sample

/-- Retention on the fourth day leaves the report of the first two hours. -/
theorem report_kept_iff_sample : ∃ before after, askReport watchedOnce = .ok before ∧
    askReport (retainedAt 3 watchedOnce) = .ok after ∧
    counts before = (119, 1, 1) ∧ counts after = counts before := by
  have hask : (askReport watchedOnce).toOption.map
      (fun r => (counts r, r.toAt)) = some ((119, 1, 1), 2 * hour) := by decide +kernel
  have hrows : (watchedOnce.ledger.checks.rows.all fun e =>
      decide (0 ≤ e.2.totalDurationMicroseconds) &&
        !outdated (3 * day) watchedOnce e.2) = true := by decide +kernel
  have hcheck : ∀ id check, watchedOnce.ledger.checks.find id = some check →
      0 ≤ check.totalDurationMicroseconds ∧
        outdated (3 * day) watchedOnce check = false := by
    intro id check hfind
    simpa using List.all_eq_true.mp hrows (id, check) (Table.mem_rows.mpr hfind)
  cases hbefore : askReport watchedOnce with
  | error failure =>
    rw [hbefore] at hask
    cases hask
  | ok before =>
  rw [hbefore] at hask
  obtain ⟨hcounts, hto⟩ := Prod.mk.inj (Option.some.inj hask)
  obtain ⟨after, hafter, hiff⟩ := report_kept_iff 0 0
    (fun _ => moment (3 * 86400) 14 21) World.empty (3 * day)
    (fun id check h => (hcheck id check h).1) hbefore
    (fun k => hto ▸ by decide)
  refine ⟨before, after, rfl, hafter, hcounts, hiff.mpr (.inr ?_)⟩
  intro slot _ check hmem
  obtain ⟨id, hfind, -⟩ := mem_checksAt.mp hmem
  exact (hcheck id check hfind).2

end WatchTrace.Proofs
