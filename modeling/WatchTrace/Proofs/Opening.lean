import WatchTrace.Proofs.Hysteresis

/-!
# When an incident opens

An application opens an incident when the monitor is down and none is open,
and dates it back to the oldest of the newest evaluations, as many as the
failure threshold says. That is the first failure of the run as long as the
incident opens with the failure that completes the threshold. It does not have
to: an incident that a person resolves leaves a monitor that is still down, and
the next result, whatever it is, opens a new one.
-/

namespace WatchTrace.Proofs

open Tx Tx.Prog Model Spec

variable {m : Uuid} {lim : Limits}

/-! ## People -/

/-- A write that touches nothing an evaluation is about, nor a rule. -/
structure Spares (w : Database → Database) : Prop where
  ledger : ∀ db, (w db).ledger = db.ledger
  evaluations : ∀ db, (w db).core.evaluations = db.core.evaluations
  states : ∀ db, (w db).core.states = db.core.states
  rules : ∀ db, (w db).core.rules = db.core.rules

variable {w : Database → Database}

theorem Spares.aside (h : Spares w) (db : Database) : Aside m db (w db) :=
  ⟨h.ledger db, h.evaluations db, h.states db, limits_congr (h.rules db) m⟩

theorem spares_id : Spares id := ⟨fun _ => rfl, fun _ => rfl, fun _ => rfl, fun _ => rfl⟩

theorem Spares.comp {v : Database → Database} (hv : Spares v) (hw : Spares w) :
    Spares fun db => w (v db) :=
  ⟨fun db => (hw.ledger _).trans (hv.ledger db),
    fun db => (hw.evaluations _).trans (hv.evaluations db),
    fun db => (hw.states _).trans (hv.states db),
    fun db => (hw.rules _).trans (hv.rules db)⟩

variable {α : Type} {begun env : Env} {busy : Key → Bool} {db : Database}

variable {e : Effect Database Key α}

/-- A statement about the core whose writes keep the three tables. -/
theorem spares_core {q : Tx.Stmt Core Key Env α} (he : onCore q begun env busy db = some e)
    (h : ∀ e', q begun env busy db.core = some e' → ∀ c,
      (e'.write c).evaluations = c.evaluations ∧ (e'.write c).states = c.states ∧
        (e'.write c).rules = c.rules) : Spares e.write := by
  obtain ⟨e', he', -, -, hwrite⟩ := onCore_some he
  refine ⟨fun db => ?_, fun db => ?_, fun db => ?_, fun db => ?_⟩
  all_goals rw [hwrite]
  · exact (h e' he' db.core).1
  · exact (h e' he' db.core).2.1
  · exact (h e' he' db.core).2.2

theorem spares_journal {q : Tx.Stmt Journal Key Env α}
    (he : onJournal q begun env busy db = some e) : Spares e.write := by
  obtain ⟨e', -, rfl⟩ := Option.map_eq_some_iff.mp he
  exact ⟨fun _ => rfl, fun _ => rfl, fun _ => rfl, fun _ => rfl⟩

theorem insertRefreshEvent_spares {event : RefreshEvent} {e : Effect Database Key Unit}
    (he : insertRefreshEvent event begun env busy db = some e) : Spares e.write :=
  spares_journal he

theorem confined_readCore {f : Core → α} :
    Confined Spares (query (onCore (.read f)) : Prog (Except Fault α)) := by
  refine within_query fun begun env busy db e he => spares_core he fun e' he' c => ?_
  cases he'
  exact ⟨rfl, rfl, rfl⟩

theorem insertEvent_confined (event : IncidentEvent) :
    Confined Spares (insertEvent event) := by
  refine within_then (within_query fun begun env busy db e he =>
    spares_core he fun e' he' c => ?_) (fun eventId => ?_) fun _ => trivial
  · dsimp only at he'
    (repeat' split at he') <;> cases he' <;> exact ⟨rfl, rfl, rfl⟩
  · exact within_then (within_query fun _ _ _ _ _ he => insertRefreshEvent_spares he)
      (by simp) (by simp)

theorem enqueueIncidentEventTx_confined (eventId : Uuid) (transition : Transition) :
    Confined Spares (enqueueIncidentEventTx eventId transition) := by
  refine within_query fun begun env busy db e he => spares_core he fun e' he' c => ?_
  dsimp only at he'
  (repeat' split at he') <;> cases he' <;> exact ⟨rfl, rfl, rfl⟩

theorem resolveIncident_confined (incidentId : Uuid) (sourceJobId : Option Uuid)
    (kind : ResolutionKind) (actorUserId : Option Uuid) (reason : String) (now : Time) :
    Confined Spares
      (resolveIncident incidentId sourceJobId kind actorUserId reason now) := by
  refine within_then (within_query fun begun env busy db e he =>
    spares_core he fun e' he' c => ?_) (fun rowsAffected => ?_) fun _ => trivial
  · (repeat' split at he') <;> cases he' <;> exact ⟨rfl, rfl, rfl⟩
  · dsimp only
    split
    · trivial
    refine within_then confined_readCore (fun tenant => ?_) fun _ => trivial
    cases tenant with
    | none => trivial
    | some ids =>
      refine within_then (insertEvent_confined _) (fun eventId => ?_) fun _ => trivial
      exact within_then (enqueueIncidentEventTx_confined _ _) (by simp) (by simp)

theorem loadPermitted_confined (userId environmentId incidentId : Uuid) (permission : Permission) :
    Confined Spares (loadPermitted userId environmentId incidentId permission) := by
  refine within_then (within_query fun begun env busy db e he =>
    spares_core he fun e' he' c => ?_) (by simp) (by simp)
  (repeat' split at he') <;> cases he' <;> exact ⟨rfl, rfl, rfl⟩

theorem getIncident_confined (userId environmentId incidentId : Uuid) :
    Confined Spares (getIncident userId environmentId incidentId) :=
  within_then within_start (fun _ => loadPermitted_confined _ _ _ _) fun _ => trivial

theorem resolve_confined (userId environmentId incidentId : Uuid) (reason : String) :
    Confined Spares (resolve userId environmentId incidentId reason) := by
  unfold resolve
  split
  · trivial
  refine within_then within_start (fun _ => ?_) fun _ => trivial
  refine within_then (loadPermitted_confined _ _ _ _) (fun incident => ?_) fun _ => trivial
  dsimp only
  split
  · trivial
  refine within_bind within_call fun now => ?_
  refine within_then (resolveIncident_confined _ _ _ _ _ _) (fun _ => ?_) fun _ => trivial
  exact within_then within_commit (fun _ => getIncident_confined _ _ _) fun _ => trivial

theorem acknowledge_confined (userId environmentId incidentId : Uuid) (reason : String) :
    Confined Spares (acknowledge userId environmentId incidentId reason) := by
  unfold acknowledge
  split
  · trivial
  refine within_then within_start (fun _ => ?_) fun _ => trivial
  refine within_then (loadPermitted_confined _ _ _ _) (fun incident => ?_) fun _ => trivial
  dsimp only
  split
  · trivial
  refine within_bind within_call fun now => ?_
  split
  · refine within_then (within_query fun begun env busy db e he =>
      spares_core he fun e' he' c => ?_) (fun _ => ?_) fun _ => trivial
    · (repeat' split at he') <;> cases he' <;> exact ⟨rfl, rfl, rfl⟩
    · refine within_then (insertEvent_confined _) (fun _ => ?_) fun _ => trivial
      exact within_then within_commit (fun _ => getIncident_confined _ _ _) fun _ => trivial
  · exact within_then within_commit (fun _ => getIncident_confined _ _ _) fun _ => trivial

/-! ## Runs -/

/-- One call that runs alone: a scheduled result of the monitor is accepted in
time, or a person resolves or acknowledges an incident. -/
inductive Handled (m : Uuid) (db : Database) : Database → Prop
  | acceptance (env : Nat → Env) (evaluatedAt : Time) (job : LockedJob)
      (result : Result) (hm : job.row.monitorId = m)
      (ht : job.row.jobType = .scheduled)
      (hin : evaluatedAt ≤ job.row.expiresAt + correctionWindow) :
      Handled m db (alone env (acceptance evaluatedAt job result) db).2
  | resolve (env : Nat → Env) (userId environmentId incidentId : Uuid) (reason : String) :
      Handled m db (alone env (resolve userId environmentId incidentId reason) db).2
  | acknowledge (env : Nat → Env) (userId environmentId incidentId : Uuid) (reason : String) :
      Handled m db (alone env (acknowledge userId environmentId incidentId reason) db).2

theorem aside_alone {p : Prog α} (hp : Confined Spares p) (env : Nat → Env) (db : Database) :
    Aside m db (alone env p db).2 := by
  obtain ⟨w, hw, heq⟩ : ∃ w, Spares w ∧ (alone env p db).2 = w db :=
    solo_confined spares_id Spares.comp hp fun o h => by cases h
  rw [heq]
  exact hw.aside db

variable {db' : Database}

theorem Handled.upToDate (h : Handled m db db') (hup : UpToDate m lim db) :
    UpToDate m lim db' := by
  cases h with
  | acceptance env evaluatedAt job result hm ht hin =>
    rcases acceptance_alone env result hup hm ht hin with ⟨db', heq, hstep⟩ | ⟨f, heq⟩
    · rw [heq]
      exact hstep.upToDate
    · rw [heq]
      exact hup
  | resolve env userId environmentId incidentId reason =>
    exact hup.aside (aside_alone (resolve_confined _ _ _ _) env db)
  | acknowledge env userId environmentId incidentId reason =>
    exact hup.aside (aside_alone (acknowledge_confined _ _ _ _) env db)

theorem handled_upToDate (hup : UpToDate m lim db)
    (h : Relation.ReflTransGen (Handled m) db db') : UpToDate m lim db' := by
  induction h with
  | refl => exact hup
  | tail _ hstep ih => exact hstep.upToDate ih

/-! ## The law -/

/-- The results after an acceptance are those before it and the new one. -/
theorem AcceptStep.inOrder_results {r : ObservedResult} (h : AcceptStep m lim db r db') :
    inOrder (r :: scheduledChecks db.ledger m) = scheduledChecks db'.ledger m := by
  have hasc := ascending_scheduledChecks db'.ledger m
  have hold := ascending_scheduledChecks db.ledger m
  have hmem : ∀ r', r' ∈ r :: scheduledChecks db.ledger m ↔
      r' ∈ scheduledChecks db'.ledger m := by
    intro r'
    rw [h.results, List.mem_cons]
    exact or_comm
  have hnew : r ∉ scheduledChecks db.ledger m := by
    intro hr
    obtain ⟨check, hfind, -⟩ := mem_scheduledChecks.mp hr
    rw [h.free] at hfind
    cases hfind
  have hperm : (r :: scheduledChecks db.ledger m).Perm (scheduledChecks db'.ledger m) :=
    (List.perm_ext_iff_of_nodup (List.nodup_cons.mpr ⟨hnew, hold.nodup⟩) hasc.nodup).mpr hmem
  have hkeys : ((r :: scheduledChecks db.ledger m).map ObservedResult.key).Nodup := by
    rw [(hperm.map _).nodup_iff, List.nodup_iff_pairwise_ne, List.pairwise_map]
    exact List.Pairwise.imp (fun hlt => ne_of_lt hlt) hasc
  refine (ascending_inOrder hkeys).ext hasc fun r' => ?_
  rw [inOrder, List.mem_insertionSort]
  exact hmem r'

variable {c : Core}

/-- An incident that was not there before was opened by the application. -/
theorem Applied.created {corrected : Bool} {c' : Core} (h : Applied m corrected c c')
    {id : Uuid} {incident : Incident} (hbefore : c.incidents.find id = none)
    (hafter : c'.incidents.find id = some incident) :
    ∃ rule now, InForce c' m rule ∧ (snapshotOf c m).observed = .down ∧
      incident.startedAt = (((orderedEvaluations c m).reverse.take
        rule.failureThreshold.val).map fun e => e.row.scheduledAt).getLast?.getD now := by
  have hnew : c'.incidents.find id ≠ c.incidents.find id := by
    rw [hafter, hbefore]
    exact Option.some_ne_none _
  cases h with
  | idle hsame => exact absurd (by rw [hsame]) hnew
  | @opened rule id' incident' now hrule hdown hnone hfree hfresh hput =>
    obtain rfl : id = id' := by
      by_contra hne
      exact hnew (by rw [hput, Table.find_put_ne _ _ hne])
    rw [hput, Table.find_put, Option.some.injEq] at hafter
    rw [← hafter]
    exact ⟨rule, now, hrule, hdown, hfresh.startedAt⟩
  | @resolved rule id' old new kind hrule hup hopen hfind hkind hclosed hput =>
  have hne : id ≠ id' := by
    rintro rfl
    rw [hbefore] at hfind
    cases hfind
  exact absurd (by rw [hput, Table.find_put_ne _ _ hne]) hnew

/-- The limit in force is the threshold of the rule. -/
theorem limits_inForce {rule : AlertRule} (h : InForce c m rule) :
    (limits c m).failure = rule.failureThreshold.val := by
  unfold limits alertThresholds
  rw [h.1]
  simp only [h.2, if_true]
  rfl

/-- The results the rows are about. -/
def evaluatedResults (c : Core) (m : Uuid) : List ObservedResult :=
  (recorded c m).map Prod.fst

theorem UpToDate.evaluatedResults (h : UpToDate m lim db) :
    evaluatedResults db.core m = scheduledChecks db.ledger m := by
  unfold Proofs.evaluatedResults
  rw [h.evaluated.rows]
  exact map_fst_historyFrom _ _

theorem startedAt_eq (c : Core) (n : Nat) :
    ((orderedEvaluations c m).reverse.take n).map (fun e => e.row.scheduledAt) =
      ((evaluatedResults c m).reverse.take n).map ObservedResult.scheduledAt := by
  unfold evaluatedResults recorded
  rw [List.map_map, ← List.map_reverse, ← List.map_take, List.map_map]
  rfl

/-- Whenever an acceptance creates an incident, in whatever run of acceptances,
resolutions and acknowledgements: the opening law holds for exactly the results
with which the incident opens promptly. -/
theorem incident_opening_law {db₀ db : Database} (h₀ : Unobserved m db₀)
    (hrun : Relation.ReflTransGen (Handled m) db₀ db) (env : Nat → Env)
    (evaluatedAt : Time) (job : LockedJob) (result : Result)
    (hm : job.row.monitorId = m) (ht : job.row.jobType = .scheduled)
    (hin : evaluatedAt ≤ job.row.expiresAt + correctionWindow) {db' : Database}
    (hdb' : (alone env (acceptance evaluatedAt job result) db).2 = db')
    {id : Uuid} {incident : Incident} (hbefore : db.core.incidents.find id = none)
    (hafter : db'.core.incidents.find id = some incident) :
    OpenedByRun (limits db₀.core m).failure (evaluatedResults db'.core m) incident.startedAt ↔
    Prompt (limits db₀.core m).failure
      (inOrder (observedResult job result :: scheduledChecks db.ledger m)) := by
  have hup := handled_upToDate h₀.upToDate hrun
  rcases acceptance_alone env result hup hm ht hin with ⟨db'', heq, hstep⟩ | ⟨f, heq⟩
  · rw [heq] at hdb'
    subst hdb'
    obtain ⟨mid, hincidents, hevaluations, hstates, happ⟩ := hstep.applied
    rw [← hincidents] at hbefore
    obtain ⟨rule, now, hrule, hdown, hstarted⟩ := happ.created hbefore hafter
    have hresults := UpToDate.evaluatedResults hstep.upToDate
    rw [hstep.inOrder_results, hresults]
    have hlimit : (limits db₀.core m).failure = rule.failureThreshold.val := by
      rw [← limits_inForce hrule, hstep.upToDate.evaluated.limits]
    refine openedByRun_iff (by rw [hlimit]; exact rule.failureThreshold.2.1) now
      (ascending_scheduledChecks _ _) ?_ ?_
    · rw [← hstep.upToDate.observed, ← snapshotOf_congr hstates]
      exact hdown
    · have hmid : evaluatedResults mid m = evaluatedResults db''.core m := by
        unfold evaluatedResults
        rw [recorded_congr hevaluations]
      rw [hstarted, startedAt_eq, hmid, hresults, hlimit]
  · rw [heq] at hdb'
    subst hdb'
    rw [hbefore] at hafter
    cases hafter

namespace Sample

/-- The same monitor, in an organization with one member who may manage its
incidents. -/
def staffed : Database :=
  { blank with core := { core with
    members := Table.empty.put (2, 7)
      { role := .owner, incidentNotificationsEnabled := false } } }

theorem unobserved_staffed : Unobserved 1 staffed :=
  ⟨rfl, rfl, rfl, rfl, rfl, fun j e h => by
    rw [show staffed.core.evaluations.find j = none from Table.find_empty j] at h
    cases h⟩

/-- The rows after the first `n` results, from here on. -/
def troubled : Nat → Database
  | 0 => staffed
  | n + 1 => (accepted (n + 1) (troubled n)).2

theorem handled_accepted (n : Nat) (db : Database) :
    Handled 1 db (accepted n db).2 := by
  refine .acceptance (minuteOf n) _ _ _ rfl rfl ?_
  have : (0 : Int) ≤ 120 * second + correctionWindow := by decide
  show (n * minute : Int) ≤ n * minute + 120 * second + correctionWindow
  omega

theorem troubled_handled : ∀ n, Relation.ReflTransGen (Handled 1) staffed (troubled n)
  | 0 => .refl
  | n + 1 => (troubled_handled n).tail (handled_accepted (n + 1) (troubled n))

/-- The third failure has opened an incident, which the member resolves. -/
def dismissed : Database := (alone (minuteOf 9) (resolve 7 3 3016 "") (troubled 3)).2

theorem dismissed_handled : Relation.ReflTransGen (Handled 1) staffed dismissed :=
  (troubled_handled 3).tail (.resolve _ _ _ _ _)

theorem troubled_results : inOrder (observedResult (slot 3) (outcome 3 false) ::
    scheduledChecks (troubled 2).ledger 1) =
    [⟨1, 1 * minute, false⟩, ⟨2, 2 * minute, false⟩, ⟨3, 3 * minute, false⟩] := by
  decide +kernel

end Sample

open Sample

theorem incident_opening_law_sample :
    ∃ incident, (troubled 3).core.incidents.find 3016 = some incident ∧
      OpenedByRun 3 (evaluatedResults (troubled 3).core 1) incident.startedAt := by
  have hbefore : ((troubled 2).core.incidents.find 3016).isNone = true := by
    decide +kernel
  have hafter : ((troubled 3).core.incidents.find 3016).isSome = true := by
    decide +kernel
  obtain ⟨incident, hfind⟩ := Option.isSome_iff_exists.mp hafter
  refine ⟨incident, hfind, ?_⟩
  refine (incident_opening_law unobserved_staffed (troubled_handled 2)
    (minuteOf 3) _ (slot 3) (outcome 3 false) rfl rfl (by decide)
    rfl (Option.isNone_iff_eq_none.mp hbefore) hfind).mpr ?_
  rw [troubled_results]
  refine ⟨⟨_, rfl, rfl⟩, fun r hr oldest holdest => ?_⟩
  have hfirst : some (⟨1, 1 * minute, false⟩ : ObservedResult) = some oldest := holdest
  cases hfirst
  have hmem := (failureRun_suffix _).mem hr
  simp only [List.mem_cons, List.not_mem_nil, or_false] at hmem
  rcases hmem with rfl | rfl | rfl
  · decide
  · decide
  · decide

/-- The next result after a resolution is a success, and opens an incident. -/
theorem opened_by_a_success : ∃ db, Relation.ReflTransGen (Handled 1) staffed db ∧
      ∃ incident, db.core.incidents.find 4016 = none ∧
        (accepted 4 db).2.core.incidents.find 4016 = some incident ∧
        ¬ OpenedByRun 3 (evaluatedResults (accepted 4 db).2.core 1)
          incident.startedAt := by
  have hbefore : (dismissed.core.incidents.find 4016).isNone = true := by
    decide +kernel
  have hafter : ((accepted 4 dismissed).2.core.incidents.find
      4016).isSome = true := by decide +kernel
  obtain ⟨incident, hfind⟩ := Option.isSome_iff_exists.mp hafter
  refine ⟨dismissed, dismissed_handled, incident, Option.isNone_iff_eq_none.mp hbefore, hfind, ?_⟩
  rintro ⟨hnew, -⟩
  rw [newest_iff] at hnew
  revert hnew
  decide +kernel

end WatchTrace.Proofs
