import WatchTrace.Proofs.Evaluation
import WatchTrace.Model.Consumer

/-!
# What an accepted result does

`ApplyEvaluationTx` looks at the state the evaluation has just stored and at
the open incident of the monitor, and does one of three things: nothing, open
an incident, or resolve the open one. `Applied` says which one, when, and with
what in the row. An acceptance is the insert of the check, one evaluation and
one application.
-/

namespace WatchTrace.Proofs

open Tx Tx.Prog Model Spec

variable {m : Uuid} {lim : Limits}

/-! ## Open incidents -/

variable {c : Core} {ruleId id : Uuid}

theorem openIncidentOf_some (h : openIncidentOf c m ruleId = some id) :
    ∃ incident, c.incidents.find id = some incident ∧ incident.monitorId = m ∧
      incident.alertRuleId = ruleId ∧ incident.status = .isOpen := by
  obtain ⟨⟨id', incident⟩, hfind, rfl⟩ := Option.map_eq_some_iff.mp h
  have hprops := List.find?_some hfind
  have hmem := List.mem_of_find?_eq_some hfind
  simp only [Bool.and_eq_true, beq_iff_eq] at hprops
  exact ⟨incident, Table.mem_rows.mp hmem, hprops.1.1, hprops.1.2, hprops.2⟩

variable {incident : Incident}

theorem openIncidentOf_none (h : openIncidentOf c m ruleId = none)
    (hfind : c.incidents.find id = some incident) (hm : incident.monitorId = m)
    (hrule : incident.alertRuleId = ruleId) : incident.status ≠ .isOpen := by
  intro hopen
  have hnone := Option.map_eq_none_iff.mp h
  rw [List.find?_eq_none] at hnone
  have := hnone _ (Table.mem_rows.mpr hfind)
  simp [hm, hrule, hopen] at this

theorem openIncidentOf_congr {c' : Core} (h : c'.incidents = c.incidents) (m ruleId : Uuid) :
    openIncidentOf c' m ruleId = openIncidentOf c m ruleId := by
  unfold openIncidentOf
  rw [h]

/-! ## The programs -/

/-- What a statement leaves alone that writes neither rows of an evaluation nor
incidents. -/
structure Unrelated (m : Uuid) (v v' : Database) : Prop where
  aside : Aside m v v'
  beside : Beside v v'

variable {v w : Database}

variable {u : Database}

theorem Unrelated.trans (huv : Unrelated m u v) (hvw : Unrelated m v w) : Unrelated m u w :=
  ⟨huv.aside.trans hvw.aside, huv.beside.trans hvw.beside⟩

/-- Events, notifications and the journal are on nobody's mind here. -/
theorem unrelated_core (hevaluations : c.evaluations = v.core.evaluations)
    (hstates : c.states = v.core.states) (hrules : c.rules = v.core.rules)
    (hincidents : c.incidents = v.core.incidents) :
    Unrelated m v { v with core := c } :=
  ⟨⟨rfl, hevaluations, hstates, limits_congr hrules m⟩, ⟨rfl, hrules, hincidents⟩⟩

/-- Nothing but the journal was written. -/
structure Journaled (v v' : Database) : Prop where
  ledger : v'.ledger = v.ledger
  core : v'.core = v.core

theorem Journaled.trans (huv : Journaled u v) (hvw : Journaled v w) : Journaled u w :=
  ⟨hvw.ledger.trans huv.ledger, hvw.core.trans huv.core⟩

variable {v' : Database}

theorem Journaled.unrelated (h : Journaled v v') :
    Unrelated m v v' := by
  refine ⟨⟨h.ledger, ?_, ?_, ?_⟩, ⟨h.ledger, ?_, ?_⟩⟩ <;> rw [h.core]

variable {begun env : Env} {busy : Key → Bool}

/-- A statement about the journal. -/
theorem onJournal_journaled {α : Type} {q : Tx.Stmt Journal Key Env α}
    {e : Effect Database Key α} (he : onJournal q begun env busy v = some e) :
    Journaled v (e.write v) := by
  obtain ⟨e', -, rfl⟩ := Option.map_eq_some_iff.mp he
  exact ⟨rfl, rfl⟩

variable {e : Effect Database Key Unit}

theorem insertRefreshEvent_journaled {event : RefreshEvent}
    (he : insertRefreshEvent event begun env busy v = some e) :
    Journaled v (e.write v) := onJournal_journaled he

theorem upsertRollupInvalidation_journaled {key : InvalidationKey} {reason : InvalidationReason}
    (he : upsertRollupInvalidation key reason begun env busy v = some e) :
    Journaled v (e.write v) := onJournal_journaled he

theorem insertEvent_returns (event : IncidentEvent) :
    Returns remote begun (fun _ v' => Unrelated m v v') (insertEvent event) v := by
  refine returns_query (fun env busy e he => ?_) (fun _ => ⟨_, rfl⟩)
  have hevent : Unrelated m v (e.write v) := by
    obtain ⟨e', he', -, -, hwrite⟩ := onCore_some he
    rw [hwrite]
    dsimp only at he'
    split at he'
    · cases he'
    split at he'
    · cases he'
      exact unrelated_core rfl rfl rfl rfl
    split at he'
    · cases he'
    · cases he'
      exact unrelated_core rfl rfl rfl rfl
  refine returns_query (fun env busy e' he' => returns_ok ?_) (fun _ => ⟨_, rfl⟩)
  exact hevent.trans (insertRefreshEvent_journaled he').unrelated

theorem enqueueIncidentEventTx_returns (eventId : Uuid) (transition : Transition) :
    Returns remote begun (fun _ v' => Unrelated m v v')
      (enqueueIncidentEventTx eventId transition) v := by
  refine returns_last fun env busy e he => ?_
  obtain ⟨e', he', -, -, hwrite⟩ := onCore_some he
  rw [hwrite]
  split at he'
  · cases he'
    exact unrelated_core rfl rfl rfl rfl
  dsimp only at he'
  split at he'
  · cases he'
  · cases he'
    exact unrelated_core rfl rfl rfl rfl

/-- One incident is written. -/
def note (v : Database) (id : Uuid) (incident : Incident) : Database :=
  { v with core := { v.core with incidents := v.core.incidents.put id incident } }

/-- One incident was written, and nothing else that matters here. -/
structure Noted (m : Uuid) (v v' : Database) (id : Uuid) (incident : Incident) :
    Prop where
  aside : Aside m v v'
  rules : v'.core.rules = v.core.rules
  incidents : v'.core.incidents = v.core.incidents.put id incident

theorem noted_of_note (h : Unrelated m (note v id incident) w) : Noted m v w id incident := by
  have haside : Aside m v (note v id incident) := ⟨rfl, rfl, rfl, rfl⟩
  exact ⟨haside.trans h.aside, h.beside.rules, h.beside.incidents⟩

/-- A new incident, as it is first stored. -/
structure Fresh (m ruleId : Uuid) (startedAt : Time) (incident : Incident) : Prop where
  monitor : incident.monitorId = m
  rule : incident.alertRuleId = ruleId
  status : incident.status = .isOpen
  startedAt : incident.startedAt = startedAt

variable {now : Time}

variable {organizationId environmentId : Uuid} {startedAt : Time}

theorem createOpenIncident_some {e : Effect Database Key (Option Uuid)}
    (hnone : openIncidentOf v.core m ruleId = none)
    (he : createOpenIncident organizationId environmentId m ruleId startedAt now
      begun env busy v = some e) :
    ∃ id incident, e.value = some id ∧ v.core.incidents.find id = none ∧
      Fresh m ruleId startedAt incident ∧ e.write v = note v id incident := by
  obtain ⟨e', he', hvalue, -, hwrite⟩ := onCore_some he
  rw [hnone] at he'
  dsimp only at he'
  split at he'
  · cases he'
  · next hfree =>
    cases he'
    exact ⟨env.uuid, _, hvalue, hfree, ⟨rfl, rfl, rfl, rfl⟩, hwrite v⟩

variable {job : Uuid}

theorem openIncident_returns (hnone : openIncidentOf v.core m ruleId = none) :
    Returns remote begun (fun _ v' => ∃ id incident,
      v.core.incidents.find id = none ∧ Fresh m ruleId startedAt incident ∧
      Noted m v v' id incident)
      (openIncident organizationId environmentId m ruleId job startedAt now) v := by
  refine returns_query (fun env busy e he => ?_) (fun _ => ⟨_, rfl⟩)
  obtain ⟨id, incident, hvalue, hfree, hnew, hwrite⟩ :=
    createOpenIncident_some hnone he
  rw [hvalue, hwrite]
  refine returns_bind (insertEvent_returns (m := m) _) (fun _ v₁ h₁ => ?_) (fun _ => ⟨_, rfl⟩)
  refine returns_bind (enqueueIncidentEventTx_returns (m := m) _ _)
    (fun _ v₂ h₂ => ?_) (fun _ => ⟨_, rfl⟩)
  exact returns_ok ⟨id, incident, hfree, hnew, noted_of_note (h₁.trans h₂)⟩

/-- A resolved incident, as it is stored over the open one. -/
structure Closed (incident : Incident) (kind : ResolutionKind)
    (incident' : Incident) : Prop where
  monitor : incident'.monitorId = incident.monitorId
  rule : incident'.alertRuleId = incident.alertRuleId
  status : incident'.status = .resolved
  kind : incident'.resolutionKind = some kind

variable {reason : String} {actor : Option Uuid} {kind : ResolutionKind}

theorem resolveOpenIncident_some {e : Effect Database Key Nat}
    (hfind : v.core.incidents.find id = some incident) (hopen : incident.status = .isOpen)
    (he : resolveOpenIncident id now actor kind reason begun env busy v = some e) :
    ∃ incident', e.value = 1 ∧ Closed incident kind incident' ∧
      e.write v = note v id incident' := by
  obtain ⟨e', he', hvalue, -, hwrite⟩ := onCore_some he
  rw [hfind] at he'
  dsimp only at he'
  rw [if_neg (by simp [hopen])] at he'
  split at he'
  · cases he'
  · cases he'
    refine ⟨_, hvalue, ?_, hwrite v⟩
    exact ⟨rfl, rfl, rfl, rfl⟩

theorem resolveIncident_returns {job : Option Uuid}
    (hfind : v.core.incidents.find id = some incident) (hopen : incident.status = .isOpen) :
    Returns remote begun (fun _ v' => ∃ incident', Closed incident kind incident' ∧
      Noted m v v' id incident')
      (resolveIncident id job kind actor reason now) v := by
  refine returns_query (fun env busy e he => ?_) (fun _ => ⟨_, rfl⟩)
  obtain ⟨incident', hvalue, hclosed, hwrite⟩ :=
    resolveOpenIncident_some hfind hopen he
  rw [hvalue, hwrite]
  refine returns_readCore ?_ (fun _ => ⟨_, rfl⟩)
  split
  · refine returns_bind (insertEvent_returns (m := m) _) (fun _ v₁ h₁ => ?_) (fun _ => ⟨_, rfl⟩)
    refine returns_bind (enqueueIncidentEventTx_returns (m := m) _ _)
      (fun _ v₂ h₂ => ?_) (fun _ => ⟨_, rfl⟩)
    exact returns_ok ⟨incident', hclosed, noted_of_note (h₁.trans h₂)⟩
  · exact returns_error

/-! ## The application -/

/-- The default rule has the default limits. -/
theorem ensureDefaultAlertRule_some (he : ensureDefaultAlertRule m begun env busy v = some e) :
    Aside m v (e.write v) ∧ (e.write v).core.incidents = v.core.incidents ∧
      ∀ rule, v.core.rules.find m = some rule →
        (e.write v).core.rules.find m = some rule := by
  obtain ⟨e', he', -, -, hwrite⟩ := onCore_some he
  rw [hwrite]
  split at he'
  · next monitor hmonitor hnone =>
    split at he'
    · cases he'
    cases he'
    refine ⟨⟨rfl, rfl, rfl, ?_⟩, rfl, fun rule hrule => ?_⟩
    · unfold limits alertThresholds
      simp only [Table.find_put, hnone]
      rfl
    · rw [hnone] at hrule
      cases hrule
  · cases he'
    exact ⟨⟨rfl, rfl, rfl, rfl⟩, rfl, fun _ hrule => hrule⟩

/-- The rule of a monitor is in force. -/
def InForce (c : Core) (m : Uuid) (rule : AlertRule) : Prop :=
  c.rules.find m = some rule ∧ rule.enabled = true

/-- What an application does, seen from the rows `c` it finds after the
evaluation: `c'` is what it leaves. -/
inductive Applied (m : Uuid) (corrected : Bool) (c c' : Core) : Prop
  | idle (hsame : c'.incidents = c.incidents)
      (hwhy : ∀ rule, InForce c' m rule → c.states.find m = none ∨
        openIncidentOf c m rule.id = none ∨ (snapshotOf c m).observed = .down ∨
        (corrected = false ∧ (snapshotOf c m).observed ≠ .healthy))
  | opened {rule : AlertRule} {id : Uuid} {incident : Incident} {now : Time}
      (hrule : InForce c' m rule) (hdown : (snapshotOf c m).observed = .down)
      (hnone : openIncidentOf c m rule.id = none)
      (hfree : c.incidents.find id = none)
      (hnew : Fresh m rule.id ((((orderedEvaluations c m).reverse.take
        rule.failureThreshold.val).map fun e => e.row.scheduledAt).getLast?.getD now)
        incident)
      (hput : c'.incidents = c.incidents.put id incident)
  | resolved {rule : AlertRule} {id : Uuid} {incident incident' : Incident}
      {kind : ResolutionKind} (hrule : InForce c' m rule)
      (hup : (snapshotOf c m).observed ≠ .down)
      (hopen : openIncidentOf c m rule.id = some id)
      (hfind : c.incidents.find id = some incident)
      (hkind : if corrected then kind = .lateResultCorrection
        else kind = .automaticRecovery ∧ (snapshotOf c m).observed = .healthy)
      (hclosed : Closed incident kind incident')
      (hput : c'.incidents = c.incidents.put id incident')

/-- The same, of all rows: what an evaluation is about stays, and so does the
rule of the monitor. -/
structure AppliedFrom (m : Uuid) (corrected : Bool) (v v' : Database) : Prop where
  aside : Aside m v v'
  rules : ∀ rule, v.core.rules.find m = some rule → v'.core.rules.find m = some rule
  applied : Applied m corrected v.core v'.core

variable {corrected : Bool}

theorem AppliedFrom.journaled {v'' : Database} (h : AppliedFrom m corrected v v')
    (hj : Journaled v' v'') :
    AppliedFrom m corrected v v'' := by
  refine ⟨h.aside.trans hj.unrelated.aside, ?_, ?_⟩
  · rw [hj.core]; exact h.rules
  · rw [hj.core]; exact h.applied

theorem enabledAlertRule_some {rule : EnabledAlertRule} (h : enabledAlertRule c m = some rule) :
    ∃ row, InForce c m row ∧ rule.ruleId = row.id ∧ rule.failureThreshold = row.failureThreshold ∧
      rule.observedState = (snapshotOf c m).observed := by
  unfold enabledAlertRule at h
  split at h
  · next row state hrow hstate =>
    split at h
    · next henabled =>
      cases h
      refine ⟨row, ⟨hrow, henabled⟩, rfl, rfl, ?_⟩
      unfold snapshotOf
      rw [hstate]
      rfl
    · cases h
  · cases h

theorem enabledAlertRule_none {row : AlertRule} (h : enabledAlertRule c m = none)
    (hrule : InForce c m row) :
    c.states.find m = none := by
  unfold enabledAlertRule at h
  rw [hrule.1] at h
  cases hstate : c.states.find m with
  | none => rfl
  | some state => simp [hstate, hrule.2] at h

theorem lockOpenIncident_some {e : Effect Database Key (Option Uuid)}
    (he : lockOpenIncident m ruleId begun env busy v = some e) :
    e.value = openIncidentOf v.core m ruleId ∧ ∀ db, e.write db = db := by
  obtain ⟨e', he', hvalue, -, hwrite⟩ := onCore_some he
  split at he'
  · next hnone =>
    cases he'
    exact ⟨hvalue.trans hnone.symm, hwrite⟩
  · next id hsome =>
    cases he'
    exact ⟨hvalue.trans hsome.symm, hwrite⟩

theorem applyEvaluationTx_returns : Returns remote begun (fun _ v' => AppliedFrom m corrected v v')
      (applyEvaluationTx m job corrected now) v := by
  refine returns_query (fun env busy e he => ?_) (fun _ => ⟨_, rfl⟩)
  obtain ⟨haside, hincidents, hkept⟩ := ensureDefaultAlertRule_some he
  generalize e.write v = v₁ at haside hincidents hkept
  have hsnap := snapshotOf_congr haside.states m
  refine returns_readCore ?_ (fun _ => ⟨_, rfl⟩)
  cases hfound : enabledAlertRule v₁.core m with
  | none =>
    refine returns_ok ⟨haside, hkept, .idle hincidents fun rule hrule => .inl ?_⟩
    rw [← haside.states]
    exact enabledAlertRule_none hfound hrule
  | some rule =>
  obtain ⟨row, hrow, hid, hthreshold, hobserved⟩ := enabledAlertRule_some hfound
  have hopen := openIncidentOf_congr hincidents m row.id
  rw [hsnap] at hobserved
  refine returns_query (fun env busy e he => ?_) (fun _ => ⟨_, rfl⟩)
  obtain ⟨hvalue, hsame⟩ := lockOpenIncident_some he
  rw [hsame, hvalue, hid, hopen]
  have hidle : (openIncidentOf v.core m row.id = none ∨ (snapshotOf v.core m).observed = .down ∨
      (corrected = false ∧ (snapshotOf v.core m).observed ≠ .healthy)) →
      Applied m corrected v.core v₁.core := by
    intro hwhy
    refine .idle hincidents fun rule' hrule' => .inr ?_
    have : rule' = row := Option.some.inj (hrule'.1.symm.trans hrow.1)
    rw [this]
    exact hwhy
  dsimp only
  split
  · next hdown =>
    rw [hobserved] at hdown
    split
    · exact returns_ok ⟨haside, hkept, hidle (.inr (.inl hdown))⟩
    next hnone =>
    -- down, and no incident is open
    have hnone' : openIncidentOf v.core m row.id = none := by
      simpa using hnone
    refine returns_readCore ?_ (fun _ => ⟨_, rfl⟩)
    refine (openIncident_returns (hopen.trans hnone')).mono ?_
    rintro _ v' ⟨id, incident, hfree, hnew, hnoted⟩
    refine ⟨haside.trans hnoted.aside, hnoted.rules ▸ hkept, ?_⟩
    have hevals : orderedEvaluations v₁.core m =
        orderedEvaluations v.core m := by
      unfold orderedEvaluations
      rw [haside.evaluations]
    rw [hevals, hthreshold] at hnew
    rw [hincidents] at hfree
    refine .opened ⟨hnoted.rules ▸ hrow.1, hrow.2⟩ hdown hnone' hfree hnew ?_
    rw [hnoted.incidents, hincidents]
  · next hup =>
    rw [hobserved] at hup
    cases hcase : openIncidentOf v.core m row.id with
    | none => exact returns_ok ⟨haside, hkept, hidle (.inl hcase)⟩
    | some id =>
    obtain ⟨incident, hfind, -, -, hstatus⟩ := openIncidentOf_some hcase
    have hfind₁ : v₁.core.incidents.find id = some incident := by
      rw [hincidents]; exact hfind
    dsimp only
    split
    · next hcorrected =>
      refine (resolveIncident_returns (m := m) hfind₁ hstatus).mono ?_
      rintro _ v' ⟨incident', hclosed, hnoted⟩
      refine ⟨haside.trans hnoted.aside, hnoted.rules ▸ hkept, ?_⟩
      refine .resolved ⟨hnoted.rules ▸ hrow.1, hrow.2⟩ hup hcase hfind ?_ hclosed ?_
      · rw [if_pos hcorrected]
      · rw [hnoted.incidents, hincidents]
    next hcorrected =>
    split
    · next hhealthy =>
      rw [hobserved] at hhealthy
      refine (resolveIncident_returns (m := m) hfind₁ hstatus).mono ?_
      rintro _ v' ⟨incident', hclosed, hnoted⟩
      refine ⟨haside.trans hnoted.aside, hnoted.rules ▸ hkept, ?_⟩
      refine .resolved ⟨hnoted.rules ▸ hrow.1, hrow.2⟩ hup hcase hfind ?_ hclosed ?_
      · rw [if_neg hcorrected]
        exact ⟨rfl, hhealthy⟩
      · rw [hnoted.incidents, hincidents]
    · next hhealthy =>
      rw [hobserved] at hhealthy
      exact returns_ok ⟨haside, hkept, hidle (.inr (.inr ⟨by simpa using hcorrected, hhealthy⟩))⟩

variable {job : LockedJob}

variable {evaluatedAt : Time}

/-- Once the incidents are dealt with, only the journal is written. -/
theorem applyScheduled_then {late : Bool} {Mid : Database → Prop}
    (hfirst : Returns remote begun (fun _ u => Mid u)
      (if late then pure (.ok ()) else
        applyEvaluationTx job.row.monitorId job.id corrected evaluatedAt) v)
    (hmid : ∀ {u u'}, Mid u → Journaled u u' → Mid u') :
    Returns remote begun (fun _ u => Mid u)
      (applyScheduled job evaluatedAt late corrected) v := by
  unfold applyScheduled
  refine returns_bind hfirst (fun _ v₁ h₁ => ?_) (fun _ => ⟨_, rfl⟩)
  refine returns_bind (?_ : Returns remote begun (fun _ v₂ => Journaled v₁ v₂) _ v₁)
    (fun _ v₂ h₂ => ?_) (fun _ => ⟨_, rfl⟩)
  · split
    · exact returns_last fun env busy e he => onJournal_journaled he
    · exact returns_ok ⟨rfl, rfl⟩
  refine returns_query (fun env busy e he => ?_) (fun _ => ⟨_, rfl⟩)
  have h₃ := upsertRollupInvalidation_journaled he
  refine returns_query (fun env busy e' he' => ?_) (fun _ => ⟨_, rfl⟩)
  have h₄ := upsertRollupInvalidation_journaled he'
  exact returns_ok (hmid h₁ (h₂.trans (h₃.trans h₄)))

/-- Everything after the evaluation, for a result that was in time. -/
theorem applyScheduled_returns (hm : job.row.monitorId = m) :
    Returns remote begun (fun _ v' => AppliedFrom m corrected v v')
      (applyScheduled job evaluatedAt false corrected) v := by
  refine applyScheduled_then ?_ AppliedFrom.journaled
  rw [hm]
  exact applyEvaluationTx_returns

/-- The same for one that was too late. -/
theorem applyScheduled_late (evaluatedAt : Time) : Returns remote begun (fun _ v' => Journaled v v')
      (applyScheduled job evaluatedAt true corrected) v :=
  applyScheduled_then (returns_ok ⟨rfl, rfl⟩) Journaled.trans

end WatchTrace.Proofs
