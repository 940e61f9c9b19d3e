import WatchTrace.Tx.Listing
import WatchTrace.Model.Incident

/-!
# What an evaluation is for

The state of a monitor is a function of its results: the fold of
`advanceObservedState` over the results in the order of their slots. The
evaluator never computes it that way. It appends, or goes back to a slot and
replays from there, and keeps the intermediate states as rows to go back to.

This file says what those rows have to be. `history` is the fold with all its
intermediate states, and `Evaluated m lim rs c` says that the rows and the
state of monitor `m` in `c` are the history of the results `rs`.
-/

namespace WatchTrace.Spec

open Tx Model

/-! ## The fold -/

/-- An observed state with its two counters. -/
abbrev Counters := ObservedState × Nat × Nat

structure Limits where
  failure : Nat
  recovery : Nat

def Counters.start : Counters := (.unknown, 0, 0)

def advance (lim : Limits) (c : Counters) (r : ObservedResult) : Counters :=
  advanceObservedState c.1 c.2.1 c.2.2 r.succeeded lim.failure lim.recovery

def observation (lim : Limits) (rs : List ObservedResult) : Counters :=
  rs.foldl (advance lim) .start

/-- Every result with the state it led to. -/
def historyFrom (lim : Limits) : Counters → List ObservedResult → List (ObservedResult × Counters)
  | _, [] => []
  | c, r :: rs => (r, advance lim c r) :: historyFrom lim (advance lim c r) rs

def history (lim : Limits) (rs : List ObservedResult) :
    List (ObservedResult × Counters) := historyFrom lim .start rs

variable {lim : Limits}

theorem historyFrom_append (c : Counters) (rs rs' : List ObservedResult) :
    historyFrom lim c (rs ++ rs') =
      historyFrom lim c rs ++ historyFrom lim (rs.foldl (advance lim) c) rs' := by
  induction rs generalizing c with
  | nil => rfl
  | cons r rs ih => simp only [List.cons_append, historyFrom, List.foldl_cons, ih]

theorem map_fst_historyFrom (c : Counters) (rs : List ObservedResult) :
    (historyFrom lim c rs).map Prod.fst = rs := by
  induction rs generalizing c with
  | nil => rfl
  | cons r rs ih => simp only [historyFrom, List.map_cons, ih]

variable {rs : List ObservedResult}

variable {p : ObservedResult × Counters}

theorem mem_of_mem_historyFrom {c : Counters} (h : p ∈ historyFrom lim c rs) : p.1 ∈ rs := by
  have := List.mem_map_of_mem (f := Prod.fst) h
  rwa [map_fst_historyFrom] at this

theorem history_concat (rs : List ObservedResult) (r : ObservedResult) :
    history lim (rs ++ [r]) = history lim rs ++ [(r, observation lim (rs ++ [r]))] := by
  simp only [history, historyFrom_append, historyFrom, observation, List.foldl_append,
    List.foldl_cons, List.foldl_nil]

theorem observation_concat (rs : List ObservedResult) (r : ObservedResult) :
    observation lim (rs ++ [r]) = advance lim (observation lim rs) r := by
  simp only [observation, List.foldl_append, List.foldl_cons, List.foldl_nil]

/-- The newest entry is the newest result with the state of the whole fold. -/
theorem getLast?_history (rs : List ObservedResult) :
    (history lim rs).getLast? = rs.getLast?.map fun r => (r, observation lim rs) := by
  rcases List.eq_nil_or_concat rs with rfl | ⟨init, r, rfl⟩
  · rfl
  · rw [List.concat_eq_append, history_concat]
    simp

/-- What the history of a part of the slots is. -/
theorem filter_history (h : Ascending ObservedResult.key rs) (k : OrderKey) :
    ((history lim rs).filter fun p => p.1.key < k) =
      history lim (rs.filter fun r => r.key < k) := by
  have hcut := h.filter_append_filter (p := fun r => decide (r.key < k))
    (fun hab hb => by
      simp only [decide_eq_true_eq] at hb ⊢
      exact lt_trans hab hb)
  have hbefore : ∀ p ∈ historyFrom lim .start (rs.filter fun r => r.key < k),
      decide (p.1.key < k) = true := by
    intro p hp
    exact (List.mem_filter.mp (mem_of_mem_historyFrom hp)).2
  have hafter : ∀ c, ∀ p ∈ historyFrom lim c (rs.filter fun r => !decide (r.key < k)),
      ¬ decide (p.1.key < k) = true := by
    intro c p hp hlt
    have := (List.mem_filter.mp (mem_of_mem_historyFrom hp)).2
    simp [hlt] at this
  conv_lhs => rw [← hcut]
  rw [history, historyFrom_append, List.filter_append,
    List.filter_eq_self.mpr hbefore, List.filter_eq_nil_iff.mpr (hafter _),
    List.append_nil]
  rfl

/-! ## The rows -/

/-- The result an evaluation is about, and the state it records. -/
def EvaluatedResult.entry (e : EvaluatedResult) : ObservedResult × Counters :=
  (⟨e.jobId, e.row.scheduledAt, e.row.succeeded⟩,
    (e.row.observedState, e.row.consecutiveFailures, e.row.consecutiveSuccesses))

/-- The evaluations of a monitor, in the order of their slots. -/
def recorded (c : Core) (m : Uuid) : List (ObservedResult × Counters) :=
  (orderedEvaluations c m).map EvaluatedResult.entry

/-- The thresholds in force for a monitor. -/
def limits (c : Core) (m : Uuid) : Limits :=
  ⟨(evaluationLimits (alertThresholds c m)).1, (evaluationLimits (alertThresholds c m)).2⟩

/-- The state of a monitor; one without a row is in the default state. -/
def snapshotOf (c : Core) (m : Uuid) : StateSnapshot :=
  match c.states.find m with
  | none => {}
  | some state => state.snapshot

def StateSnapshot.counters (s : StateSnapshot) : Counters :=
  (s.observed, s.failures, s.successes)

/-- The snapshot is the state after the results `rs`. -/
structure Stands (lim : Limits) (rs : List ObservedResult) (s : StateSnapshot) :
    Prop where
  counters : StateSnapshot.counters s = observation lim rs
  lastAt : s.lastObservedAt = rs.getLast?.map ObservedResult.scheduledAt
  lastJob : s.lastObservedJob = rs.getLast?.map ObservedResult.jobId

/-- The state after one more result. -/
theorem Stands.concat {s : StateSnapshot} (h : Stands lim rs s) (r : ObservedResult) :
    Stands lim (rs ++ [r])
      { s with
        observed := (advance lim (StateSnapshot.counters s) r).1
        failures := (advance lim (StateSnapshot.counters s) r).2.1
        successes := (advance lim (StateSnapshot.counters s) r).2.2
        lastObservedAt := some r.scheduledAt, lastObservedJob := some r.jobId } := by
  refine ⟨?_, by simp, by simp⟩
  rw [observation_concat, ← h.counters]
  rfl

/-- The rows and the state of a monitor are the history of `rs`. -/
structure Evaluated (m : Uuid) (lim : Limits) (rs : List ObservedResult)
    (c : Core) : Prop where
  rows : recorded c m = history lim rs
  state : Stands lim rs (snapshotOf c m)
  limits : limits c m = lim

/-- Every evaluation is about a check of the same monitor:
`job_id … REFERENCES health_checks`. -/
def Rooted (db : Database) : Prop :=
  ∀ j e, db.core.evaluations.find j = some e →
    ∃ h, db.ledger.checks.find j = some h ∧ h.monitorId = e.monitorId

/-- Nothing is left to evaluate for a monitor. -/
structure UpToDate (m : Uuid) (lim : Limits) (db : Database) : Prop where
  evaluated : Evaluated m lim (scheduledChecks db.ledger m) db.core
  rooted : Rooted db

variable {m : Uuid}

variable {c c' : Core}

theorem recorded_congr (h : c'.evaluations = c.evaluations) (m : Uuid) :
    recorded c' m = recorded c m := by
  unfold recorded orderedEvaluations
  rw [h]

theorem limits_congr (h : c'.rules = c.rules) (m : Uuid) :
    limits c' m = limits c m := by
  unfold limits alertThresholds
  rw [h]

theorem snapshotOf_congr (h : c'.states = c.states) (m : Uuid) :
    snapshotOf c' m = snapshotOf c m := by
  unfold snapshotOf
  rw [h]

/-- Nothing that being up to date is about was touched. -/
structure Aside (m : Uuid) (v v' : Database) : Prop where
  ledger : v'.ledger = v.ledger
  evaluations : v'.core.evaluations = v.core.evaluations
  states : v'.core.states = v.core.states
  limits : limits v'.core m = limits v.core m

theorem Aside.refl (v : Database) : Aside m v v := ⟨rfl, rfl, rfl, rfl⟩

variable {v : Database}

theorem Aside.trans {u w : Database} (huv : Aside m u v) (hvw : Aside m v w) : Aside m u w :=
  ⟨hvw.ledger.trans huv.ledger, hvw.evaluations.trans huv.evaluations,
    hvw.states.trans huv.states, hvw.limits.trans huv.limits⟩

theorem UpToDate.aside {v' : Database} (h : UpToDate m lim v) (hv : Aside m v v') :
    UpToDate m lim v' := by
  refine ⟨⟨?_, ?_, hv.limits.trans h.evaluated.limits⟩, ?_⟩
  · rw [hv.ledger, recorded_congr hv.evaluations]
    exact h.evaluated.rows
  · rw [hv.ledger, snapshotOf_congr hv.states]
    exact h.evaluated.state
  · unfold Rooted
    rw [hv.ledger, hv.evaluations]
    exact h.rooted

variable {db : Database}

/-- A monitor with a result has a state row. -/
theorem UpToDate.state_row (h : UpToDate m lim db) (hne : scheduledChecks db.ledger m ≠ []) :
    db.core.states.find m ≠ none := by
  intro hnone
  have hlast := h.evaluated.state.lastAt
  unfold snapshotOf at hlast
  rw [hnone] at hlast
  have hmap : (scheduledChecks db.ledger m).getLast?.map
      ObservedResult.scheduledAt = none := hlast.symm
  rw [Option.map_eq_none_iff, List.getLast?_eq_none_iff] at hmap
  exact hne hmap

/-- The observed state is that of the fold. -/
theorem UpToDate.observed (h : UpToDate m lim db) :
    (snapshotOf db.core m).observed = (observation lim (scheduledChecks db.ledger m)).1 :=
  congrArg Prod.fst h.evaluated.state.counters

/-! ## Listings and look-ups -/

theorem orderKey_inj {t t' : Time} {j j' : Uuid} (h : orderKey t j = orderKey t' j') :
    t = t' ∧ j = j' := by
  have h' : (t, j) = (t', j') := h
  cases h'
  exact ⟨rfl, rfl⟩

theorem ascending_scheduledChecks (l : Ledger) (m : Uuid) :
    Ascending ObservedResult.key (scheduledChecks l m) := by
  refine Table.ascending_listing (t := l.checks) fun {e e' b b'} hb hb' hkey => ?_
  unfold HealthCheck.observed? at hb hb'
  split at hb
  · split at hb'
    · cases hb
      cases hb'
      exact (orderKey_inj hkey).2
    · cases hb'
  · cases hb

variable {l : Ledger} {r : ObservedResult}

theorem mem_scheduledChecks : r ∈ scheduledChecks l m ↔ ∃ h, l.checks.find r.jobId = some h ∧
      h.monitorId = m ∧ h.jobType = .scheduled ∧
      r = ⟨r.jobId, h.scheduledAt, h.succeeded⟩ := by
  refine (Table.mem_listing (t := l.checks)).trans ?_
  constructor
  · rintro ⟨j, h, hfind, hview⟩
    unfold HealthCheck.observed? at hview
    split at hview
    · next hcond =>
      cases hview
      exact ⟨h, hfind, hcond.1, hcond.2, rfl⟩
    · cases hview
  · rintro ⟨h, hfind, hm, ht, hr⟩
    refine ⟨r.jobId, h, hfind, ?_⟩
    unfold HealthCheck.observed?
    rw [if_pos ⟨hm, ht⟩, ← hr]

/-- A job has one check. -/
theorem scheduledChecks_inj {r' : ObservedResult} (hr : r ∈ scheduledChecks l m)
    (hr' : r' ∈ scheduledChecks l m) (hj : r.jobId = r'.jobId) : r = r' := by
  obtain ⟨h, hfind, -, -, heq⟩ := mem_scheduledChecks.mp hr
  obtain ⟨h', hfind', -, -, heq'⟩ := mem_scheduledChecks.mp hr'
  rw [hj, hfind'] at hfind
  cases hfind
  rw [heq, heq', hj]

theorem ascending_orderedEvaluations (c : Core) (m : Uuid) :
    Ascending EvaluatedResult.key (orderedEvaluations c m) := by
  refine Table.ascending_listing (t := c.evaluations) fun {e e' b b'} hb hb' hkey => ?_
  split at hb
  · split at hb'
    · cases hb
      cases hb'
      exact (orderKey_inj hkey).2
    · cases hb'
  · cases hb

theorem mem_orderedEvaluations {e : EvaluatedResult} : e ∈ orderedEvaluations c m ↔
      c.evaluations.find e.jobId = some e.row ∧ e.row.monitorId = m := by
  refine (Table.mem_listing (t := c.evaluations)).trans ?_
  constructor
  · rintro ⟨j, row, hfind, hview⟩
    split at hview
    · next hm =>
      cases hview
      exact ⟨hfind, hm⟩
    · cases hview
  · rintro ⟨hfind, hm⟩
    exact ⟨e.jobId, e.row, hfind, if_pos hm⟩

theorem ascending_recorded (c : Core) (m : Uuid) : Ascending (fun p => p.1.key) (recorded c m) :=
  List.pairwise_map.mpr (ascending_orderedEvaluations c m)

theorem mem_recorded : p ∈ recorded c m ↔ ∃ row, c.evaluations.find p.1.jobId = some row ∧
      row.monitorId = m ∧ EvaluatedResult.entry ⟨p.1.jobId, row⟩ = p := by
  unfold recorded
  rw [List.mem_map]
  constructor
  · rintro ⟨e, he, rfl⟩
    obtain ⟨hfind, hm⟩ := mem_orderedEvaluations.mp he
    exact ⟨e.row, hfind, hm, rfl⟩
  · rintro ⟨row, hfind, hm, heq⟩
    exact ⟨⟨p.1.jobId, row⟩, mem_orderedEvaluations.mpr ⟨hfind, hm⟩, heq⟩

end WatchTrace.Spec
