import WatchTrace.Spec.Observation

/-!
# Counters when thresholds change

An evaluation counts under the thresholds of its time, and goes on from a state
that was counted under others: the last one, or an older one where a correction
goes back. No state has to be trusted for that. Whatever the baseline, one step
leaves counters that its own thresholds bound.
-/

namespace WatchTrace.Proofs.Counters

open Model Spec

/-- The evaluation of one result. `baseline` says which of the states before, the
newest first, it goes on from; there is always the initial one. -/
structure Pass where
  limits : Limits
  result : ObservedResult
  baseline : Nat

/-- The states some evaluations lead to, the newest first. -/
def states : List Pass → List Counters
  | [] => []
  | pass :: before =>
    advance pass.limits ((states before).getD pass.baseline .start) pass.result :: states before

/-- A threshold as `alert_rules` admits it. -/
def Admitted (limits : Limits) : Prop :=
  (1 ≤ limits.failure ∧ limits.failure ≤ 20) ∧ 1 ≤ limits.recovery ∧ limits.recovery ≤ 20

/-- A Go `int16`. -/
def int16 (x : Int) : Int := x.bmod (2 ^ 16)

/-- What the state after a result is like. -/
structure InRange (pass : Pass) (c : Counters) : Prop where
  failures : c.2.1 ≤ 20
  successes : c.2.2 ≤ 20
  one : c.2.1 = 0 ∨ c.2.2 = 0
  reached : pass.result.succeeded = false → c.1 = .down → c.2.1 = pass.limits.failure
  known : c.1 ∈ [ObservedState.healthy, .degraded, .down]

variable {pass : Pass} {c : Counters}

theorem advance_inRange (h : Admitted pass.limits) (baseline : Counters) :
    InRange pass (advance pass.limits baseline pass.result) := by
  obtain ⟨⟨-, hfailure⟩, -, hrecovery⟩ := h
  unfold advance advanceObservedState
  split
  · next hsucceeded =>
    have hreached : ∀ {c : Counters}, pass.result.succeeded = false → c.1 = .down →
        c.2.1 = pass.limits.failure := fun h => absurd (hsucceeded.symm.trans h) (by decide)
    split
    · split
      · exact ⟨Nat.zero_le _, Nat.zero_le _, .inl rfl, hreached, by simp⟩
      · next hfew => exact ⟨Nat.zero_le _, by dsimp only; omega, .inl rfl, hreached, by simp⟩
    · exact ⟨Nat.zero_le _, Nat.zero_le _, .inl rfl, hreached, by simp⟩
  dsimp only
  generalize (if baseline.2.1 < pass.limits.failure then baseline.2.1 + 1 else baseline.2.1)
    = failures
  split
  · exact ⟨hfailure, Nat.zero_le _, .inr rfl, fun _ _ => rfl, by simp⟩
  · next hfew =>
    exact ⟨by dsimp only; omega, Nat.zero_le _, .inr rfl, fun _ h => (by cases h), by simp⟩

theorem inRange_of_mem {passes : List Pass} (h : ∀ pass ∈ passes, Admitted pass.limits)
    (hmem : (pass, c) ∈ passes.zip (states passes)) : InRange pass c := by
  induction passes with
  | nil => cases hmem
  | cons p before ih =>
    obtain ⟨hp, hbefore⟩ := List.forall_mem_cons.1 h
    rw [states, List.zip_cons_cons, List.mem_cons] at hmem
    rcases hmem with heq | hmem
    · cases heq
      exact advance_inRange hp _
    · exact ih hbefore hmem

theorem InRange.admissible (h : InRange pass c) : countersAdmissible c.2.1 c.2.2 := by
  simp [countersAdmissible, h.failures, h.successes]

theorem int16_of_le {n : Nat} (h : n ≤ 20) : int16 n = n :=
  Int.bmod_eq_of_le (by omega) (by omega)

/-- The rows of an evaluation are ones that their tables take. -/
def Stored (pass : Pass) (c : Counters) : Prop :=
  ∀ (m : Uuid) (display : ObservedState) (expected : Option Time) (job : Option Uuid)
    (begun env : Env) (busy : Key → Bool) (db : Database),
    (upsertMonitorResultEvaluation m pass.result c.1 c.2.1 c.2.2 begun env busy db).isSome ∧
      (updateMonitorReliabilityState m display c.1 c.2.1 c.2.2 (some pass.result.scheduledAt)
        (some pass.result.jobId) expected job begun env busy db).isSome

theorem InRange.stored (h : InRange pass c) : Stored pass c := by
  intro m display expected job begun env busy db
  have hknown : c.1 ≠ .unknown := by
    intro hc
    simpa [hc] using h.known
  constructor
  · rw [upsertMonitorResultEvaluation, onCore_of (if_neg (by simp [hknown, h.admissible]))]
    rfl
  · rw [updateMonitorReliabilityState, onCore, Tx.Stmt.zoom, Option.isSome_map]
    split
    · rfl
    · rw [if_neg (by simp [h.admissible])]
      rfl

/-- **Counters stay in range when thresholds change.** Every result of every
sequence of evaluations, each under its own thresholds and from a baseline of its
own, leaves counters in range, of which one is zero; after a failure that makes
the monitor down the failures are the threshold; the state is known. The columns
hold the counters exactly and no constraint refuses them. -/
theorem counters_in_range (passes : List Pass) (h : ∀ pass ∈ passes, Admitted pass.limits) :
    ∀ entry ∈ passes.zip (states passes), InRange entry.1 entry.2 ∧
      (int16 entry.2.2.1 = entry.2.2.1 ∧ int16 entry.2.2.2 = entry.2.2.2) ∧
      Stored entry.1 entry.2 := by
  rintro ⟨pass, c⟩ hmem
  have hrange := inRange_of_mem h hmem
  exact ⟨hrange, ⟨int16_of_le hrange.failures, int16_of_le hrange.successes⟩, hrange.stored⟩

/-- A monitor that goes down under one threshold, and a result that is evaluated
under a lower one from where it began. -/
theorem counters_in_range_sample : states [⟨⟨1, 1⟩, ⟨9, 2, false⟩, 7⟩, ⟨⟨20, 20⟩, ⟨8, 1, false⟩, 0⟩]
        = [(.down, 1, 0), (.degraded, 1, 0)] ∧
      ∀ entry ∈ List.zip [⟨⟨1, 1⟩, ⟨9, 2, false⟩, 7⟩, ⟨⟨20, 20⟩, ⟨8, 1, false⟩, 0⟩]
          (states [⟨⟨1, 1⟩, ⟨9, 2, false⟩, 7⟩, ⟨⟨20, 20⟩, ⟨8, 1, false⟩, 0⟩]),
        InRange entry.1 entry.2 ∧
        (int16 entry.2.2.1 = entry.2.2.1 ∧ int16 entry.2.2.2 = entry.2.2.2) ∧
        Stored entry.1 entry.2 :=
  ⟨by decide, counters_in_range _ (by unfold Admitted; decide)⟩

end WatchTrace.Proofs.Counters
