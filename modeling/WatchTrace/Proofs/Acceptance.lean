import WatchTrace.Proofs.Outbox

/-!
# Jobs and their results

A job is completed by the transaction that accepts its result and by nothing
else, so the state of a job and the existence of its check say the same. From
there on every delivery for the job is one too many, and leaves no trace in
anything derived from the check. What a consumer acknowledges is on record
before it does.
-/

namespace WatchTrace.Proofs

open Tx Model Spec Protocol

variable {P : Primitives}

/-! ## Job states -/

variable {s : System}

variable {j : Uuid}

theorem job_of_run {s' : System} (hs : Reachable P s) (hrun : Run P s s') {job : CheckJob}
    (hj : s.db.ledger.jobs.find j = some job) :
    ∃ job', s'.db.ledger.jobs.find j = some job' ∧
      JobMay job.state job'.state := by
  refine ledger_invariant (I := fun l => ∃ job', l.jobs.find j = some job' ∧
    JobMay job.state job'.state) ?_ hs ⟨job, hj, JobMay.refl _⟩ hrun
  rintro L x y hx hc ⟨job', hj', hmay⟩
  have hstep := hc.jobs j
  rw [hj'] at hstep
  obtain ⟨job'', hj'', -, hmay'⟩ := hstep.of_some
  exact ⟨job'', hj'', hmay.trans hmay'⟩

/-- The states a job does not leave, except for one another. -/
def terminal : JobState → Bool
  | .completed | .expired | .dead => true
  | _ => false

theorem terminal_of_jobMay {a b : JobState} (h : JobMay a b)
    (ha : terminal a = true) : terminal b = true := by
  rcases h with rfl | ⟨hu, -⟩ | ⟨-, rfl | rfl | rfl⟩
  · exact ha
  · revert ha hu
    cases a <;> simp [terminal, JobState.unpublished]
  · rfl
  · rfl
  · rfl

/-- The job ledger as a state machine: `completed` is final, a terminal state
gives way to a terminal state only, and a job is completed exactly when its
check is there. -/
theorem job_state_machine {s s' : System} (hs : Reachable P s) (hrun : Run P s s')
    {j : Uuid} {job : CheckJob} (hj : s.db.ledger.jobs.find j = some job) :
    ∃ job', s'.db.ledger.jobs.find j = some job' ∧
      (job.state = .completed → job'.state = .completed) ∧
      (job.state = .completed ∨ job.state = .expired ∨ job.state = .dead →
        job'.state ≠ .pendingPublish ∧ job'.state ≠ .published ∧ job'.state ≠ .running) ∧
      (job.state = .expired ∨ job.state = .dead →
        job'.state = .expired ∨ job'.state = .dead ∨ job'.state = .completed) ∧
      (job'.state = .completed ↔ s'.db.ledger.checks.find j ≠ none) := by
  obtain ⟨job', hj', hmay⟩ := job_of_run hs hrun hj
  have hwf : WellFormed s'.db.ledger := reachable_wellFormed (hs.trans hrun)
  have hterm : job.state = .completed ∨ job.state = .expired ∨
      job.state = .dead → terminal job'.state = true := by
    intro h
    refine terminal_of_jobMay hmay ?_
    rcases h with h | h | h <;> rw [h] <;> rfl
  refine ⟨job', hj', fun h => ?_, fun h => ?_, fun h => ?_, hwf.completed hj'⟩
  · rcases hmay with heq | ⟨hu, -⟩ | ⟨hne, -⟩
    · rw [heq, h]
    · rw [h] at hu; cases hu
    · exact absurd h hne
  · have := hterm h
    refine ⟨?_, ?_, ?_⟩ <;> intro heq <;> rw [heq] at this <;> cases this
  · have := hterm (.inr h)
    revert this
    cases job'.state <;> simp [terminal]

theorem job_state_machine_sample :
    ∃ s s' job job', Reachable Sample.primitives s ∧ Run Sample.primitives s s' ∧
      s.db.ledger.jobs.find 11 = some job ∧ job.state = .expired ∧
      s'.db.ledger.jobs.find 11 = some job' ∧
      (job'.state = .expired ∨ job'.state = .dead ∨ job'.state = .completed) ∧
      (job'.state = .completed ↔ s'.db.ledger.checks.find 11 ≠ none) := by
  have hfair := Sample.fair_append Sample.fair_scheduling (Sample.fair_expiring 1)
  obtain ⟨s, s', hs, hreach, hrun, -⟩ := Sample.run_of_scripts hfair
    (Sample.fair_consuming 2 601 21) (f := Sample.publishState)
    (a := some .repaired) (by decide +kernel)
  have hstate : (Sample.beginning.run remote (Sample.scheduling ++
      Sample.expiring 1)).map (fun s => (s.db.ledger.jobs.find 11).map
        CheckJob.state) = some (some .expired) := by decide +kernel
  rw [hs] at hstate
  obtain ⟨job, hjob, hexpired⟩ := Option.map_eq_some_iff.mp (Option.some.inj hstate)
  obtain ⟨job', hjob', -, -, hmoves, hiff⟩ := job_state_machine hreach hrun hjob
  exact ⟨s, s', job, job', hreach, hrun, hjob, hexpired, hjob', hmoves (.inl hexpired), hiff⟩

/-! ## Deliveries -/

/-- What holds of deliveries between moves: a call that has pulled one is
still with it, and what was acknowledged is on record. -/
structure Attended (P : Primitives) (p : Abs) : Prop where
  pulled : ∀ {i d}, p.1.2.pulled i = some d → p.2[(i : Nat)]? = some (Local.consuming d)
  acknowledged : ∀ {d}, d ∈ p.1.2.acknowledged → Evidence P d p.1.1.ledger

variable {d : ResultDelivery}

variable {i : Nat}

/-- One call moves on; calls that have pulled a delivery stay with it. -/
theorem consuming_set {as : List Local} {a a' : Local} (hi : as[i]? = some a)
    (ha : ∀ d, a = .consuming d → a' = .consuming d) {k : Nat}
    (hk : as[k]? = some (Local.consuming d)) :
    (as.set i a')[k]? = some (Local.consuming d) := by
  rw [List.getElem?_set]
  split
  · next hik =>
    subst hik
    rw [hi] at hk
    rw [ha d (Option.some.inj hk), if_pos (List.getElem?_eq_some_iff.mp hi).1]
  · exact hk

theorem Evidence.commit {x y : Ledger} (hx : WellFormed x) (h : Evidence P d x) {L : List Key}
    (hc : Commit L x y) : Evidence P d y := by
  have hkeeps : Keeps (fun _ => False) x y := hc.keeps hx fun _ h => h.elim
  exact h.keep hkeeps

/-- Every move keeps to its deliveries. -/
theorem Attended.step {p q : Abs} (hstep : AbsStep (fifo P) p q)
    (hwf : WellFormed p.1.1.ledger) (h : Attended P p) : Attended P q := by
  cases hstep with
  | spawn =>
    refine ⟨fun {i d} hd => ?_, h.acknowledged⟩
    have hi := h.pulled hd
    rw [List.getElem?_append_left (List.getElem?_eq_some_iff.mp hi).1]
    exact hi
  | move hi hm =>
  cases hm with
  | stay => exact ⟨fun hd => consuming_set hi (fun _ h => h) (h.pulled hd), h.acknowledged⟩
  | commit hc =>
    exact ⟨fun hd => consuming_set hi (fun _ h => h) (h.pulled hd),
      fun hd => Evidence.commit hwf (h.acknowledged hd) hc⟩
  | claim hc =>
    exact ⟨fun hd => consuming_set hi nofun (h.pulled hd),
      fun hd => Evidence.commit hwf (h.acknowledged hd) hc⟩
  | send => exact ⟨fun hd => consuming_set hi nofun (h.pulled hd), h.acknowledged⟩
  | pull =>
    refine ⟨fun {k d} hd => ?_, h.acknowledged⟩
    dsimp only at hd
    split at hd
    · next hki =>
      subst hki
      cases hd
      rw [List.getElem?_set_self (List.getElem?_eq_some_iff.mp hi).1]
    · exact consuming_set hi nofun (h.pulled hd)
  | consume hc =>
    exact ⟨fun hd => consuming_set hi (fun _ h => h) (h.pulled hd),
      fun hd => Evidence.commit hwf (h.acknowledged hd) hc⟩
  | acknowledge hev =>
    refine ⟨fun hd => consuming_set hi (fun _ h => h) (h.pulled hd), ?_⟩
    intro d hd
    rcases List.mem_append.mp hd with hold | hnew
    · exact h.acknowledged hold
    · rw [List.mem_singleton.mp hnew]
      exact hev

theorem attended (hs : Reachable P s) : ∃ as, Related (fifo P) remote s as ∧
      Attended P ((s.db, s.world), as) :=
  reachable_invariant (I := Attended P) (fun _ _ => ⟨nofun, nofun⟩)
    (fun hstep hwf h => h.step hstep hwf) hs

theorem Untouched.refl (x : Database) : Untouched x x := ⟨rfl, rfl, rfl, rfl⟩

/-- A step of a call that has pulled a delivery for a job that has its check. -/
theorem untouched_of_step {t : System} (hs : Reachable P s) {env : Env} {fate : Fate}
    (hstep : s.step remote (.step i env fate) = some t) (hpulled : s.world.pulled i = some d)
    {result : Result} (hd : Delivers P d result j) (hcheck : s.db.ledger.checks.find j ≠ none) :
    Untouched s.db t.db := by
  obtain ⟨as, hrel, hatt⟩ := attended hs
  have hlocal : as[i]? = some (Local.consuming d) := hatt.pulled hpulled
  obtain ⟨_, h, -⟩ | ⟨_, h, -⟩ | ⟨_, _, _, p, p', db, w, hact, hp, hadv, rfl⟩ :=
    Sys.step_cases hstep
  · cases h
  · cases h
  · cases hact
    obtain ⟨a', hmove⟩ := hrel.advance hp hlocal hadv
    rcases hmove with ⟨-, hsame⟩ | hmove
    · cases hsame
      exact Untouched.refl _
    · -- the moves of a call that is with a delivery
      cases hmove with
      | stay => exact Untouched.refl _
      | consume _ hsame => exact hsame result j hd hcheck
      | acknowledge => exact Untouched.refl _

/-- Exactly once, and acknowledged only when durable. Every job has at most one
check, which is never changed; a delivery of the result that was accepted
changes nothing derived from it; and an acknowledged delivery is on record, as
the accepted check of its job or as a conflict. -/
theorem exactly_once_acceptance {s s' : System} (hs : Reachable P s) (hrun : Run P s s') :
    ((s.db.ledger.checks.rows.map Prod.fst).Nodup ∧
      ∀ j check, s.db.ledger.checks.find j = some check → s'.db.ledger.checks.find j = some check) ∧
    (∀ i env fate t d result j check,
      s.step remote (.step i env fate) = some t → s.world.pulled i = some d →
      Delivers P d result j → s.db.ledger.checks.find j = some check →
      Carries check result → Untouched s.db t.db) ∧
    ∀ d ∈ s.world.acknowledged, Evidence P d s.db.ledger := by
  refine ⟨⟨Table.nodup_keys _, fun j check hcheck => ?_⟩, ?_, fun d hd => ?_⟩
  · exact ledger_invariant (I := fun l => l.checks.find j = some check)
      (fun _ hc h => hc.checks h) hs hcheck hrun
  · intro i env fate t d result j check hstep hpulled hd hcheck _
    exact untouched_of_step hs hstep hpulled hd (by rw [hcheck]; exact Option.some_ne_none _)
  · obtain ⟨as, -, hatt⟩ := attended hs
    exact hatt.acknowledged hd

theorem exactly_once_acceptance_sample :
    ∃ s s' check, Reachable Sample.primitives s ∧ Run Sample.primitives s s' ∧
      s.db.ledger.checks.find 11 = some check ∧
      s'.db.ledger.checks.find 11 = some check ∧
      s'.world.acknowledged.length = 2 ∧
      ∀ d ∈ s'.world.acknowledged, Evidence Sample.primitives d s'.db.ledger := by
  have hfair := Sample.fair_append Sample.fair_scheduling (Sample.fair_consuming 1 62 21)
  obtain ⟨s, s', hs, hreach, hrun, hlen⟩ := Sample.run_of_scripts hfair
    (Sample.fair_consuming 2 63 21) (f := fun s => s.world.acknowledged.length)
    (a := 2) (by decide +kernel)
  have hfound : (Sample.beginning.run remote (Sample.scheduling ++
      Sample.consuming 1 62 21)).map (fun s =>
        (s.db.ledger.checks.find 11).isSome) = some true := by decide +kernel
  rw [hs] at hfound
  obtain ⟨check, hcheck⟩ := Option.isSome_iff_exists.mp (Option.some.inj hfound)
  exact ⟨s, s', check, hreach, hrun, hcheck,
    (exactly_once_acceptance hreach hrun).1.2 11 check hcheck, hlen,
    (exactly_once_acceptance (hreach.trans hrun) .refl).2.2⟩

end WatchTrace.Proofs
