import WatchTrace.Proofs.Core

/-!
# Creating jobs keeps to the protocol

`ScheduleDue` and `TestNow` insert a job and its dispatch in one transaction.
Between the two inserts the job is new: nobody else can see it, and its key is
owned, so the dispatch is certain to be as new as the job.
-/

namespace WatchTrace.Proofs

open Tx Model Spec Protocol

variable {P : Primitives} {i : Nat} {x y : State} {j : Uuid} {α : Type}
variable {o : Open Database Key Env} {begun env : Env} {busy : Key → Bool}

/-! ## Statements -/

/-- A job that only this transaction knows of. -/
structure New (o : Open Database Key Env) (x : State) (j : Uuid) : Prop where
  owned : Key.job j ∈ o.locks
  hidden : x.1.ledger.jobs.find j = none
  seen : (o.write x.1).ledger.jobs.find j ≠ none

theorem New.later (h : New o x j) (hd : Draft o x)
    (hxy : Keeps (· ∈ o.locks) x.1.ledger y.1.ledger) : New o y j where
  owned := h.owned
  hidden := (hxy.job h.owned).1.trans h.hidden
  seen := by
    rw [hd.job_later h.owned hxy]
    exact h.seen

theorem slot_free {l : Ledger} {slot : Uuid × Time}
    (h : ¬ l.slotTaken slot = true) {k : Uuid} {a : CheckJob}
    (ha : l.jobs.find k = some a) : a.slot ≠ slot := by
  intro hslot
  refine h (List.any_eq_true.mpr ⟨(k, a), Table.mem_rows.mpr ha, ?_⟩)
  exact beq_iff_eq.mpr hslot

variable {job : CheckJob}

theorem draft_insertJob (value : α) (h : Draft o x)
    (hslot : ¬ (o.write x.1).ledger.slotTaken job.slot = true)
    (hnew : (o.write x.1).ledger.jobs.find j = none) (hs : job.state ≠ .completed) :
    Draft (o.extend (ledgerEffect (insertJob j job α value))) x ∧
      New (o.extend (ledgerEffect (insertJob j job α value))) x j := by
  refine ⟨h.addJob hnew (slot_free hslot) hs, ?_, ?_, ?_⟩
  · exact List.mem_append_left _ (List.mem_cons_self ..)
  · exact Classical.byContradiction fun hne => (h.now.jobs j).ne_none hne hnew
  · show ((o.write x.1).ledger.jobs.put j job).find j ≠ none
    rw [Table.find_put]
    exact Option.some_ne_none _

theorem createScheduledCheckJob_some {e : Effect Database Key Nat} (h : Draft o x)
    (hs : job.state ≠ .completed)
    (he : createScheduledCheckJob j job begun env busy (o.write x.1) = some e) :
    Draft (o.extend e) x ∧ (e.value = 1 → New (o.extend e) x j) := by
  obtain ⟨e', he', rfl⟩ := onLedger_some he
  split at he'
  · cases he'
    exact ⟨h.still fun _ => rfl, fun h => by cases h⟩
  next hslot =>
  split at he'
  · cases he'
  next hfree =>
  cases he'
  simp only [Bool.or_eq_true, not_or, Bool.not_eq_true,
    Option.isSome_eq_false_iff, Option.isNone_iff_eq_none] at hfree
  have hnew := draft_insertJob 1 h hslot hfree.1 hs
  exact ⟨hnew.1, fun _ => hnew.2⟩

theorem createManualCheckJob_some {e : Effect Database Key Uuid} (h : Draft o x)
    (hs : job.state ≠ .completed)
    (he : createManualCheckJob j job begun env busy (o.write x.1) = some e) :
    Draft (o.extend e) x ∧ e.value = j ∧ New (o.extend e) x j := by
  obtain ⟨e', he', rfl⟩ := onLedger_some he
  split at he'
  · cases he'
  next hfree =>
  cases he'
  simp only [Bool.or_eq_true, not_or, Bool.not_eq_true,
    Option.isSome_eq_false_iff, Option.isNone_iff_eq_none] at hfree
  have hslot : ¬ (o.write x.1).ledger.slotTaken job.slot = true := by
    rw [hfree.1]
    exact Bool.false_ne_true
  have hnew := draft_insertJob j h hslot hfree.2 hs
  exact ⟨hnew.1, rfl, hnew.2⟩

variable {payload : DispatchPayload}

theorem draft_createDispatchOutbox {e : Effect Database Key Unit} (h : Draft o x) (hnew : New o x j)
    (he : createDispatchOutbox j payload begun env busy (o.write x.1) = some e) :
    Draft (o.extend e) x := by
  obtain ⟨e', he', rfl⟩ := onLedger_some he
  split at he'
  · cases he'
  next hfree =>
  cases he'
  simp only [Bool.or_eq_true, not_or, Bool.not_eq_true, Bool.not_eq_false',
    Option.isSome_eq_false_iff, Option.isNone_iff_eq_none] at hfree
  obtain ⟨hadm, hnone⟩ := hfree
  simp only [DispatchPayload.admissible, Bool.and_eq_true, beq_iff_eq] at hadm
  exact h.addDispatch rfl rfl hnone hnew.owned hnew.hidden hnew.seen ⟨hadm.1.2, hadm.2⟩ rfl rfl rfl

/-! ## `ScheduleDue` -/

theorem sealedPayload_quiet (job : Job) (queueUrl : String) :
    Prog.Quiet remote Apart (sealedPayload P job queueUrl) := by
  have h : Prog.Every remote WritesApart (sealedPayload P job queueUrl) := by
    simp [sealedPayload, sealJob, clock, remote, observe]
  exact h.mono fun h => h

variable {m : DueMonitor}

theorem recordAdmissionLimit_holds {next : Time} (h : Draft o x) :
    (fifo P).Holds remote Failed (fun _ o y => Draft o y)
      (recordAdmissionLimit m next) o x := by
  refine holds_draft h (fun _ _ _ he => h.gap (fun hrec => ?_) he)
    (fun _ _ _ _ y hy _ => ?_) fun _ => ⟨_, rfl⟩
  · rcases hrec with hrec | hrec <;> cases hrec
  refine holds_draft hy (fun _ _ _ he => hy.still (onJournal_ledger he))
    (fun _ _ _ _ z hz _ => ?_) fun _ _ => ⟨_, rfl⟩
  exact holds_draft hz (fun _ _ _ he => hz.still (onCore_ledger he))
    (fun _ _ _ _ u hu _ => hu) fun _ => ⟨_, rfl⟩

variable {now : Time}

theorem recordMissed_holds (h : Draft o x) : (fifo P).Holds remote Failed (fun _ o y => Draft o y)
      (recordMissed m now) o x := by
  unfold recordMissed
  split
  · refine holds_draft h (fun _ _ _ he => h.gap (fun hrec => ?_) he)
      (fun _ _ _ _ y hy _ => hy) fun _ => ⟨_, rfl⟩
    rcases hrec with hrec | hrec <;> cases hrec
  · exact h

theorem insertScheduled_holds (h : Draft o x) (hs : job.state ≠ .completed) :
    (fifo P).Holds remote Failed (fun _ o y => Draft o y)
      (insertScheduled j job payload) o x := by
  refine holds_draft h (fun _ _ _ he => (createScheduledCheckJob_some h hs he).1)
    (fun _ _ e he y hy hxy => ?_) fun _ => ⟨_, rfl⟩
  obtain ⟨hd, hnew⟩ := createScheduledCheckJob_some h hs he
  show (fifo P).Holds remote _ _ (if e.value = 1 then _ else _) _ _
  split
  · next hone =>
    have hnew' := (hnew hone).later hd hxy
    exact holds_draft hy (fun _ _ _ he => draft_createDispatchOutbox hy hnew' he)
      (fun _ _ _ _ z hz _ => hz) fun _ => ⟨_, rfl⟩
  · exact hy

variable {key : String}

theorem scheduleMonitor_holds {outstanding : Nat} (h : Draft o x) :
    (fifo P).Holds remote Failed (fun _ o y => Draft o y)
      (scheduleMonitor P key now outstanding m) o x := by
  unfold scheduleMonitor
  split
  · split
    · exact recordAdmissionLimit_holds h
    · split
      · exact h
      · split
        · refine holds_draft h (fun _ _ _ he => h.still fun db => ?_)
            (fun _ _ e _ y hy _ => ?_) fun _ => ⟨_, rfl⟩
          · cases he
            rfl
          refine holds_attempt (recordMissed_holds hy) (fun _ => ⟨_, rfl⟩) (fun _ _ _ _ h => h)
            fun scheduledAt o' z hz => ?_
          dsimp only
          split
          · refine holds_bind (holds_apart hz (sealedPayload_quiet _ _)) (fun r o₁ u hu => ?_) ?_
            · cases r with
              | none => exact hu.2.1
              | some payload =>
                refine holds_attempt (insertScheduled_holds hu.2.1 fun hc => by cases hc)
                  (fun _ => ⟨_, rfl⟩) (fun _ _ _ _ h => h) fun created o₂ v hv => ?_
                exact holds_draft hv (fun _ _ _ he => hv.still (onCore_ledger he))
                  (fun _ _ _ _ w hw _ => hw) fun _ => ⟨_, rfl⟩
            · rintro (_ | payload) -
              · exact ⟨_, rfl⟩
              · exact fun f => ⟨_, rfl⟩
          · exact hz
        · exact h
  · exact h

theorem scheduleMonitors_holds : ∀ (due : List DueMonitor) (outstanding created : Nat)
      {o : Open Database Key Env} {x : State}, Draft o x →
      (fifo P).Holds remote Failed (fun _ o y => Draft o y)
        (scheduleMonitors P key now outstanding created due) o x := by
  intro due
  induction due with
  | nil => exact fun _ _ _ _ h => h
  | cons m rest ih =>
    intro outstanding created o x h
    refine holds_attempt (scheduleMonitor_holds h) (fun _ => ⟨_, rfl⟩) (fun _ _ _ _ h => h)
      fun inserted o' y hy => ?_
    cases inserted with
    | true | false => exact ih _ _ hy

theorem scheduleDue_meets {batch : Nat} (hx : WellFormed x.1.ledger) :
    (fifo P).Meets remote i (scheduleDue P key batch) .idle .idle x := by
  unfold scheduleDue
  split
  · exact meets_ret
  refine meets_start (fun env y hy => ?_) fun y _ => meets_ret
  have hd := Draft.fresh env (hy hx).1
  refine meets_draft hd (fun _ _ _ he => ?_) (fun _ _ _ _ z hz _ => ?_) fun f z => meets_ret
  · obtain ⟨e', he', rfl⟩ := onLedger_some he
    cases he'
    exact hd.still fun _ => rfl
  refine meets_draft hz (fun _ _ _ he => hz.still fun db => by cases he; rfl)
    (fun _ _ _ _ u hu _ => ?_) fun f u => meets_ret
  refine meets_draft hu (fun _ _ _ he => hu.still fun db => by cases he; rfl)
    (fun _ _ _ _ v hv _ => ?_) fun f v => meets_ret
  refine meets_attempt Move.stays (scheduleMonitors_holds _ _ _ hv) (fun _ _ _ => meets_ret)
    fun created o' w hw => meets_commit_draft hw fun r w _ => ?_
  cases r <;> exact meets_ret

/-! ## `TestNow` -/

theorem lockManaged_quiet (userId environmentId monitorId : Uuid) :
    Prog.Quiet remote Apart (lockManaged userId environmentId monitorId) := by
  have h : Prog.Every remote WritesApart (lockManaged userId environmentId monitorId) := by
    simp [lockManaged, lockManagedMonitor, domestic_writesApart.core]
  exact h.mono fun h => h

theorem admitManualTest_quiet : Prog.Quiet remote Apart admitManualTest := by
  have hlock : WritesApart acquireManualTestQueueLock := fun _ _ _ _ _ he db => by cases he; rfl
  have hpressure : WritesApart hasScheduledQueuePressure :=
    fun _ _ _ _ _ he db => by cases he; rfl
  have hcount : WritesApart countActiveManualTestJobs := fun _ _ _ _ _ he db => by cases he; rfl
  have h : Prog.Every remote WritesApart admitManualTest := by
    simp [admitManualTest, hlock, hpressure, hcount]
  exact h.mono fun h => h

theorem testNow_meets {userId environmentId monitorId : Uuid} (hx : WellFormed x.1.ledger) :
    (fifo P).Meets remote i (testNow P key userId environmentId monitorId)
      .idle .idle x := by
  refine meets_start (fun env y hy => ?_) fun y _ => meets_ret
  have hd := Draft.fresh env (hy hx).1
  refine meets_stretch (holds_apart hd (lockManaged_quiet _ _ _)) ?_ ?_
  rotate_left
  · rintro r z -
    cases r with
    | error failure => exact meets_ret
    | ok monitor =>
    refine meets_failed (E := Failed) (fun f => ⟨_, rfl⟩) ?_
    rintro r u ⟨f, rfl⟩
    exact meets_ret
  rintro r o₁ z ⟨-, hz, -⟩
  cases r with
  | error failure => exact meets_ret
  | ok monitor =>
  refine meets_stretch (holds_apart hz admitManualTest_quiet) ?_ ?_
  rotate_left
  · rintro r u -
    cases r with
    | error failure => exact meets_ret
    | ok v => exact meets_query_failed fun _ _ _ => meets_ret
  rintro r o₂ u ⟨-, hu, -⟩
  cases r with
  | error failure => exact meets_ret
  | ok v =>
  refine meets_draft hu (fun _ _ _ he => hu.still (onCore_ledger he))
    (fun _ _ e _ v hv _ => ?_) fun f v => meets_ret
  generalize e.value = found
  cases found with
  | none => exact meets_ret
  | some pool =>
  dsimp only
  split
  · exact meets_ret
  split
  rotate_left
  · exact meets_ret
  refine meets_draft hv (fun _ _ _ he => hv.still fun db => by cases he; rfl)
    (fun _ _ e _ w hw _ => ?_) fun f w => meets_ret
  refine meets_draft hw (fun _ _ _ he => hw.still fun db => by cases he; rfl)
    (fun _ _ e' _ y₁ hy₁ _ => ?_) fun f w => meets_ret
  refine meets_stretch (holds_apart hy₁ (sealedPayload_quiet _ _)) ?_ ?_
  rotate_left
  · rintro r y₂ -
    cases r with
    | none => exact meets_ret
    | some payload => exact meets_query_failed fun _ _ _ => meets_ret
  rintro r o₃ y₂ ⟨-, hy₂, -⟩
  cases r with
  | none => exact meets_ret
  | some payload =>
  have hopen : JobState.pendingPublish ≠ .completed := by
    intro hc
    cases hc
  refine meets_draft hy₂ (fun _ _ _ he => (createManualCheckJob_some hy₂ hopen he).1)
    (fun _ _ e₁ he y₃ hy₃ hkeep => ?_) fun f _ => meets_ret
  obtain ⟨hd₁, hvalue, hnew⟩ := createManualCheckJob_some hy₂ hopen he
  have hnew' := hnew.later hd₁ hkeep
  dsimp only
  rw [hvalue]
  refine meets_draft hy₃ (fun _ _ _ he => draft_createDispatchOutbox hy₃ hnew' he)
    (fun _ _ _ _ y₄ hy₄ _ => ?_) fun f _ => meets_ret
  refine meets_draft hy₄ (fun _ _ _ he => hy₄.still (insertRefreshEvent_apart he))
    (fun _ _ _ _ y₅ hy₅ _ => ?_) fun f _ => meets_ret
  refine meets_commit_draft hy₅ fun r _ _ => ?_
  cases r with
  | error | ok => exact meets_ret

end WatchTrace.Proofs
