import WatchTrace.Spec.Ledger

/-!
# Transactions that accept nothing

Most transactions of the FIFO path leave the accepted checks alone and write
a row here and there. For these the contract can be built up one write at a
time: it holds before the first one, and each of the lemmas below adds one row
to a transaction that satisfies it already.
-/

namespace WatchTrace.Spec

open Tx Model

/-- The contract of a transaction that accepts nothing. -/
structure Routine (L : List Key) (x y : Ledger) : Prop extends Commit L x y where
  sameChecks : y.checks = x.checks

variable {L : List Key} {x y : Ledger} {job : CheckJob}

variable {L' : List Key} {j : Uuid}

theorem GapCause.mono (hL : ∀ κ ∈ L, κ ∈ L') (h : GapCause L x y j job) :
    GapCause L' x y j job := by
  cases h with
  | job hlock hs => exact .job (hL _ hlock) hs
  | dispatch hlock hd hs hc => exact .dispatch (hL _ hlock) hd hs hc

/-- The cause of a gap depends on the new ledger through its checks only. -/
theorem GapCause.of_checks {y' : Ledger} (h : GapCause L x y j job) (hc : y'.checks = y.checks) :
    GapCause L x y' j job := by
  cases h with
  | job hlock hs => exact .job hlock hs
  | dispatch hlock hd hs hcheck => exact .dispatch hlock hd hs (hc ▸ hcheck)

theorem Commit.mono (hL : ∀ κ ∈ L, κ ∈ L') (h : Commit L x y) : Commit L' x y where
  wellFormed := h.wellFormed
  jobs := h.jobs
  outbox := h.outbox
  checks := h.checks
  accepted := h.accepted
  gaps := fun hk hx hy => by
    obtain ⟨j, job, hj, hc, hcause⟩ := h.gaps hk hx hy
    exact ⟨j, job, hj, hc, hcause.mono hL⟩
  conflicts := h.conflicts
  fresh := h.fresh
  jobLock := fun hne => hL _ (h.jobLock hne)
  dispatchLock := fun hne => hL _ (h.dispatchLock hne)
  checkLock := fun hne => hL _ (h.checkLock hne)
  slotLock := fun hx hy => hL _ (h.slotLock hx hy)
  conflictLock := fun hne => hL _ (h.conflictLock hne)

theorem Commit.refl (L : List Key) (hx : WellFormed x) : Commit L x x where
  wellFormed := hx
  jobs := fun _ => JobStep.refl _
  outbox := fun _ => .same _
  checks := fun h => h
  accepted := fun h hne => absurd h hne
  gaps := fun _ h hne => absurd h hne
  conflicts := fun h => h
  fresh := fun h hne => absurd h hne
  jobLock := fun hne => absurd rfl hne
  dispatchLock := fun hne => absurd rfl hne
  checkLock := fun hne => absurd rfl hne
  slotLock := fun hx hy => by rw [hx] at hy; cases hy
  conflictLock := fun hne => absurd rfl hne

variable {d : Dispatch}

namespace Routine

variable {L L' : List Key} {x v : Ledger} {j : Uuid}

theorem refl (L : List Key) (hx : WellFormed x) : Routine L x x :=
  ⟨Commit.refl L hx, rfl⟩

theorem mono (hL : ∀ κ ∈ L, κ ∈ L') (h : Routine L x v) : Routine L' x v :=
  ⟨h.toCommit.mono hL, h.sameChecks⟩

theorem notAccepted (h : Routine L x v) {P : Prop} {i : Uuid}
    (hx : x.checks.find i = none) (hv : v.checks.find i ≠ none) : P := by
  rw [h.sameChecks] at hv
  exact absurd hx hv

/-! ## Jobs -/

/-- A job that is not completed, in a slot that is its own. -/
theorem setJob (h : Routine L x v) (hstep : JobStep (x.jobs.find j) (some job))
    (hsame : ∀ {b}, v.jobs.find j = some b → job.slot = b.slot)
    (hfree : ∀ {i a}, i ≠ j → v.jobs.find i = some a → a.slot ≠ job.slot)
    (hnone : v.checks.find j = none) (hs : job.state ≠ .completed) (hL : Key.job j ∈ L)
    (hS : x.jobs.find j = none → Key.slot job.monitorId job.scheduledAt ∈ L) :
    Routine L x { v with jobs := v.jobs.put j job } := by
  have hw := h.wellFormed
  have hold : ∀ {i a}, (v.jobs.put j job).find i = some a →
      (i = j ∧ a = job) ∨ (i ≠ j ∧ v.jobs.find i = some a) :=
    fun ha => Table.find_put_some.mp ha
  have hto : ∀ {i b}, v.jobs.find i = some b →
      ∃ a, (v.jobs.put j job).find i = some a ∧ a.slot = b.slot ∧
        (i = j → a = job) ∧ (i ≠ j → a = b) := by
    intro i b hb
    rw [Table.find_put_eq]
    split
    · next hij =>
      subst hij
      exact ⟨job, rfl, hsame hb, fun _ => rfl, fun hne => absurd rfl hne⟩
    · next hij => exact ⟨b, hb, rfl, fun he => absurd he hij, fun _ => rfl⟩
  refine ⟨?_, h.sameChecks⟩
  refine { h.toCommit with
    wellFormed := ?_, jobs := ?_, accepted := fun hx hv => h.notAccepted hx hv, gaps := ?_
    jobLock := ?_, slotLock := ?_ }
  · refine { hw with slots := ?_, owned := ?_, completed := ?_, checked := ?_ }
    · intro i i' a a' ha ha' hslots
      rcases hold ha with ⟨hi, rfl⟩ | ⟨hi, hb⟩
      · rcases hold ha' with ⟨hi', rfl⟩ | ⟨hi', hb'⟩
        · exact hi.trans hi'.symm
        · exact absurd hslots.symm (hfree hi' hb')
      · rcases hold ha' with ⟨hi', rfl⟩ | ⟨hi', hb'⟩
        · exact absurd hslots (hfree hi hb)
        · exact hw.slots hb hb' hslots
    · intro i d hd
      obtain ⟨b, hb⟩ := Option.ne_none_iff_exists'.mp (hw.owned hd)
      obtain ⟨a, ha, -⟩ := hto hb
      rw [ha]
      exact Option.some_ne_none _
    · intro i a ha
      rcases hold ha with ⟨rfl, rfl⟩ | ⟨-, hb⟩
      · exact ⟨fun hc => absurd hc hs, fun hc => absurd hnone hc⟩
      · exact hw.completed hb
    · intro i c hc
      obtain ⟨b, hb, hbs⟩ := hw.checked hc
      obtain ⟨a, ha, hslots, -⟩ := hto hb
      exact ⟨a, ha, hbs.trans hslots.symm⟩
  · intro i
    show JobStep _ ((v.jobs.put j job).find i)
    rw [Table.find_put_eq]
    split
    · next hij => rw [hij]; exact hstep
    · exact h.jobs i
  · intro k hk hx hv
    obtain ⟨i, b, hb, hc, hcause⟩ := h.gaps hk hx hv
    obtain ⟨a, ha, hslots, heq, hne⟩ := hto hb
    refine ⟨i, a, ha, hslots.trans hc, ?_⟩
    cases hcause with
    | job hlock hstate =>
      refine .job hlock ?_
      by_cases hij : i = j
      · rw [heq hij]; exact hs
      · rw [hne hij]; exact hstate
    | dispatch hlock hd hpend hcheck => exact .dispatch hlock hd hpend hcheck
  · intro i hne
    by_cases hij : i = j
    · rw [hij]; exact hL
    · refine h.jobLock fun heq => hne ?_
      show (v.jobs.put j job).find i = _
      rw [Table.find_put_ne _ _ hij, heq]
  · intro i a hx ha
    rcases hold ha with ⟨rfl, rfl⟩ | ⟨-, hb⟩
    · exact hS hx
    · exact h.slotLock hx hb

/-- A job that is not completed moves on to a state that is not either. -/
theorem putJob {job' : CheckJob} (h : Routine L x v) (hj : v.jobs.find j = some job)
    (hslot : job'.slot = job.slot) (hmay : JobMay job.state job'.state)
    (hs : job.state ≠ .completed) (hs' : job'.state ≠ .completed) (hL : Key.job j ∈ L) :
    Routine L x { v with jobs := v.jobs.put j job' } := by
  have hw := h.wellFormed
  have hstep := h.jobs j
  rw [hj] at hstep
  refine h.setJob (hstep.trans (.keep hslot hmay)) ?_ ?_ ?_ hs' hL ?_
  · intro b hb
    rw [hj] at hb
    cases hb
    exact hslot
  · intro i a hij ha hslots
    exact hij (hw.slots ha hj (hslots.trans hslot))
  · exact Classical.byContradiction fun hne => hs ((hw.completed hj).mpr hne)
  · intro hx
    have hm : job'.monitorId = job.monitorId := congrArg Prod.fst hslot
    have ht : job'.scheduledAt = job.scheduledAt := congrArg Prod.snd hslot
    rw [hm, ht]
    exact h.slotLock hx hj

/-- A new job in a free slot. -/
theorem addJob (h : Routine L x v) (hnew : v.jobs.find j = none)
    (hfree : ∀ {i a}, v.jobs.find i = some a → a.slot ≠ job.slot) (hs : job.state ≠ .completed)
    (hL : Key.job j ∈ L) (hS : Key.slot job.monitorId job.scheduledAt ∈ L) :
    Routine L x { v with jobs := v.jobs.put j job } := by
  have hxj : x.jobs.find j = none := Classical.byContradiction fun hne =>
    (h.jobs j).ne_none hne hnew
  refine h.setJob (hxj ▸ .create) ?_ (fun _ => hfree) ?_ hs hL fun _ => hS
  · intro b hb
    rw [hnew] at hb
    cases hb
  · refine Classical.byContradiction fun hne => ?_
    obtain ⟨c, hc⟩ := Option.ne_none_iff_exists'.mp hne
    obtain ⟨b, hb, -⟩ := h.wellFormed.checked hc
    rw [hnew] at hb
    cases hb

/-! ## Dispatches -/

theorem setDispatch (h : Routine L x v) (hstep : DispatchStep (x.outbox.find j) (some d))
    (hown : v.jobs.find j ≠ none)
    (haddr : d.payload.messageDeduplicationId = j ∧ d.payload.messageGroupId = j)
    (ha : d.publishAttempts ≤ 3) (ht : d.publishLeaseToken ≠ none →
      d.publishState = .publishing ∨ d.publishState = .repaired)
    (hr : d.publishState = .repaired → v.checks.find j ≠ none)
    (hfresh : x.outbox.find j = none → x.jobs.find j = none) (hL : Key.dispatch j ∈ L) :
    Routine L x { v with outbox := v.outbox.put j d } := by
  have hw := h.wellFormed
  -- what holds of the new row and of all old ones holds of the new table
  have hrow : ∀ {R : Uuid → Dispatch → Prop}, R j d → (∀ {i a}, v.outbox.find i = some a → R i a) →
      ∀ {i a}, (v.outbox.put j d).find i = some a → R i a := by
    intro R hj hold i a hi
    rcases Table.find_put_some.mp hi with ⟨rfl, rfl⟩ | ⟨-, hi⟩
    · exact hj
    · exact hold hi
  refine ⟨?_, h.sameChecks⟩
  refine { h.toCommit with
    wellFormed := ?_, outbox := ?_, accepted := fun hx hv => h.notAccepted hx hv, gaps := ?_
    fresh := ?_, dispatchLock := ?_ }
  · exact { hw with
        owned := hrow (R := fun i _ => v.jobs.find i ≠ none) hown hw.owned
        addressed := hrow (R := fun i a => a.payload.messageDeduplicationId = i ∧
          a.payload.messageGroupId = i) haddr hw.addressed
        attempts := hrow (R := fun _ a => a.publishAttempts ≤ 3) ha hw.attempts
        tokens := hrow (R := fun _ a => a.publishLeaseToken ≠ none →
          a.publishState = .publishing ∨ a.publishState = .repaired) ht hw.tokens
        repaired := hrow (R := fun i a => a.publishState = .repaired →
          v.checks.find i ≠ none) hr hw.repaired }
  · intro i
    show DispatchStep _ ((v.outbox.put j d).find i)
    rw [Table.find_put_eq]
    split
    · next hij => rw [hij]; exact hstep
    · exact h.outbox i
  · intro k hk hxk hv
    obtain ⟨i, b, hb, hcon, hcause⟩ := h.gaps hk hxk hv
    exact ⟨i, b, hb, hcon, hcause.of_checks rfl⟩
  · intro i hxi hi
    by_cases hij : i = j
    · rw [hij] at hxi ⊢; exact hfresh hxi
    · refine h.fresh hxi fun hnone => hi ?_
      show (v.outbox.put j d).find i = none
      rw [Table.find_put_ne _ _ hij, hnone]
  · intro i hne
    by_cases hij : i = j
    · rw [hij]; exact hL
    · refine h.dispatchLock fun heq => hne ?_
      show (v.outbox.put j d).find i = _
      rw [Table.find_put_ne _ _ hij, heq]

theorem dispatch_of_none {d : Option Dispatch} (h : DispatchStep d none) :
    d = none := by
  cases h with
  | same => rfl

theorem payload_of_some {b : Option Dispatch} (h : DispatchStep (some d) b) :
    ∃ d', b = some d' ∧ d'.payload = d.payload := by
  cases h with
  | same => exact ⟨d, rfl, rfl⟩
  | change hp => exact ⟨_, rfl, hp⟩

/-- The committed row of a job takes one of the listed changes. -/
theorem putDispatch {d' : Dispatch} (h : Routine L x v) (hx : x.outbox.find j = some d)
    (hp : d'.payload = d.payload) (hc : DispatchChange d d') (ha : d'.publishAttempts ≤ 3)
    (ht : d'.publishLeaseToken ≠ none → d'.publishState = .publishing ∨ d'.publishState = .repaired)
    (hr : d'.publishState = .repaired → v.checks.find j ≠ none) (hL : Key.dispatch j ∈ L) :
    Routine L x { v with outbox := v.outbox.put j d' } := by
  obtain ⟨dv, hdv, hpv⟩ := payload_of_some (hx ▸ h.outbox j)
  refine h.setDispatch (hx ▸ .change hp hc) (h.wellFormed.owned hdv) ?_ ha ht hr ?_ hL
  · rw [hp, ← hpv]
    exact h.wellFormed.addressed hdv
  · intro hnone
    rw [hx] at hnone
    cases hnone

/-- The dispatch of a job that is as new as itself. -/
theorem addDispatch (h : Routine L x v) (hnew : v.outbox.find j = none)
    (hxj : x.jobs.find j = none) (hvj : v.jobs.find j ≠ none)
    (haddr : d.payload.messageDeduplicationId = j ∧ d.payload.messageGroupId = j)
    (hs : d.publishState = .pending) (ht : d.publishLeaseToken = none)
    (ha : d.publishAttempts = 0) (hL : Key.dispatch j ∈ L) :
    Routine L x { v with outbox := v.outbox.put j d } := by
  have hxd : x.outbox.find j = none := dispatch_of_none (hnew ▸ h.outbox j)
  refine h.setDispatch (hxd ▸ .create hs ht ha) hvj haddr (by omega)
    (fun hne => absurd ht hne) ?_ (fun _ => hxj) hL
  intro hrep
  rw [hs] at hrep
  cases hrep

/-! ## Gaps and quarantine -/

/-- A gap somebody is entitled to open. -/
theorem putGap {k : GapKey} {g : CoverageGap} (h : Routine L x v)
    (hk : Recovered k → ∃ i job, v.jobs.find i = some job ∧ Concerns k job ∧ GapCause L x v i job) :
    Routine L x { v with gaps := v.gaps.put k g } := by
  have hw := h.wellFormed
  refine ⟨?_, h.sameChecks⟩
  refine { h.toCommit with
    wellFormed := ?_, accepted := fun hx hv => h.notAccepted hx hv, gaps := ?_ }
  · exact { hw with }
  · intro k' hk' hx hv
    by_cases hkk : k' = k
    · rw [hkk] at hk'
      obtain ⟨i, job, hj, hc, hg⟩ := hk hk'
      exact ⟨i, job, hj, hkk ▸ hc, hg.of_checks rfl⟩
    have hv' : v.gaps.find k' ≠ none := by
      rw [← Table.find_put_ne v.gaps g hkk]
      exact hv
    obtain ⟨i, job, hj, hc, hg⟩ := h.gaps hk' hx hv'
    exact ⟨i, job, hj, hc, hg.of_checks rfl⟩

/-- Quarantine only grows. -/
theorem addQuarantine {r : QuarantineRow} (h : Routine L x v) :
    Routine L x { v with quarantine := v.quarantine.add r } := by
  have hw := h.wellFormed
  refine ⟨?_, h.sameChecks⟩
  refine { h.toCommit with
    wellFormed := ?_, accepted := fun hx hv => h.notAccepted hx hv, gaps := ?_ }
  · refine { hw with conflicts := ?_ }
    intro id hid
    obtain ⟨q, hq, hkey⟩ := Indexed.holds_iff.mp (hw.conflicts hid)
    exact Indexed.holds_iff.mpr ⟨q, Indexed.mem_add hq, hkey⟩
  · intro k hk hx hv
    obtain ⟨i, job, hj, hc, hcause⟩ := h.gaps hk hx hv
    exact ⟨i, job, hj, hc, hcause.of_checks rfl⟩

end Routine

end WatchTrace.Spec
