import WatchTrace.Spec.Routine

/-!
# Transactions that remember a result

Two transactions write down a delivered result: the one that accepts it, with
everything an acceptance settles, and the one that puts it on record as a
conflict. Neither passes through states that satisfy the contract, so each
gets it in one go.
-/

namespace WatchTrace.Spec

open Tx Model

/-- How the dispatch of an accepted job is left: as it was, when it was
published anyway, and repaired otherwise. -/
inductive Mended (L : List Key) (x : Ledger) (j : Uuid) :
    Table Uuid Dispatch → Prop
  | published (h : ∀ d, x.outbox.find j = some d → d.publishState = .published) :
      Mended L x j x.outbox
  | repaired {d d' : Dispatch} (hd : x.outbox.find j = some d)
      (hs : d.publishState ≠ .published) (hp : d'.payload = d.payload)
      (hs' : d'.publishState = .repaired)
      (ht : d'.publishLeaseToken = d.publishLeaseToken)
      (ha : d'.publishAttempts = d.publishAttempts) (hL : Key.dispatch j ∈ L) :
      Mended L x j (x.outbox.put j d')

variable {i : Uuid} {d : Dispatch}

namespace Mended

variable {L : List Key} {x : Ledger} {j : Uuid} {out : Table Uuid Dispatch}

theorem mono {L' : List Key} (hL : ∀ κ, κ ∈ L → κ ∈ L')
    (h : Mended L x j out) : Mended L' x j out := by
  cases h with
  | published h => exact .published h
  | repaired hd hs hp hs' ht ha hlock => exact .repaired hd hs hp hs' ht ha (hL _ hlock)

theorem step (h : Mended L x j out) (i : Uuid) :
    DispatchStep (x.outbox.find i) (out.find i) := by
  cases h with
  | published => exact .same _
  | repaired hd hs hp hs' ht ha =>
  rw [Table.find_put_eq]
  split
  · next hij => rw [hij, hd]; exact .change hp (.repair hs hs' ht ha)
  · exact .same _

theorem lock (h : Mended L x j out) (hne : out.find i ≠ x.outbox.find i) :
    Key.dispatch i ∈ L := by
  cases h with
  | published => exact absurd rfl hne
  | repaired hd hs hp hs' ht ha hL =>
  by_cases hij : i = j
  · rw [hij]; exact hL
  · exact absurd (Table.find_put_ne _ _ hij) hne

theorem settled (h : Mended L x j out) (hd : out.find j = some d) :
    d.publishState = .published ∨ d.publishState = .repaired := by
  cases h with
  | published hpub => exact .inl (hpub d hd)
  | repaired _ _ _ hs' =>
  rw [Table.find_put] at hd
  cases hd
  exact .inr hs'

/-- Every row afterwards is a row from before, or the repaired one. -/
theorem origin (h : Mended L x j out) (hd : out.find i = some d) :
    x.outbox.find i = some d ∨ (i = j ∧ d.publishState = .repaired ∧
      ∃ d₀, x.outbox.find j = some d₀ ∧ d.payload = d₀.payload ∧
        d.publishAttempts = d₀.publishAttempts) := by
  cases h with
  | published => exact .inl hd
  | repaired hd₀ hs hp hs' ht ha =>
  rcases Table.find_put_some.mp hd with ⟨rfl, rfl⟩ | ⟨-, hd⟩
  · exact .inr ⟨rfl, hs', _, hd₀, hp, ha⟩
  · exact .inl hd

end Mended

variable {L : List Key} {x : Ledger}

variable {j : Uuid} {job job' : CheckJob} {row : HealthCheck} {out : Table Uuid Dispatch}
variable {gaps : Table GapKey CoverageGap}

theorem WellFormed.accept (hx : WellFormed x) (hjob : x.jobs.find j = some job)
    (hslot : job'.slot = job.slot) (hdone : job'.state = .completed)
    (hrow : (row.monitorId, row.scheduledAt) = job.slot) (hout : Mended L x j out) :
    WellFormed { x with
      jobs := x.jobs.put j job', checks := x.checks.put j row, outbox := out
      gaps := gaps } := by
  have hold : ∀ {i a}, (x.jobs.put j job').find i = some a →
      ∃ b, x.jobs.find i = some b ∧ a.slot = b.slot := by
    intro i a ha
    rcases Table.find_put_some.mp ha with ⟨rfl, rfl⟩ | ⟨-, hb⟩
    · exact ⟨job, hjob, hslot⟩
    · exact ⟨a, hb, rfl⟩
  have hjobs : ∀ {i}, x.jobs.find i ≠ none → (x.jobs.put j job').find i ≠ none := by
    intro i hi
    rw [Table.find_put_eq]
    split
    · exact Option.some_ne_none _
    · exact hi
  have hchecks : ∀ {i}, x.checks.find i ≠ none →
      (x.checks.put j row).find i ≠ none := by
    intro i hi
    rw [Table.find_put_eq]
    split
    · exact Option.some_ne_none _
    · exact hi
  refine { slots := ?_, owned := ?_, addressed := ?_, attempts := ?_
           tokens := ?_, repaired := ?_, completed := ?_, checked := ?_
           conflicts := hx.conflicts }
  · intro i i' a a' ha ha' hs
    obtain ⟨b, hb, hb'⟩ := hold ha
    obtain ⟨c, hc, hc'⟩ := hold ha'
    exact hx.slots hb hc (hb'.symm.trans (hs.trans hc'))
  · intro i d hd
    rcases hout.origin hd with hd | ⟨rfl, -, d₀, hd₀, -⟩
    · exact hjobs (hx.owned hd)
    · exact hjobs (hx.owned hd₀)
  · intro i d hd
    rcases hout.origin hd with hd | ⟨rfl, -, d₀, hd₀, hp, -⟩
    · exact hx.addressed hd
    · rw [hp]; exact hx.addressed hd₀
  · intro i d hd
    rcases hout.origin hd with hd | ⟨rfl, -, d₀, hd₀, -, ha⟩
    · exact hx.attempts hd
    · rw [ha]; exact hx.attempts hd₀
  · intro i d hd ht
    rcases hout.origin hd with hd | ⟨-, hs, -⟩
    · exact hx.tokens hd ht
    · exact .inr hs
  · intro i d hd hs
    rcases hout.origin hd with hd | ⟨rfl, -⟩
    · exact hchecks (hx.repaired hd hs)
    · show (x.checks.put i row).find i ≠ none
      rw [Table.find_put]
      exact Option.some_ne_none _
  · intro i a ha
    show _ ↔ (x.checks.put j row).find i ≠ none
    rcases Table.find_put_some.mp ha with ⟨rfl, rfl⟩ | ⟨hij, hb⟩
    · rw [Table.find_put]
      exact ⟨fun _ => Option.some_ne_none _, fun _ => hdone⟩
    · rw [Table.find_put_ne _ _ hij]
      exact hx.completed hb
  · intro i c hc
    rcases Table.find_put_some.mp hc with ⟨rfl, rfl⟩ | ⟨hij, hc⟩
    · exact ⟨job', Table.find_put _ _ _, hrow.trans hslot.symm⟩
    · obtain ⟨b, hb, hbs⟩ := hx.checked hc
      refine ⟨b, ?_, hbs⟩
      show (x.jobs.put j job').find i = some b
      rw [Table.find_put_ne _ _ hij]
      exact hb

/-- An acceptance: the first check of a job, the job completed, its dispatch
mended, and the gaps of its slot taken back. -/
theorem Commit.accept (hx : WellFormed x) (hjob : x.jobs.find j = some job)
    (hnone : x.checks.find j = none) (hslot : job'.slot = job.slot)
    (hdone : job'.state = .completed) (hrow : (row.monitorId, row.scheduledAt) = job.slot)
    (hout : Mended L x j out) (hgaps : ∀ k, x.gaps.find k = none → gaps.find k = none)
    (hgone : ∀ k, Recovered k → Concerns k job → gaps.find k = none) (hL : Key.job j ∈ L) :
    Commit L x { x with
      jobs := x.jobs.put j job', checks := x.checks.put j row, outbox := out
      gaps := gaps } := by
  have hopen : job.state ≠ .completed := fun hc => (hx.completed hjob).mp hc hnone
  refine { wellFormed := hx.accept hjob hslot hdone hrow hout, jobs := ?_
           outbox := hout.step, checks := ?_, accepted := ?_, gaps := ?_
           conflicts := fun h => h, fresh := ?_, jobLock := ?_
           dispatchLock := hout.lock, checkLock := ?_, slotLock := ?_
           conflictLock := fun hne => absurd rfl hne }
  · intro i
    show JobStep _ ((x.jobs.put j job').find i)
    rw [Table.find_put_eq]
    split
    · next hij =>
      rw [hij, hjob]
      exact .keep hslot (.inr (.inr ⟨hopen, .inr (.inr hdone)⟩))
    · exact JobStep.refl _
  · intro i c hc
    show (x.checks.put j row).find i = some c
    rw [Table.find_put_ne _ _ (by rintro rfl; rw [hnone] at hc; cases hc)]
    exact hc
  · intro i hi hi'
    have hij : i = j := Classical.byContradiction fun hne => hi' (by
      show (x.checks.put j row).find i = none
      rw [Table.find_put_ne _ _ hne]
      exact hi)
    subst hij
    refine { dispatch := fun hd => hout.settled hd, gaps := ?_ }
    intro a k ha hk hc
    replace ha : (x.jobs.put i job').find i = some a := ha
    rw [Table.find_put] at ha
    cases ha
    exact hgone k hk (hslot.symm.trans hc)
  · intro k _ hk hne
    exact absurd (hgaps k hk) hne
  · intro i hi hi'
    cases hout with
    | published => exact absurd hi hi'
    | repaired hd =>
    by_cases hij : i = j
    · rw [hij, hd] at hi; cases hi
    · exact absurd ((Table.find_put_ne _ _ hij).trans hi) hi'
  · intro i hne
    by_cases hij : i = j
    · rw [hij]; exact hL
    · exact absurd (Table.find_put_ne _ _ hij) hne
  · intro i hne
    by_cases hij : i = j
    · rw [hij]; exact hL
    · exact absurd (Table.find_put_ne _ _ hij) hne
  · intro i a hi ha
    rcases Table.find_put_some.mp ha with ⟨rfl, rfl⟩ | ⟨-, hb⟩
    · rw [hjob] at hi; cases hi
    · rw [hi] at hb; cases hb

/-- A result on record as a conflict, and in quarantine with it. -/
theorem Commit.conflict (hx : WellFormed x) {c : ResultConflict} {q : QuarantineRow}
    (hq : q.resultId = some c.resultId) (hL : Key.conflict c.resultId ∈ L) :
    Commit L x { x with
      conflicts := x.conflicts.add c, quarantine := x.quarantine.add q } := by
  have hmine : ∀ {r}, (x.conflicts.add c).holds r = true →
      x.conflicts.holds r = true ∨ c.resultId = r := by
    intro r hr
    rcases Indexed.holds_of_add hr with h | h
    · exact .inl h
    · exact .inr (Option.some.inj h)
  refine { Commit.refl L hx with
           wellFormed := ?_, gaps := fun _ h hne => absurd h hne
           conflicts := fun h => Indexed.mem_add h, conflictLock := ?_
           accepted := fun h hne => absurd h hne }
  · refine { hx with conflicts := ?_ }
    intro r hr
    rcases hmine hr with h | rfl
    · obtain ⟨q', hq', hkey⟩ := Indexed.holds_iff.mp (hx.conflicts h)
      exact Indexed.holds_iff.mpr ⟨q', Indexed.mem_add hq', hkey⟩
    · exact Indexed.holds_add hq
  · intro r hne
    by_cases hr : c.resultId = r
    · rw [← hr]; exact hL
    refine absurd ?_ hne
    rw [Bool.eq_iff_iff]
    constructor
    · exact fun h => (hmine h).resolve_right hr
    · intro h
      obtain ⟨c', hc', hkey⟩ := Indexed.holds_iff.mp h
      exact Indexed.holds_iff.mpr ⟨c', Indexed.mem_add hc', hkey⟩

end WatchTrace.Spec
