import WatchTrace.Model.Maintenance

/-!
# What a transaction may do to the ledger

The FIFO path is five components that share a handful of tables and never
speak to each other. What keeps them honest is that each of their
transactions, whatever statements it is made of, changes the ledger in one of
a few ways, and holds the locks that make the change its own business. This
file says which ways.

`Commit L x y` is the contract of a transaction that owns the keys `L` and
takes the ledger from `x` to `y`: job rows and outbox rows only take the steps
listed here, an accepted check is never touched again, and a gap is opened
only by somebody entitled to. `Keeps L x y` is the other side of the same
coin: what an open transaction with the keys `L` can count on while others
commit. `Commit.keeps` derives the second from the first, once, for everybody.
-/

namespace WatchTrace.Spec

open Tx Model

/-! ## One row at a time -/

/-- The states a job may be found in after a transaction. Nothing leaves
`completed`, and nothing returns to a state before publication. -/
def JobMay (a b : JobState) : Prop :=
  b = a ∨ (a.unpublished = true ∧ b = .published) ∨
    (a ≠ .completed ∧ (b = .expired ∨ b = .dead ∨ b = .completed))

theorem JobMay.refl (a : JobState) : JobMay a a := .inl rfl

theorem JobMay.trans {a b c : JobState} (hab : JobMay a b) (hbc : JobMay b c) :
    JobMay a c := by
  rcases hab with rfl | ⟨ha, rfl⟩ | ⟨ha, hb⟩
  · exact hbc
  · have hne : a ≠ .completed := by rintro rfl; cases ha
    rcases hbc with rfl | ⟨hb, _⟩ | ⟨_, hc⟩
    · exact .inr (.inl ⟨ha, rfl⟩)
    · cases hb
    · exact .inr (.inr ⟨hne, hc⟩)
  · rcases hbc with rfl | ⟨hu, _⟩ | ⟨_, hc⟩
    · exact .inr (.inr ⟨ha, hb⟩)
    · rcases hb with rfl | rfl | rfl <;> cases hu
    · exact .inr (.inr ⟨ha, hc⟩)

inductive JobStep : Option CheckJob → Option CheckJob → Prop
  | absent : JobStep none none
  | create {job : CheckJob} : JobStep none (some job)
  | keep {job job' : CheckJob} (hslot : job'.slot = job.slot)
      (hmay : JobMay job.state job'.state) : JobStep (some job) (some job')

theorem JobStep.refl : ∀ job : Option CheckJob, JobStep job job
  | none => .absent
  | some _ => .keep rfl (JobMay.refl _)

/-- The ways the columns of an outbox row change, besides its payload. Only
`claim` and `expire` count an attempt; `publish` and `fail` need a lease token
on the row; `repair` needs nothing but that the row is not published, and
leaves the token where it was. -/
inductive DispatchChange (d d' : Dispatch) : Prop
  | claim (hs : d.publishState = .pending) (ha : d.publishAttempts < 3)
      (hs' : d'.publishState = .publishing)
      (ha' : d'.publishAttempts = d.publishAttempts + 1)
  | expire (hs : d.publishState = .pending) (ha : d.publishAttempts < 3)
      (hs' : d'.publishState = .expired) (ht' : d'.publishLeaseToken = none)
      (ha' : d'.publishAttempts = d.publishAttempts + 1)
  | publish (ht : d.publishLeaseToken ≠ none)
      (hs' : d'.publishState = .published) (ht' : d'.publishLeaseToken = none)
      (ha' : d'.publishAttempts = d.publishAttempts)
  | fail (ht : d.publishLeaseToken ≠ none)
      (hs' : d'.publishState = .pending ∨ d'.publishState = .ambiguous)
      (ht' : d'.publishLeaseToken = none)
      (ha' : d'.publishAttempts = d.publishAttempts)
  | reclaim (hs : d.publishState = .publishing)
      (hs' : d'.publishState = .pending ∨ d'.publishState = .ambiguous)
      (ht' : d'.publishLeaseToken = none)
      (ha' : d'.publishAttempts = d.publishAttempts)
  | repair (hs : d.publishState ≠ .published) (hs' : d'.publishState = .repaired)
      (ht' : d'.publishLeaseToken = d.publishLeaseToken)
      (ha' : d'.publishAttempts = d.publishAttempts)

inductive DispatchStep : Option Dispatch → Option Dispatch → Prop
  | same (d : Option Dispatch) : DispatchStep d d
  | create {d : Dispatch} (hs : d.publishState = .pending)
      (ht : d.publishLeaseToken = none) (ha : d.publishAttempts = 0) :
      DispatchStep none (some d)
  | change {d d' : Dispatch} (hp : d'.payload = d.payload)
      (h : DispatchChange d d') : DispatchStep (some d) (some d')

/-! ## The ledger as a whole -/

/-- What holds of the ledger between transactions. -/
structure WellFormed (l : Ledger) : Prop where
  slots : ∀ {i j a b}, l.jobs.find i = some a → l.jobs.find j = some b → a.slot = b.slot → i = j
  owned : ∀ {j d}, l.outbox.find j = some d → l.jobs.find j ≠ none
  addressed : ∀ {j d}, l.outbox.find j = some d →
    d.payload.messageDeduplicationId = j ∧ d.payload.messageGroupId = j
  attempts : ∀ {j d}, l.outbox.find j = some d → d.publishAttempts ≤ 3
  tokens : ∀ {j d}, l.outbox.find j = some d → d.publishLeaseToken ≠ none →
    d.publishState = .publishing ∨ d.publishState = .repaired
  repaired : ∀ {j d}, l.outbox.find j = some d → d.publishState = .repaired → l.checks.find j ≠ none
  completed : ∀ {j job}, l.jobs.find j = some job →
    (job.state = .completed ↔ l.checks.find j ≠ none)
  checked : ∀ {j h}, l.checks.find j = some h →
    ∃ job, l.jobs.find j = some job ∧ (h.monitorId, h.scheduledAt) = job.slot
  conflicts : ∀ {r}, l.conflicts.holds r = true → l.quarantine.holds r = true

/-- An empty ledger is well formed. -/
theorem wellFormed_empty : WellFormed Ledger.empty := by
  constructor <;> simp [Ledger.empty, Indexed.holds, Indexed.empty]

/-- A gap an accepted result would take back. -/
def Recovered (k : GapKey) : Prop := k.reason = .expired ∨ k.reason = .dead

/-- The gap belongs to the slot of a job. -/
def Concerns (k : GapKey) (job : CheckJob) : Prop :=
  job.slot = (k.monitorId, k.scheduledAt)

/-- Who may open a gap: the owner of a job that is over without a result, or
the publisher that claimed its dispatch too late. -/
inductive GapCause (L : List Key) (x y : Ledger) (j : Uuid) (job : CheckJob) :
    Prop
  | job (hlock : Key.job j ∈ L) (hstate : job.state ≠ .completed)
  | dispatch {d : Dispatch} (hlock : Key.dispatch j ∈ L)
      (hd : x.outbox.find j = some d) (hs : d.publishState = .pending)
      (hcheck : y.checks.find j = x.checks.find j)

/-- What is left behind for a job whose result has just been accepted. -/
structure Settled (l : Ledger) (j : Uuid) : Prop where
  dispatch : ∀ {d}, l.outbox.find j = some d →
    d.publishState = .published ∨ d.publishState = .repaired
  gaps : ∀ {job k}, l.jobs.find j = some job → Recovered k → Concerns k job → l.gaps.find k = none

/-- The contract of a transaction that owns `L`. -/
structure Commit (L : List Key) (x y : Ledger) : Prop where
  wellFormed : WellFormed y
  jobs : ∀ j, JobStep (x.jobs.find j) (y.jobs.find j)
  outbox : ∀ j, DispatchStep (x.outbox.find j) (y.outbox.find j)
  checks : ∀ {j h}, x.checks.find j = some h → y.checks.find j = some h
  accepted : ∀ {j}, x.checks.find j = none → y.checks.find j ≠ none → Settled y j
  gaps : ∀ {k}, Recovered k → x.gaps.find k = none → y.gaps.find k ≠ none →
    ∃ j job, y.jobs.find j = some job ∧ Concerns k job ∧ GapCause L x y j job
  conflicts : ∀ {r}, r ∈ x.conflicts.rows → r ∈ y.conflicts.rows
  fresh : ∀ {j}, x.outbox.find j = none → y.outbox.find j ≠ none → x.jobs.find j = none
  jobLock : ∀ {j}, y.jobs.find j ≠ x.jobs.find j → Key.job j ∈ L
  dispatchLock : ∀ {j}, y.outbox.find j ≠ x.outbox.find j → Key.dispatch j ∈ L
  checkLock : ∀ {j}, y.checks.find j ≠ x.checks.find j → Key.job j ∈ L
  slotLock : ∀ {j job}, x.jobs.find j = none → y.jobs.find j = some job →
    Key.slot job.monitorId job.scheduledAt ∈ L
  conflictLock : ∀ {r}, y.conflicts.holds r ≠ x.conflicts.holds r → Key.conflict r ∈ L

/-- The dispatch of a job can no longer be claimed by anybody but the owner of
its key. -/
def Sealed (L : Key → Prop) (l : Ledger) (j : Uuid) : Prop :=
  L (.dispatch j) ∨ ∀ d, l.outbox.find j = some d → d.publishState = .published

/-- What a transaction that owns `L` can count on. -/
structure Keeps (L : Key → Prop) (x y : Ledger) : Prop where
  jobs : ∀ j, JobStep (x.jobs.find j) (y.jobs.find j)
  checks : ∀ {j h}, x.checks.find j = some h → y.checks.find j = some h
  conflicts : ∀ {r}, r ∈ x.conflicts.rows → r ∈ y.conflicts.rows
  job : ∀ {j}, L (.job j) → y.jobs.find j = x.jobs.find j ∧ y.checks.find j = x.checks.find j
  dispatch : ∀ {j}, L (.dispatch j) → y.outbox.find j = x.outbox.find j
  slot : ∀ {m t j job}, L (.slot m t) → y.jobs.find j = some job →
    job.slot = (m, t) → x.jobs.find j ≠ none
  conflict : ∀ {r}, L (.conflict r) → y.conflicts.holds r = x.conflicts.holds r
  published : ∀ {j}, x.jobs.find j ≠ none →
    (∀ d, x.outbox.find j = some d → d.publishState = .published) →
    ∀ d, y.outbox.find j = some d → d.publishState = .published
  gaps : ∀ {j job k}, L (.job j) → x.jobs.find j = some job →
    Sealed L x j → Recovered k → Concerns k job → x.gaps.find k = none →
    y.gaps.find k = none

/-! ## Counting on others -/

variable {b : Option CheckJob}

variable {a : Option CheckJob}

theorem JobStep.trans {c : Option CheckJob} (hab : JobStep a b) (hbc : JobStep b c) :
    JobStep a c := by
  cases hab with
  | absent => exact hbc
  | create =>
    cases hbc with
    | keep => exact .create
  | keep hslot hmay =>
    cases hbc with
    | keep hslot' hmay' => exact .keep (hslot'.trans hslot) (hmay.trans hmay')

theorem JobStep.ne_none (h : JobStep a b) (ha : a ≠ none) : b ≠ none := by
  cases h with
  | absent => exact ha
  | create => exact absurd rfl ha
  | keep => exact Option.some_ne_none _

theorem JobStep.of_some {job : CheckJob} (h : JobStep (some job) b) :
    ∃ job', b = some job' ∧ job'.slot = job.slot ∧
      JobMay job.state job'.state := by
  cases h with
  | keep hslot hmay => exact ⟨_, rfl, hslot, hmay⟩

theorem Keeps.refl (L : Key → Prop) (x : Ledger) : Keeps L x x where
  jobs := fun _ => JobStep.refl _
  checks := fun h => h
  conflicts := fun h => h
  job := fun _ => ⟨rfl, rfl⟩
  dispatch := fun _ => rfl
  slot := fun _ h _ => by rw [h]; exact Option.some_ne_none _
  conflict := fun _ => rfl
  published := fun _ h => h
  gaps := fun _ _ _ _ _ h => h

variable {L : Key → Prop} {x y : Ledger}

theorem Keeps.sealed {j : Uuid} (h : Keeps L x y) (hj : x.jobs.find j ≠ none) (hs : Sealed L x j) :
    Sealed L y j :=
  hs.imp (fun hL => hL) (h.published hj)

theorem Keeps.trans {z : Ledger} (hxy : Keeps L x y) (hyz : Keeps L y z) : Keeps L x z where
  jobs := fun j => (hxy.jobs j).trans (hyz.jobs j)
  checks := fun h => hyz.checks (hxy.checks h)
  conflicts := fun h => hyz.conflicts (hxy.conflicts h)
  job := fun hL => by
    rw [(hyz.job hL).1, (hyz.job hL).2]
    exact hxy.job hL
  dispatch := fun hL => (hyz.dispatch hL).trans (hxy.dispatch hL)
  slot := fun {m t j job} hL hz hslot => by
    have hy := hyz.slot hL hz hslot
    obtain ⟨job', hjob'⟩ := Option.ne_none_iff_exists'.mp hy
    have hstep := hyz.jobs j
    rw [hjob', hz] at hstep
    obtain ⟨_, heq, hs, _⟩ := hstep.of_some
    cases heq
    exact hxy.slot hL hjob' (hs.symm.trans hslot)
  conflict := fun hL => (hyz.conflict hL).trans (hxy.conflict hL)
  published := fun {j} hj hx => hyz.published ((hxy.jobs j).ne_none hj) (hxy.published hj hx)
  gaps := fun {j job k} hL hj hs hk hc hx => by
    have hne : x.jobs.find j ≠ none := by rw [hj]; exact Option.some_ne_none _
    have hy : y.jobs.find j = some job := (hxy.job hL).1.trans hj
    exact hyz.gaps hL hy (hxy.sealed hne hs) hk hc (hxy.gaps hL hj hs hk hc hx)

variable {L' : Key → Prop}

theorem Keeps.anti (hL : ∀ κ, L κ → L' κ) (h : Keeps L' x y) : Keeps L x y where
  jobs := h.jobs
  checks := h.checks
  conflicts := h.conflicts
  job := fun hj => h.job (hL _ hj)
  dispatch := fun hj => h.dispatch (hL _ hj)
  slot := fun hs => h.slot (hL _ hs)
  conflict := fun hr => h.conflict (hL _ hr)
  published := h.published
  gaps := fun hj hx hs => h.gaps (hL _ hj) hx (hs.imp (hL _) fun hp => hp)

variable {d d' : Dispatch}

/-- A published row is out of everybody's reach. -/
theorem DispatchChange.not_published (h : DispatchChange d d') (htok : d.publishLeaseToken ≠ none →
      d.publishState = .publishing ∨ d.publishState = .repaired) :
    d.publishState ≠ .published := by
  intro hp
  rw [hp] at htok
  cases h with
  | claim hs | expire hs => rw [hp] at hs; cases hs
  | publish ht | fail ht => rcases htok ht with h | h <;> cases h
  | reclaim hs => rw [hp] at hs; cases hs
  | repair hs => exact hs hp

theorem DispatchChange.attempts_le (h : DispatchChange d d') :
    d.publishAttempts ≤ d'.publishAttempts := by
  cases h <;> omega

/-- Without a token, and not waiting to be published, a row can be repaired and
nothing else. -/
theorem DispatchChange.only_repair (h : DispatchChange d d') (ht : d.publishLeaseToken = none)
    (hpending : d.publishState ≠ .pending) (hpublishing : d.publishState ≠ .publishing) :
    d'.publishState = .repaired ∧ d'.publishLeaseToken = none := by
  cases h with
  | claim hs | expire hs => exact absurd hs hpending
  | publish htok | fail htok => exact absurd ht htok
  | reclaim hs => exact absurd hs hpublishing
  | repair _ hs' ht' => exact ⟨hs', ht'.trans ht⟩

/-- A transaction keeps its word to the owners of all other keys. -/
theorem Commit.keeps {L : List Key} (hx : WellFormed x) (h : Commit L x y)
    (hfree : ∀ κ, L' κ → κ ∉ L) :
    Keeps L' x y where
  jobs := h.jobs
  checks := h.checks
  conflicts := h.conflicts
  job := fun hL => ⟨Classical.byContradiction fun hne =>
      hfree _ hL (h.jobLock hne), Classical.byContradiction fun hne =>
      hfree _ hL (h.checkLock hne)⟩
  dispatch := fun hL => Classical.byContradiction fun hne => hfree _ hL (h.dispatchLock hne)
  slot := fun {m t j job} hL hy hslot hnone => by
    have hlock := h.slotLock hnone hy
    have hm : job.monitorId = m := congrArg Prod.fst hslot
    have ht : job.scheduledAt = t := congrArg Prod.snd hslot
    rw [hm, ht] at hlock
    exact hfree _ hL hlock
  conflict := fun hL => Classical.byContradiction fun hne => hfree _ hL (h.conflictLock hne)
  published := fun {j} hj hpub d hd => by
    have hstep := h.outbox j
    rw [hd] at hstep
    generalize hxd : x.outbox.find j = before at hstep
    cases hstep with
    | same => exact hpub d hxd
    | create => exact absurd (h.fresh hxd (by rw [hd]; simp)) hj
    | change hp hc => exact absurd (hpub _ hxd) (hc.not_published (hx.tokens hxd))
  gaps := fun {j job k} hL hj hs hk hc hgap => Classical.byContradiction
    fun hne => by
      obtain ⟨j', job', hj', hc', hcause⟩ := h.gaps hk hgap hne
      -- the slot of the gap is the slot of one job only
      have hstep := h.jobs j
      rw [hj] at hstep
      obtain ⟨job'', hj'', hslot, _⟩ := hstep.of_some
      have hsame : job''.slot = job'.slot :=
        hslot.trans (Eq.trans hc (Eq.symm hc'))
      have heq : j = j' := h.wellFormed.slots hj'' hj' hsame
      subst heq
      cases hcause with
      | job hlock => exact hfree _ hL hlock
      | dispatch hlock hd hpending =>
      rcases hs with hs | hs
      · exact hfree _ hs hlock
      · have := hs _ hd
        rw [this] at hpending
        cases hpending

end WatchTrace.Spec
