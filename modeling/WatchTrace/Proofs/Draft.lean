import WatchTrace.Spec.Fifo

/-!
# Transactions in the making

A transaction that accepts nothing is a list of row writes waiting to be
committed. `Draft o x` says that the writes of `o`, applied to whatever is
committed by then, satisfy the contract: now, and after anything the others
may do meanwhile to somebody who owns the keys of `o`. A transaction that has
just begun is a draft, and each statement of the FIFO path adds one row to a
draft.

The writes are blind, so a row read through them before and after others have
acted is the same row only if the committed one is. For the rows that one
transaction both reads and writes, `Rowwise` says that much.
-/

namespace WatchTrace.Proofs

open Tx Model Spec Protocol

/-- What becomes of a row depends on that row alone. -/
structure Rowwise (w : Database → Database) : Prop where
  jobs : ∀ {x y : Database} {j : Uuid}, y.ledger.jobs.find j = x.ledger.jobs.find j →
    (w y).ledger.jobs.find j = (w x).ledger.jobs.find j
  outbox : ∀ {x y : Database} {j : Uuid}, y.ledger.outbox.find j = x.ledger.outbox.find j →
    (w y).ledger.outbox.find j = (w x).ledger.outbox.find j

variable {w : Database → Database}

theorem Rowwise.comp {v : Database → Database} (hv : Rowwise v) (hw : Rowwise w) :
    Rowwise fun db => w (v db) :=
  ⟨fun hxy => hw.jobs (hv.jobs hxy), fun hxy => hw.outbox (hv.outbox hxy)⟩

theorem rowwise_same (hj : ∀ db, (w db).ledger.jobs = db.ledger.jobs)
    (ho : ∀ db, (w db).ledger.outbox = db.ledger.outbox) : Rowwise w := by
  constructor
  · intro x y j hxy
    rw [hj, hj]
    exact hxy
  · intro x y j hxy
    rw [ho, ho]
    exact hxy

theorem rowwise_putJob (i : Uuid) (job : CheckJob) (hw : ∀ db, (w db).ledger =
      { db.ledger with jobs := db.ledger.jobs.put i job }) : Rowwise w := by
  constructor
  · intro x y j hxy
    rw [hw, hw]
    show (y.ledger.jobs.put i job).find j = (x.ledger.jobs.put i job).find j
    rw [Table.find_put_eq, Table.find_put_eq, hxy]
  · intro x y j hxy
    rw [hw, hw]
    exact hxy

theorem rowwise_putDispatch (i : Uuid) (d : Dispatch) (hw : ∀ db, (w db).ledger =
      { db.ledger with outbox := db.ledger.outbox.put i d }) : Rowwise w := by
  constructor
  · intro x y j hxy
    rw [hw, hw]
    exact hxy
  · intro x y j hxy
    rw [hw, hw]
    show (y.ledger.outbox.put i d).find j = (x.ledger.outbox.put i d).find j
    rw [Table.find_put_eq, Table.find_put_eq, hxy]

structure Draft (o : Open Database Key Env) (x : State) : Prop where
  rowwise : Rowwise o.write
  wellFormed : WellFormed x.1.ledger
  routine : ∀ y : State, WellFormed y.1.ledger → Keeps (· ∈ o.locks) x.1.ledger y.1.ledger →
    Routine o.locks y.1.ledger (o.write y.1).ledger

variable {begun env : Env} {busy : Key → Bool}

variable {job : CheckJob} {d : Dispatch}

namespace Draft

variable {α : Type} {o : Open Database Key Env} {x y : State}
variable {e : Effect Database Key α} {j : Uuid}

theorem fresh (env : Env) (hx : WellFormed x.1.ledger) : Draft (.fresh env) x where
  rowwise := ⟨fun hxy => hxy, fun hxy => hxy⟩
  wellFormed := hx
  routine := fun _ hy _ => Routine.refl _ hy

theorem now (h : Draft o x) : Routine o.locks x.1.ledger (o.write x.1).ledger :=
  h.routine x h.wellFormed (Keeps.refl _ _)

theorem later (h : Draft o x) (hxy : Relies (· ∈ o.locks) x y) : Draft o y where
  rowwise := h.rowwise
  wellFormed := (hxy h.wellFormed).1
  routine := fun z hz hyz => h.routine z hz ((hxy h.wellFormed).2.trans hyz)

/-- One more statement. The step is taken on what is committed at some later
time, by somebody who owns the keys of the statement as well. -/
theorem extend (h : Draft o x) (hrow : Rowwise e.write)
    (hstep : ∀ y : State, WellFormed y.1.ledger →
      Keeps (· ∈ e.locks ++ o.locks) x.1.ledger y.1.ledger →
      Routine (e.locks ++ o.locks) y.1.ledger (o.write y.1).ledger →
      Routine (e.locks ++ o.locks) y.1.ledger (e.write (o.write y.1)).ledger) :
    Draft (o.extend e) x where
  rowwise := h.rowwise.comp hrow
  wellFormed := h.wellFormed
  routine := fun y hy hxy => by
    have hmem : ∀ κ, κ ∈ o.locks → κ ∈ e.locks ++ o.locks :=
      fun κ hκ => List.mem_append_right _ hκ
    exact hstep y hy hxy ((h.routine y hy (hxy.anti hmem)).mono hmem)

/-- A statement that leaves the ledger alone. -/
theorem still (h : Draft o x) (he : ∀ db, (e.write db).ledger = db.ledger) :
    Draft (o.extend e) x := by
  refine h.extend (rowwise_same (fun db => by rw [he]) fun db => by rw [he]) fun y _ _ hr => ?_
  rw [he]
  exact hr

/-- The job a draft would leave, read at a later time under its key. -/
theorem job_later (h : Draft o x) {L : Key → Prop} (hL : L (.job j))
    (hxy : Keeps L x.1.ledger y.1.ledger) :
    (o.write y.1).ledger.jobs.find j = (o.write x.1).ledger.jobs.find j :=
  h.rowwise.jobs (hxy.job hL).1

theorem putJob {job' : CheckJob} {value : α} (h : Draft o x)
    (hj : (o.write x.1).ledger.jobs.find j = some job) (hslot : job'.slot = job.slot)
    (hmay : JobMay job.state job'.state) (hs : job.state ≠ .completed)
    (hs' : job'.state ≠ .completed) :
    Draft (o.extend (ledgerEffect (updateJob j job' value))) x := by
  refine h.extend (rowwise_putJob j job' fun _ => rfl) fun y _ hxy hr => ?_
  have hlock : Key.job j ∈ [Key.job j] ++ o.locks := by simp
  have hy := (h.job_later hlock hxy).trans hj
  exact hr.putJob hy hslot hmay hs hs' hlock

/-- A new job. Its slot was free when it was inserted, and stays free for
everybody else while the slot is owned. -/
theorem addJob {value : α} (h : Draft o x) (hnew : (o.write x.1).ledger.jobs.find j = none)
    (hfree : ∀ {i a}, (o.write x.1).ledger.jobs.find i = some a →
      a.slot ≠ job.slot) (hs : job.state ≠ .completed) :
    Draft (o.extend (ledgerEffect (insertJob j job α value))) x := by
  refine h.extend (rowwise_putJob j job fun _ => rfl) fun y hy hxy hr => ?_
  have hlock : Key.job j ∈ (insertJob j job α value).locks ++ o.locks := by
    simp [insertJob]
  have hslot : Key.slot job.monitorId job.scheduledAt ∈
      (insertJob j job α value).locks ++ o.locks := by
    simp [insertJob]
  refine hr.addJob ((h.job_later hlock hxy).trans hnew) ?_ hs hlock hslot
  intro i a ha hslots
  -- a job of the slot that is there later was there when the slot was free
  have hmem : ∀ κ, κ ∈ o.locks → κ ∈ (insertJob j job α value).locks ++ o.locks :=
    fun κ hκ => List.mem_append_right _ hκ
  have hold := h.routine y hy (hxy.anti hmem)
  have hstep := hold.jobs i
  rw [ha] at hstep
  generalize hyi : y.1.ledger.jobs.find i = before at hstep
  cases hstep with
  | create =>
    have hown : Key.job i ∈ o.locks := hold.jobLock (by
      rw [ha, hyi]
      exact Option.some_ne_none _)
    exact hfree ((h.job_later (hmem _ hown) hxy).symm.trans ha) hslots
  | keep hsame _ =>
  have hx := hxy.slot hslot hyi (hsame.symm.trans hslots)
  obtain ⟨b, hb⟩ := Option.ne_none_iff_exists'.mp hx
  have hxyi := hxy.jobs i
  rw [hb, hyi] at hxyi
  obtain ⟨_, heq, hb', -⟩ := hxyi.of_some
  cases heq
  have hnow := h.now.jobs i
  rw [hb] at hnow
  obtain ⟨c, hc, hc', -⟩ := hnow.of_some
  exact hfree hc (hc'.trans (hb'.symm.trans (hsame.symm.trans hslots)))

theorem putDispatch {d' : Dispatch} {e : Effect Ledger Key α} (h : Draft o x)
    (he : e.write = fun l => { l with outbox := l.outbox.put j d' })
    (hL : e.locks = [Key.dispatch j]) (hd : x.1.ledger.outbox.find j = some d)
    (hp : d'.payload = d.payload) (hc : DispatchChange d d') (ha : d'.publishAttempts ≤ 3)
    (ht : d'.publishLeaseToken ≠ none → d'.publishState = .publishing ∨ d'.publishState = .repaired)
    (hr : d'.publishState = .repaired → x.1.ledger.checks.find j ≠ none) :
    Draft (o.extend (ledgerEffect e)) x := by
  have hwrite : ∀ db, ((ledgerEffect e).write db).ledger =
      { db.ledger with outbox := db.ledger.outbox.put j d' } := by
    intro db
    show e.write db.ledger = _
    rw [he]
  refine h.extend (rowwise_putDispatch j _ hwrite) fun y _ hxy hrt => ?_
  have hlock : Key.dispatch j ∈ (ledgerEffect e).locks ++ o.locks := by
    show Key.dispatch j ∈ e.locks ++ o.locks
    rw [hL]
    simp
  rw [hwrite]
  refine hrt.putDispatch ((hxy.dispatch hlock).trans hd) hp hc ha ht ?_ hlock
  intro hrep
  obtain ⟨c, hc⟩ := Option.ne_none_iff_exists'.mp (hr hrep)
  rw [hrt.sameChecks, hxy.checks hc]
  exact Option.some_ne_none _

/-- The dispatch of a job that this transaction has inserted itself. -/
theorem addDispatch {e : Effect Ledger Key α} (h : Draft o x)
    (he : e.write = fun l => { l with outbox := l.outbox.put j d })
    (hL : e.locks = [Key.dispatch j]) (hnew : (o.write x.1).ledger.outbox.find j = none)
    (hown : Key.job j ∈ o.locks) (hxj : x.1.ledger.jobs.find j = none)
    (hvj : (o.write x.1).ledger.jobs.find j ≠ none)
    (haddr : d.payload.messageDeduplicationId = j ∧ d.payload.messageGroupId = j)
    (hs : d.publishState = .pending) (ht : d.publishLeaseToken = none)
    (ha : d.publishAttempts = 0) :
    Draft (o.extend (ledgerEffect e)) x := by
  have hwrite : ∀ db, ((ledgerEffect e).write db).ledger =
      { db.ledger with outbox := db.ledger.outbox.put j d } := by
    intro db
    show e.write db.ledger = _
    rw [he]
  refine h.extend (rowwise_putDispatch j _ hwrite) fun y hy hxy hrt => ?_
  have hlock : Key.dispatch j ∈ (ledgerEffect e).locks ++ o.locks := by
    show Key.dispatch j ∈ e.locks ++ o.locks
    rw [hL]
    simp
  have hjob : Key.job j ∈ (ledgerEffect e).locks ++ o.locks :=
    List.mem_append_right _ hown
  have hyj : y.1.ledger.jobs.find j = none := (hxy.job hjob).1.trans hxj
  rw [hwrite]
  refine hrt.addDispatch ?_ hyj ?_ haddr hs ht ha hlock
  · exact (h.rowwise.outbox (hxy.dispatch hlock)).trans hnew
  · rw [h.job_later hjob hxy]
    exact hvj

/-- The transaction may open a gap for the job: it owns the job, which is not
completed, or it owns a dispatch nobody has published. -/
def Entitled (o : Open Database Key Env) (x : State) (i : Uuid) (job : CheckJob) : Prop :=
  (Key.job i ∈ o.locks ∧ job.state ≠ .completed) ∨
    (Key.dispatch i ∈ o.locks ∧ ∃ d, x.1.ledger.outbox.find i = some d ∧ d.publishState = .pending)

theorem gap {k : GapKey} {org envId : Uuid} {e : Effect Database Key Nat} (h : Draft o x)
    (hk : Recovered k → ∃ i job, (o.write x.1).ledger.jobs.find i = some job ∧
      Concerns k job ∧ Entitled o x i job)
    (he : insertMonitoringCoverageGap k org envId begun env busy (o.write x.1) = some e) :
    Draft (o.extend e) x := by
  obtain ⟨e', he', rfl⟩ := onLedger_some he
  split at he'
  · cases he'
    exact h.still fun _ => rfl
  cases he'
  refine h.extend (rowwise_same (fun _ => rfl) fun _ => rfl)
    fun y hy hxy hrt => hrt.putGap fun hrec => ?_
  obtain ⟨i, job, hj, hc, hent⟩ := hk hrec
  rcases hent with ⟨hlock, hs⟩ | ⟨hlock, d, hd, hs⟩
  · have hlock' : Key.job i ∈ [Key.gap k] ++ o.locks :=
      List.mem_append_right _ hlock
    exact ⟨i, job, (h.job_later hlock' hxy).trans hj, hc, .job hlock' hs⟩
  · have hlock' : Key.dispatch i ∈ [Key.gap k] ++ o.locks :=
      List.mem_append_right _ hlock
    -- the job of a committed dispatch is there, and never leaves its slot
    obtain ⟨a, ha⟩ := Option.ne_none_iff_exists'.mp (h.wellFormed.owned hd)
    have hnow := h.now.jobs i
    rw [ha, hj] at hnow
    obtain ⟨_, heq, hslot, -⟩ := hnow.of_some
    cases heq
    obtain ⟨b, hb, hslot', -⟩ := (ha ▸ hxy.jobs i : JobStep (some a) _).of_some
    obtain ⟨c, hc', hslot'', -⟩ := (hb ▸ hrt.jobs i : JobStep (some b) _).of_some
    refine ⟨i, c, hc', ?_, .dispatch hlock' ((hxy.dispatch hlock').trans hd) hs ?_⟩
    · exact hslot''.trans (hslot'.trans (hslot.symm.trans hc))
    · rw [hrt.sameChecks]

/-- The same for a gap that names the slot of a job. -/
theorem gapFromJob {reason : GapReason} {e : Effect Database Key Nat} (h : Draft o x)
    (hj : ∀ job, (o.write x.1).ledger.jobs.find j = some job → Entitled o x j job)
    (he : insertCoverageGapFromJob reason j begun env busy (o.write x.1) = some e) :
    Draft (o.extend e) x := by
  unfold insertCoverageGapFromJob at he
  split at he
  · cases he
    exact h.still fun _ => rfl
  · next job hfind =>
    refine h.gap (fun _ => ?_) he
    exact ⟨j, job, hfind, rfl, hj job hfind⟩

theorem quarantine {r : QuarantineRow} {e : Effect Ledger Key α} (h : Draft o x)
    (he : e.write = fun l => { l with quarantine := l.quarantine.add r }) :
    Draft (o.extend (ledgerEffect e)) x := by
  have hwrite : ∀ db, ((ledgerEffect e).write db).ledger =
      { db.ledger with quarantine := db.ledger.quarantine.add r } := by
    intro db
    show e.write db.ledger = _
    rw [he]
  refine h.extend (rowwise_same (fun db => by rw [hwrite])
    fun db => by rw [hwrite]) fun y _ _ hrt => ?_
  rw [hwrite]
  exact hrt.addQuarantine

end Draft

/-! ## The rules for drafts -/

section Rules

variable {P : Primitives} {α β : Type} {i : Nat} {a : Local}
variable {o : Open Database Key Env} {x : State}

theorem holds_draft {q : Stmt α} {k : Except Fault α → Prog β} {E : β → Prop}
    {Q : β → Open Database Key Env → State → Prop} (h : Draft o x)
    (hq : ∀ env busy e, q o.begun env busy (o.write x.1) = some e → Draft (o.extend e) x)
    (hok : ∀ env busy e, q o.begun env busy (o.write x.1) = some e → ∀ y, Draft (o.extend e) y →
        Keeps (· ∈ e.locks ++ o.locks) x.1.ledger y.1.ledger →
        (fifo P).Holds remote E Q (k (.ok e.value)) (o.extend e) y)
    (herr : ∀ f, Prog.Fails remote E (k (.error f))) :
    (fifo P).Holds remote E Q (query q >>= k) o x := by
  refine holds_query (fun env busy e he y hy => ?_) herr
  exact hok env busy e he y ((hq env busy e he).later hy) (hy h.wellFormed).2

theorem meets_draft {q : Stmt α} {k : Except Fault α → Prog β} (h : Draft o x)
    (hq : ∀ env busy e, q o.begun env busy (o.write x.1) = some e → Draft (o.extend e) x)
    (hok : ∀ env busy e, q o.begun env busy (o.write x.1) = some e → ∀ y, Draft (o.extend e) y →
        Keeps (· ∈ e.locks ++ o.locks) x.1.ledger y.1.ledger →
        (fifo P).Meets remote i (k (.ok e.value)) (.active (o.extend e)) a y)
    (herr : ∀ f y, (fifo P).Meets remote i (k (.error f)) .failed a y) :
    (fifo P).Meets remote i (query q >>= k) (.active o) a x := by
  refine meets_query (fun env busy e he y hy => ?_) fun f y _ => herr f y
  exact hok env busy e he y ((hq env busy e he).later hy) (hy h.wellFormed).2

/-- A draft may be committed by a call that is idle. -/
theorem meets_commit_draft {k : Except Fault Unit → Prog β} (h : Draft o x)
    (hk : ∀ r y, WellFormed y.1.ledger → (fifo P).Meets remote i (k r) .idle .idle y) :
    (fifo P).Meets remote i (commit >>= k) (.active o) .idle x := by
  have hnow := h.now.toCommit
  refine meets_commit ⟨.idle, moves_commit hnow, fun r y hy => ?_⟩ ?_
  · exact hk r y (hy hnow.wellFormed).1
  · exact fun y hy => hk _ y (hy h.wellFormed).1

/-- A call nobody remembers changes nothing. -/
theorem meets_unseen {c : Call α} {ses : Session Database Key Env}
    {k : α → Prog β} (hc : ∀ i r w, remote.observe i c r w = w)
    (hk : ∀ r y, Relies (· ∈ ses.locks) x y → (fifo P).Meets remote i (k r) ses a y) :
    (fifo P).Meets remote i (call c >>= k) ses a x := by
  refine meets_call fun env => ?_
  rw [hc]
  exact ⟨a, ⟨.stay a x, fun _ _ => (fifo P).rely_refl _ x⟩, fun y hy => hk _ y hy⟩

theorem Move.stays (i : Nat) (a : Local) (x : State) : (fifo P).move i a x a x := .stay a x

/-- A stretch of statements inside a call. -/
theorem meets_stretch {p : Prog α} {k : α → Prog β} {E : α → Prop}
    {Q : α → Open Database Key Env → State → Prop}
    (hp : (fifo P).Holds remote E Q p o x)
    (hok : ∀ r o' y, Q r o' y → (fifo P).Meets remote i (k r) (.active o') a y)
    (hfail : ∀ r y, E r → (fifo P).Meets remote i (k r) .failed a y) :
    (fifo P).Meets remote i (p >>= k) (.active o) a x :=
  meets_holds Move.stays hp hok fun r y hr _ => hfail r y hr

/-- A stretch after a failure. -/
theorem meets_failed {p : Prog α} {k : α → Prog β} {E : α → Prop} (hp : Prog.Fails remote E p)
    (hk : ∀ r y, E r → (fifo P).Meets remote i (k r) .failed a y) :
    (fifo P).Meets remote i (p >>= k) .failed a x :=
  meets_fails (fun _ b y => Move.stay b y) (fun _ h => by cases h) hp fun r y hr _ => hk r y hr

/-- A stretch outside any transaction. -/
theorem meets_outside {p : Prog α} {k : α → Prog β}
    (hp : Prog.Fails remote (fun _ => True) p) (hx : WellFormed x.1.ledger)
    (hk : ∀ r y, WellFormed y.1.ledger → (fifo P).Meets remote i (k r) .idle a y) :
    (fifo P).Meets remote i (p >>= k) .idle a x :=
  meets_fails (fun _ b y => Move.stay b y) (fun _ h => by cases h) hp
    fun r y _ hy => hk r y (hy hx).1

end Rules

/-! ## Statements apart from the ledger -/

/-- The ledger is left alone. -/
def Apart (w : Database → Database) : Prop := ∀ db, (w db).ledger = db.ledger

variable {o : Open Database Key Env} {x : State}

theorem Draft.extends {o' : Open Database Key Env} (h : Draft o x) (hext : o.Extends Apart o') :
    Draft o' x := by
  obtain ⟨-, hlocks, w, hw, hwrite⟩ := hext
  have hsame : ∀ db, (o'.write db).ledger = (o.write db).ledger := by
    intro db
    rw [hwrite, hw]
  refine { rowwise := ⟨fun hxy => ?_, fun hxy => ?_⟩, wellFormed := h.wellFormed
           routine := fun y hy hxy => ?_ }
  · rw [hsame, hsame]
    exact h.rowwise.jobs hxy
  · rw [hsame, hsame]
    exact h.rowwise.outbox hxy
  · rw [hsame]
    exact (h.routine y hy (hxy.anti hlocks)).mono hlocks

section Apart

variable {P : Primitives} {α β : Type}

theorem holds_apart {p : Prog α} (h : Draft o x) (hp : Prog.Quiet remote Apart p) :
    (fifo P).Holds remote (fun _ => True) (fun _ o' y => o.Extends Apart o' ∧ Draft o' y ∧
        Keeps (· ∈ o.locks) x.1.ledger y.1.ledger) p o x := by
  refine (holds_quiet (fun _ => rfl)
    (fun hv hw db => (hw _).trans (hv db)) hp).mono fun r o' y hy => ?_
  exact ⟨hy.1, (h.later hy.2).extends hy.1, (hy.2 h.wellFormed).2⟩

theorem insertRefreshEvent_apart {event : RefreshEvent} {db : Database}
    {e : Effect Database Key Unit} (h : insertRefreshEvent event begun env busy db = some e) :
    Apart e.write :=
  onJournal_ledger h

theorem quiet_clock : Prog.Quiet remote Apart clock :=
  ⟨fun _ _ _ => rfl, fun _ => trivial⟩

end Apart

end WatchTrace.Proofs
