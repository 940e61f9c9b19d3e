import WatchTrace.Model.Retention
import WatchTrace.Proofs.Conflict
import WatchTrace.Proofs.Slots

/-!
# Old rows that cannot go

Both calls that delete old jobs can be stopped by a row that refers to one.
`CleanupLedger` does not look for such rows at all; `ApplyRetention` looks for
health checks and forgets the recorded conflicts. Since a refused row fails its
statement and the statement its transaction, one such job is enough, and what
the transaction had deleted before comes back.

For either call the two outcomes are told apart by the rows it finds. The only
step with an argument in it is the one over the listed jobs: deleting a job
takes nothing away that refers to another, so whether a job is refused can be
asked of the database before the statement.
-/

namespace WatchTrace.Proofs

open Tx Model

/-! ## Jobs, one by one -/

variable {kept : Ledger → Uuid → Bool}

variable {α : Type}

section Jobs

variable {stale : CheckJob → Bool} {id : Uuid} {job : CheckJob} {ids : List Uuid}
  {db db' : Database}

/-- A database without the job and its dispatch. -/
def withoutJob (id : Uuid) (db : Database) : Database :=
  { db with ledger := { db.ledger with
      jobs := db.ledger.jobs.drop id, outbox := db.ledger.outbox.drop id } }

/-- What the delete of one job makes of the rows. -/
def removeJob (stale : CheckJob → Bool) (id : Uuid) (db : Database) : Option Database :=
  match db.ledger.jobs.find id with
  | none => some db
  | some job =>
    if stale job then
      if db.ledger.referenced id job then none else some (withoutJob id db)
    else some db

theorem deleteCheckJob_apply (begun env : Env) (db : Database) :
    Stmt.apply (deleteCheckJob stale id) begun env db = removeJob stale id db := by
  simp only [Stmt.apply, deleteCheckJob, onLedger, Tx.Stmt.zoom, removeJob]
  cases db.ledger.jobs.find id with
  | none => rfl
  | some job =>
  by_cases hstale : stale job = true
  · by_cases href : db.ledger.referenced id job = true
    · simp [hstale, href]
    · simp only [hstale, href]
      rfl
  · simp only [hstale]
    rfl

/-- No old job among these is referred to. -/
def Unreferenced (stale : CheckJob → Bool) (ids : List Uuid) (db : Database) : Prop :=
  ∀ id ∈ ids, ∀ job, db.ledger.jobs.find id = some job → stale job = true →
    db.ledger.referenced id job = false

theorem removeJob_of_unreferenced (h : Unreferenced stale (id :: ids) db) :
    ∃ db', removeJob stale id db = some db' ∧ Unreferenced stale ids db' := by
  have htail : Unreferenced stale ids db :=
    fun id' hid' => h id' (List.mem_cons_of_mem _ hid')
  cases hfind : db.ledger.jobs.find id with
  | none => exact ⟨db, by simp only [removeJob, hfind], htail⟩
  | some job =>
  by_cases hstale : stale job = true
  · have href := h id List.mem_cons_self job hfind hstale
    refine ⟨withoutJob id db, by simp [removeJob, hfind, hstale, href], ?_⟩
    intro id' hid' job' hfind'
    -- the job is still there, so it was there before
    have hbefore : (db.ledger.jobs.drop id).find id' = some job' := hfind'
    rw [Table.find_drop_eq] at hbefore
    split at hbefore
    · cases hbefore
    · exact htail id' hid' job' hbefore
  · exact ⟨db, by simp [removeJob, hfind, hstale], htail⟩

theorem removeJobs_of_unreferenced (h : Unreferenced stale ids db) :
    ∃ db', ids.foldlM (fun v id => removeJob stale id v) db = some db' := by
  induction ids generalizing db with
  | nil => exact ⟨db, rfl⟩
  | cons id ids ih =>
    obtain ⟨db₁, h₁, htail⟩ := removeJob_of_unreferenced h
    obtain ⟨db', hdb'⟩ := ih htail
    exact ⟨db', by rw [List.foldlM_cons, h₁]; exact hdb'⟩

/-- What the delete of one job cannot change: whether another is refused. -/
theorem removeJob_some (h : removeJob stale id db = some db') :
    db' = db ∨ db' = withoutJob id db := by
  unfold removeJob at h
  split at h
  · exact .inl (Option.some.inj h).symm
  split at h
  · split at h
    · cases h
    · exact .inr (Option.some.inj h).symm
  · exact .inl (Option.some.inj h).symm

/-- What no job's delete changes, the statement does not change. -/
theorem removeJobs_keep (part : Database → α)
    (hfold : ids.foldlM (fun v id => removeJob stale id v) db = some db')
    (h : ∀ id db, part (withoutJob id db) = part db) : part db' = part db := by
  refine foldlM_related (T := fun _ db db' => part db' = part db) ?_ ?_ hfold
  · intro db
    rfl
  · intro id rest db db₁ db' hfirst hrest
    rw [hrest]
    rcases removeJob_some hfirst with rfl | rfl
    · rfl
    · exact h id db

theorem unreferenced_of_removeJobs
    (h : ids.foldlM (fun v id => removeJob stale id v) db = some db') :
    Unreferenced stale ids db := by
  induction ids generalizing db with
  | nil => exact fun id hid => absurd hid List.not_mem_nil
  | cons id ids ih =>
    rw [List.foldlM_cons] at h
    obtain ⟨db₁, h₁, hrest⟩ := Option.bind_eq_some_iff.mp h
    have htail := ih hrest
    intro id' hid' job' hfind hstale
    by_cases hsame : id' = id
    · subst hsame
      rw [← Bool.not_eq_true]
      intro href
      simp [removeJob, hfind, hstale, href] at h₁
    have hmem : id' ∈ ids := by
      rcases List.mem_cons.mp hid' with heq | hmem
      · exact absurd heq hsame
      · exact hmem
    rcases removeJob_some h₁ with rfl | rfl
    · exact htail id' hmem job' hfind hstale
    · have hkept : (withoutJob id db).ledger.jobs.find id' = some job' :=
        (Table.find_drop_ne _ hsame).trans hfind
      exact htail id' hmem job' hkept hstale

/-- The jobs a statement lists. -/
def staleJobs (stale : CheckJob → Bool) (kept : Ledger → Uuid → Bool) (l : Ledger) : List Uuid :=
  (l.jobs.rows.filter fun e => stale e.2 && !kept l e.1).map Prod.fst

theorem listStaleJobs_lists (begun env : Env) (busy : Key → Bool) (db : Database) :
    listStaleJobs stale kept begun env busy db =
      some { value := staleJobs stale kept db.ledger } := rfl

theorem mem_staleJobs {l : Ledger} : id ∈ staleJobs stale kept l ↔
      ∃ job, l.jobs.find id = some job ∧ stale job = true ∧ kept l id = false := by
  simp only [staleJobs, Table.mem_keys_filter, Bool.and_eq_true, Bool.not_eq_true']

theorem unreferenced_staleJobs : Unreferenced stale (staleJobs stale kept db.ledger) db ↔
      ∀ id job, db.ledger.jobs.find id = some job → stale job = true →
        kept db.ledger id = false → db.ledger.referenced id job = false := by
  constructor
  · intro h id job hfind hstale hkept
    exact h id (mem_staleJobs.mpr ⟨job, hfind, hstale, hkept⟩) job hfind hstale
  · intro h id hid job hfind hstale
    obtain ⟨_, _, _, hkept⟩ := mem_staleJobs.mp hid
    exact h id job hfind hstale hkept

end Jobs

/-! ## A statement that only deletes

The other deletes are never refused. What is left of the table, and what is
left of everything else, follows from what one row's delete does. -/

variable {db db' : Database}

section Rows

variable {κ ρ : Type} [DecidableEq κ] {table : Database → Table κ ρ}
  {remove : κ → Database → Database} {locks : κ → List Key}

/-- What the delete of one row makes of the rows. -/
def removeRow (table : Database → Table κ ρ) (remove : κ → Database → Database)
    (key : κ) (db : Database) : Option Database :=
  some (if ((table db).find key).isSome then remove key db else db)

theorem deleteRow_apply (key : κ) (begun env : Env) (db : Database) :
    Stmt.apply (deleteRow table remove locks key) begun env db =
      removeRow table remove key db := by
  simp only [Stmt.apply, deleteRow, removeRow]
  cases (table db).find key with
  | none | some => rfl

/-- Removing a row removes it, and no other. -/
def Removes (table : Database → Table κ ρ) (remove : κ → Database → Database) : Prop :=
  ∀ key key' db, (table (remove key db)).find key' =
    if key' = key then none else (table db).find key'

theorem find_removeRows (h : Removes table remove) {keys : List κ}
    (hfold : keys.foldlM (fun v key => removeRow table remove key v) db = some db') (key : κ) :
    (table db').find key = if key ∈ keys then none else (table db).find key := by
  revert key
  refine foldlM_related (T := fun keys db db' => ∀ key, (table db').find key =
      if key ∈ keys then none else (table db).find key) ?_ ?_ hfold
  · intro db key
    simp
  · intro first rest db db₁ db' hfirst hrest key
    have hone : (table db₁).find key =
        if key = first then none else (table db).find key := by
      rw [← Option.some.inj hfirst]
      split
      · exact h first key db
      next habsent =>
      by_cases hkey : key = first
      · rw [if_pos hkey, hkey]
        exact Option.not_isSome_iff_eq_none.mp habsent
      · rw [if_neg hkey]
    rw [hrest key, hone]
    by_cases hkey : key = first
    · simp [hkey]
    · simp [hkey]

/-- What no row's delete changes, the statement does not change. -/
theorem removeRows_keep (part : Database → α) {keys : List κ}
    (hfold : keys.foldlM (fun v key => removeRow table remove key v) db = some db')
    (h : ∀ key db, part (remove key db) = part db) :
    part db' = part db := by
  refine foldlM_related (T := fun _ db db' => part db' = part db) ?_ ?_ hfold
  · intro db
    rfl
  · intro first rest db db₁ db' hfirst hrest
    rw [hrest, ← Option.some.inj hfirst]
    split
    · exact h first db
    · rfl

theorem removes_check : Removes (fun db => db.ledger.checks) Database.withoutCheck :=
  fun key key' db => Table.find_drop_eq db.ledger.checks key key'

theorem removes_rollup (kind : BucketKind) :
    Removes (fun db => db.journal.rollups kind) (Database.withoutRollup kind) := by
  intro key key' db
  cases kind with
  | hourly => exact Table.find_drop_eq db.journal.hourly key key'
  | daily => exact Table.find_drop_eq db.journal.daily key key'

/-- What is left when the listed rows are exactly those with some property. -/
theorem find_removeRows_filter (h : Removes table remove) {p : κ → ρ → Bool} {keys : List κ}
    (hkeys : ∀ key, key ∈ keys ↔ ∃ row, (table db).find key = some row ∧ p key row = true)
    (hfold : keys.foldlM (fun v key => removeRow table remove key v) db = some db') (key : κ) :
    (table db').find key = ((table db).find key).filter fun row => !p key row := by
  rw [find_removeRows h hfold]
  by_cases hmem : key ∈ keys
  · obtain ⟨row, hrow, hp⟩ := (hkeys key).mp hmem
    rw [if_pos hmem, hrow]
    simp [Option.filter, hp]
  rw [if_neg hmem]
  cases hrow : (table db).find key with
  | none => rfl
  | some row =>
  have hp : p key row = false := by
    rw [← Bool.not_eq_true]
    intro hp
    exact hmem ((hkeys key).mpr ⟨row, hrow, hp⟩)
  simp [Option.filter, hp]

end Rows

/-! ## The statements, alone -/

section Alone

variable (i n : Nat) (env : Nat → Env) (w : World) {o : Open Database Key Env} {db v : Database}

theorem deleteRows_done {κ ρ : Type} [DecidableEq κ] {table : Database → Table κ ρ}
    {remove : κ → Database → Database} {locks : κ → List Key}
    {listing : Stmt (List κ)} {keys : List κ}
    (hlist : listing o.begun (env n) (fun _ => false) (o.write db) = some { value := keys }) :
    ∃ total n' o', o'.begun = o.begun ∧
      keys.foldlM (fun v key => removeRow table remove key v) (o.write db) = some (o'.write db) ∧
      (forRows listing (deleteRow table remove locks) : Prog (Except Fault Nat)).exec remote i env
        ⟨n, .active o, db, w⟩ = (.ok total, ⟨n', .active o', db, w⟩) := by
  have htotal : ∀ key v, ∃ v', removeRow table remove key v = some v' :=
    fun key v => ⟨_, rfl⟩
  obtain ⟨v, hv⟩ := foldlM_total htotal keys (o.write db)
  obtain ⟨total, n', o', _, hbegun, hwrite, hexec⟩ :=
    Prog.exec_forRows (R := remote) (i := i) (w := w) hlist
      (fun key e v => deleteRow_apply key o.begun e v) hv
  exact ⟨total, n', o', hbegun, by rw [hwrite]; exact hv, hexec⟩

variable {completedBefore nonterminalBefore : Time} {kept : Ledger → Uuid → Bool}

/-- The condition of both deletes, with its two cut-offs. -/
abbrev staleBefore (completedBefore nonterminalBefore : Time) : CheckJob → Bool :=
  fun job => job.stale completedBefore nonterminalBefore

/-- Deleting the listed jobs, one after the other. -/
def removeStaleJobs (completedBefore nonterminalBefore : Time)
    (kept : Ledger → Uuid → Bool) (db : Database) : Option Database :=
  (staleJobs (staleBefore completedBefore nonterminalBefore) kept db.ledger).foldlM
    (fun v id => removeJob (staleBefore completedBefore nonterminalBefore) id v) db

theorem deleteStaleJobs_done
    (h : removeStaleJobs completedBefore nonterminalBefore kept (o.write db) = some v) :
    ∃ total n' o', o'.begun = o.begun ∧ o'.write db = v ∧
      (deleteStaleJobs completedBefore nonterminalBefore kept).exec remote i env
        ⟨n, .active o, db, w⟩ = (.ok total, ⟨n', .active o', db, w⟩) := by
  obtain ⟨total, n', o', _, hbegun, hwrite, hexec⟩ :=
    Prog.exec_forRows (R := remote) (i := i) (w := w)
      (listStaleJobs_lists o.begun (env n) _ (o.write db))
      (fun id e v => deleteCheckJob_apply o.begun e v) h
  exact ⟨total, n', o', hbegun, hwrite, hexec⟩

theorem deleteStaleJobs_refused
    (h : removeStaleJobs completedBefore nonterminalBefore kept (o.write db) = none) :
    ∃ n', (deleteStaleJobs completedBefore nonterminalBefore kept).exec remote i env
      ⟨n, .active o, db, w⟩ = (.error .failed, ⟨n', .failed, db, w⟩) := by
  obtain ⟨n', _, hexec⟩ :=
    Prog.exec_forRows_refused (R := remote) (i := i) (w := w)
      (listStaleJobs_lists o.begun (env n) _ (o.write db))
      (fun id e v => deleteCheckJob_apply o.begun e v) h
  exact ⟨n', hexec⟩

theorem removeStaleJobs_iff :
    (∃ v, removeStaleJobs completedBefore nonterminalBefore kept db = some v) ↔
      ∀ id job, db.ledger.jobs.find id = some job →
        job.stale completedBefore nonterminalBefore = true →
        kept db.ledger id = false → db.ledger.referenced id job = false := by
  constructor
  · intro ⟨v, hv⟩
    exact unreferenced_staleJobs.mp (unreferenced_of_removeJobs hv)
  · intro h
    exact removeJobs_of_unreferenced (unreferenced_staleJobs.mpr h)

end Alone

/-! ## `CleanupLedger` -/

variable {id : Uuid}

section Cleanup

variable (i n : Nat) (env : Nat → Env) (w : World) {db v : Database} {now : Time}

/-- The jobs `CleanupLedger` and `ApplyRetention` find old at `now`. -/
abbrev oldAt (now : Time) (job : CheckJob) : Bool :=
  job.stale (databaseTimestamp (now - 48 * hour)) (databaseTimestamp (now - 7 * day))

/-- The deletes of `CleanupLedger`, row by row. -/
def cleanedUp (now : Time) (db : Database) : Option Database :=
  removeStaleJobs (databaseTimestamp (now - 48 * hour))
    (databaseTimestamp (now - 7 * day)) (fun _ _ => false) db

theorem cleanupLedger_done (h : cleanedUp now db = some v) :
    ∃ count n', (cleanupLedger now).exec remote i env ⟨n, .idle, db, w⟩ =
      (.ok count, ⟨n', .idle, v, w⟩) := by
  obtain ⟨count, n', o', _, hwrite, hexec⟩ := deleteStaleJobs_done i (n + 1)
    env w (o := .fresh (env n)) h
  refine ⟨count, n' + 1, ?_⟩
  rw [cleanupLedger, Prog.exec_then Prog.exec_start]
  dsimp only
  rw [deleteOldLedgerJobs, Prog.exec_then hexec]
  dsimp only
  rw [Prog.exec_then Prog.exec_commit, hwrite]
  rfl

theorem cleanupLedger_refused (h : cleanedUp now db = none) :
    ∃ n', (cleanupLedger now).exec remote i env ⟨n, .idle, db, w⟩ =
      (.error .database, ⟨n', .failed, db, w⟩) := by
  obtain ⟨n', hexec⟩ := deleteStaleJobs_refused i (n + 1) env w (o := .fresh (env n)) h
  refine ⟨n', ?_⟩
  rw [cleanupLedger, Prog.exec_then Prog.exec_start]
  dsimp only
  rw [deleteOldLedgerJobs, Prog.exec_then hexec]
  rfl

/-- A job that is old and referred to stops `CleanupLedger`, and nothing
changes. -/
theorem cleanupLedger_stopped {job : CheckJob} (hjob : db.ledger.jobs.find id = some job)
    (hold : oldAt now job = true) (href : db.ledger.referenced id job = true) :
    (cleanupLedger now).solo remote i env n .idle db w = (.error .database, db, w) := by
  have hnone : cleanedUp now db = none := by
    cases hv : cleanedUp now db with
    | none => rfl
    | some v =>
    have hfree := removeStaleJobs_iff.mp ⟨v, hv⟩ id job hjob hold rfl
    rw [href] at hfree
    cases hfree
  obtain ⟨n', hexec⟩ := cleanupLedger_refused i n env w hnone
  rw [Prog.solo_eq, hexec]

end Cleanup

namespace Sample

/-- The job is scheduled, its result 21 is accepted, and result 22 of the same
job is recorded as a conflict. -/
def disputing : Script := scheduling ++ consuming 1 62 21 ++ consuming 2 63 22

theorem fair_disputing : Fair disputing :=
  fair_append (fair_append fair_scheduling (fair_consuming 1 62 21)) (fair_consuming 2 63 22)

/-- What the two deletes look at of the one job. -/
def remains (s : System) : Option (JobState × Option Time) × Bool × Bool :=
  ((s.db.ledger.jobs.find 11).map fun job => (job.state, job.completedAt),
    (s.db.ledger.checks.find 11).isSome, s.db.ledger.conflictRefers 11)

theorem disputed : ∃ s, Reachable primitives s ∧
    remains s = (some (.completed, some (62 * second)), true, true) := by
  obtain ⟨s, -, hreach, hremains⟩ := reachable_of_script (f := remains)
    (a := (some (.completed, some (62 * second)), true, true)) fair_disputing
    (by decide +kernel)
  exact ⟨s, hreach, hremains⟩

end Sample

/-- Times that are a microsecond apart are still apart on the server. -/
theorem lt_databaseTimestamp {a t : Int} (h : a + microsecond ≤ t) :
    a < databaseTimestamp t := by
  have h' : a + 1000 ≤ t := h
  show a < t - t % 1000
  omega

/-! ## `ApplyRetention` -/

/-- The core without the evaluations, which go with their checks. -/
def bareCore (db : Database) : Core := { db.core with evaluations := .empty }

/-- What the deletes of retention leave of checks and rollups. -/
structure Retained (now : Time) (db db' : Database) : Prop where
  checks : ∀ id, db'.ledger.checks.find id =
    (db.ledger.checks.find id).filter fun check =>
      !check.disposable db.journal (databaseTimestamp (now - 7 * day))
  hourly : ∀ key, db'.journal.hourly.find key =
    (db.journal.hourly.find key).filter fun _ =>
      !(decide (key.2 < databaseTimestamp (now - 90 * day)) &&
        db.journal.settled .daily key.1 key.2)
  daily : ∀ key, db'.journal.daily.find key =
    (db.journal.daily.find key).filter fun _ => !decide (key.2 < dateYearBefore now)
  core : bareCore db' = bareCore db
  marks : db'.journal.invalidations = db.journal.invalidations
  hourlyThrough : db'.journal.checkpoint.hourlyThrough = db.journal.checkpoint.hourlyThrough
  dailyThrough : db'.journal.checkpoint.dailyThrough = db.journal.checkpoint.dailyThrough

/-- The same before the jobs' turn, when what refers to them is still there. -/
structure Trimmed (now : Time) (db db' : Database) : Prop
    extends Retained now db db' where
  jobs : db'.ledger.jobs = db.ledger.jobs
  conflicts : db'.ledger.conflicts = db.ledger.conflicts

section Trim

variable {now : Time} {db v₁ v₂ v₃ v₄ : Database}

/-- The columns no delete of this call touches. -/
def untouched (db : Database) :=
  (db.ledger.jobs, db.ledger.conflicts, bareCore db, db.journal.invalidations,
    db.journal.checkpoint)

theorem untouched_rollup (kind : BucketKind) (key : Uuid × Time) (db : Database) :
    untouched (db.withoutRollup kind key) = untouched db := by
  cases kind <;> rfl

theorem trimmed_of
    (h₁ : ((db.ledger.checks.rows.filter fun e =>
      e.2.disposable db.journal (databaseTimestamp (now - 7 * day))).map Prod.fst).foldlM
        (fun v key => removeRow (fun db => db.ledger.checks) Database.withoutCheck key v)
        db = some v₁)
    {gaps : List GapKey}
    (h₂ : gaps.foldlM (fun v key => removeRow (fun db => db.ledger.gaps)
      Database.withoutGap key v) v₁ = some v₂)
    (h₃ : (((v₂.journal.rollups .hourly).rows.map Prod.fst).filter fun key =>
      decide (key.2 < databaseTimestamp (now - 90 * day)) &&
        v₂.journal.settled .daily key.1 key.2).foldlM
        (fun v key => removeRow (fun db => db.journal.rollups .hourly)
          (Database.withoutRollup .hourly) key v) v₂ = some v₃)
    (h₄ : (((v₃.journal.rollups .daily).rows.map Prod.fst).filter fun key =>
      decide (key.2 < dateYearBefore now)).foldlM
        (fun v key => removeRow (fun db => db.journal.rollups .daily)
          (Database.withoutRollup .daily) key v) v₃ = some v₄) :
    Trimmed now db v₄ := by
  have hjournal : v₂.journal = db.journal :=
    (removeRows_keep Database.journal h₂ fun _ _ => rfl).trans
      (removeRows_keep Database.journal h₁ fun _ _ => rfl)
  have hledger : v₄.ledger = v₂.ledger := by
    have h₃' : v₃.ledger = v₂.ledger :=
      removeRows_keep Database.ledger h₃ fun _ _ => rfl
    have h₄' : v₄.ledger = v₃.ledger :=
      removeRows_keep Database.ledger h₄ fun _ _ => rfl
    exact h₄'.trans h₃'
  have hchecks : v₂.ledger.checks = v₁.ledger.checks :=
    removeRows_keep (fun db => db.ledger.checks) h₂ fun _ _ => rfl
  have hrest : untouched v₄ = untouched db := by
    have h₁' : untouched v₁ = untouched db :=
      removeRows_keep untouched h₁ fun _ _ => rfl
    have h₂' : untouched v₂ = untouched v₁ :=
      removeRows_keep untouched h₂ fun _ _ => rfl
    have h₃' : untouched v₃ = untouched v₂ :=
      removeRows_keep untouched h₃ (untouched_rollup .hourly)
    have h₄' : untouched v₄ = untouched v₃ :=
      removeRows_keep untouched h₄ (untouched_rollup .daily)
    rw [h₄', h₃', h₂', h₁']
  simp only [untouched, Prod.mk.injEq] at hrest
  obtain ⟨hjobs, hconflicts, hcore, hmarks, hcheckpoint⟩ := hrest
  refine ⟨⟨?_, ?_, ?_, hcore, hmarks, congrArg _ hcheckpoint,
    congrArg _ hcheckpoint⟩, hjobs, hconflicts⟩
  · intro id
    rw [hledger, hchecks]
    exact find_removeRows_filter removes_check (fun key => Table.mem_keys_filter) h₁ id
  · intro key
    have hhourly : v₄.journal.hourly = v₃.journal.hourly :=
      removeRows_keep (fun db => db.journal.hourly) h₄ fun _ _ => rfl
    rw [hhourly, ← hjournal]
    exact find_removeRows_filter (removes_rollup .hourly) (fun key => Table.mem_filter_keys) h₃ key
  · intro key
    have hdaily : v₃.journal.daily = db.journal.daily := by
      rw [← hjournal]
      exact removeRows_keep (fun db => db.journal.daily) h₃ fun _ _ => rfl
    rw [← hdaily]
    exact find_removeRows_filter (removes_rollup .daily) (fun key => Table.mem_filter_keys) h₄ key

end Trim

section Retention

variable (i n : Nat) (env : Nat → Env) (w : World) (db : Database) (now : Time)

/-- What is left of `ApplyRetention` when only jobs are left to delete. -/
def retireJobs (now : Time) (deleted : Nat) : Prog (Except Failure Nat) := do
  let .ok jobs ← deleteRetainedCheckJobs (databaseTimestamp (now - 48 * hour))
    (databaseTimestamp (now - 7 * day)) | return .error .database
  let .ok () ← query (recordRetentionCheckpoint (databaseTimestamp now))
    | return .error .database
  let .ok () ← commit | return .error .database
  return .ok (deleted + jobs)

section Statements

variable {o : Open Database Key Env} {db} (deleteBefore : Time)

theorem deleteRetainedHealthChecks_done : ∃ total n' o',
    (((o.write db).ledger.checks.rows.filter fun e =>
      e.2.disposable (o.write db).journal deleteBefore).map Prod.fst).foldlM
        (fun v key => removeRow (fun db => db.ledger.checks) Database.withoutCheck key v)
        (o.write db) = some (o'.write db) ∧
    (deleteRetainedHealthChecks deleteBefore).exec remote i env ⟨n, .active o, db, w⟩ =
      (.ok total, ⟨n', .active o', db, w⟩) := by
  obtain ⟨total, n', o', _, hfold, hexec⟩ := deleteRows_done i n env w
    (show listRetainedHealthChecks deleteBefore o.begun (env n) (fun _ => false)
      (o.write db) = _ from rfl)
  exact ⟨total, n', o', hfold, hexec⟩

theorem deleteRetainedCoverageGaps_done : ∃ (keys : List GapKey) (total n' : Nat)
    (o' : Open Database Key Env),
    keys.foldlM (fun v key => removeRow (fun db => db.ledger.gaps)
      Database.withoutGap key v) (o.write db) = some (o'.write db) ∧
    (deleteRetainedCoverageGaps deleteBefore).exec remote i env ⟨n, .active o, db, w⟩ =
      (.ok total, ⟨n', .active o', db, w⟩) := by
  obtain ⟨total, n', o', _, hfold, hexec⟩ := deleteRows_done i n env w
    (show listRetainedCoverageGaps deleteBefore o.begun (env n) (fun _ => false)
      (o.write db) = _ from rfl)
  exact ⟨_, total, n', o', hfold, hexec⟩

theorem deleteRollups_done (kind : BucketKind) (old : Journal → Uuid × Time → Bool) : ∃ total n' o',
      ((((o.write db).journal.rollups kind).rows.map Prod.fst).filter
        (old (o.write db).journal)).foldlM
          (fun v key => removeRow (fun db => db.journal.rollups kind)
            (Database.withoutRollup kind) key v) (o.write db) = some (o'.write db) ∧
      (deleteRollups kind old).exec remote i env ⟨n, .active o, db, w⟩ =
        (.ok total, ⟨n', .active o', db, w⟩) := by
  obtain ⟨total, n', o', _, hfold, hexec⟩ := deleteRows_done i n env w
    (show onJournal (.read fun j => ((j.rollups kind).rows.map Prod.fst).filter (old j))
      o.begun (env n) (fun _ => false) (o.write db) = _ from rfl)
  exact ⟨total, n', o', hfold, hexec⟩

end Statements

theorem applyRetention_trims : ∃ deleted m o, Trimmed now db (o.write db) ∧
    (applyRetention now).exec remote i env ⟨n, .idle, db, w⟩ =
      (retireJobs now deleted).exec remote i env ⟨m, .active o, db, w⟩ := by
  obtain ⟨checks, n₁, o₁, hfold₁, hexec₁⟩ := deleteRetainedHealthChecks_done i (n + 1)
    env w (o := .fresh (env n)) (databaseTimestamp (now - 7 * day))
  obtain ⟨keys, gaps, n₂, o₂, hfold₂, hexec₂⟩ := deleteRetainedCoverageGaps_done i n₁
    env w (o := o₁) (databaseTimestamp (now - 7 * day))
  obtain ⟨hourly, n₃, o₃, hfold₃, hexec₃⟩ := deleteRollups_done i n₂ env w (o := o₂)
    .hourly fun j key => decide (key.2 < databaseTimestamp (now - 90 * day)) &&
      j.settled .daily key.1 key.2
  obtain ⟨daily, n₄, o₄, hfold₄, hexec₄⟩ := deleteRollups_done i n₃ env w (o := o₃)
    .daily fun _ key => decide (key.2 < dateYearBefore now)
  refine ⟨checks + gaps + hourly + daily, n₄, o₄, trimmed_of hfold₁ hfold₂ hfold₃ hfold₄, ?_⟩
  rw [applyRetention, Prog.exec_then Prog.exec_start]
  dsimp only
  rw [Prog.exec_then hexec₁]
  dsimp only
  rw [Prog.exec_then hexec₂]
  dsimp only
  rw [deleteRetainedHourlyRollups, Prog.exec_then hexec₃]
  dsimp only
  rw [deleteRetainedDailyRollups, Prog.exec_then hexec₄]
  rfl

/-- A job that would be deleted now although a conflict refers to it: old, and
without a health check that stays. -/
def Blocked (now : Time) (db : Database) (id : Uuid) : Prop :=
  ∃ job, db.ledger.jobs.find id = some job ∧ oldAt now job = true ∧
    (∀ check, db.ledger.checks.find id = some check →
      check.disposable db.journal (databaseTimestamp (now - 7 * day)) = true) ∧
    db.ledger.conflictRefers id = true

/-- The deletes of jobs, after the others. -/
def retired (now : Time) (db : Database) : Option Database :=
  removeStaleJobs (databaseTimestamp (now - 48 * hour))
    (databaseTimestamp (now - 7 * day)) (fun l id => (l.checks.find id).isSome) db

variable {i n env w db now} {v v' : Database}

theorem Trimmed.check_none (h : Trimmed now db v) : v.ledger.checks.find id = none ↔
      ∀ check, db.ledger.checks.find id = some check →
        check.disposable db.journal (databaseTimestamp (now - 7 * day)) = true := by
  rw [h.checks id]
  cases db.ledger.checks.find id with
  | none => simp
  | some check => simp [Option.filter]

/-- Deleting old checks first changes which jobs are left to delete, but not
which of these a conflict refers to. -/
theorem Trimmed.retired_iff (h : Trimmed now db v) :
    (∃ v', retired now v = some v') ↔ ∀ id, ¬ Blocked now db id := by
  have hconflict : ∀ id, v.ledger.conflictRefers id = db.ledger.conflictRefers id :=
    fun id => by rw [Ledger.conflictRefers, h.conflicts]; rfl
  rw [retired, removeStaleJobs_iff, h.jobs]
  constructor
  · intro hfree id ⟨job, hjob, hold, hgone, hrefers⟩
    have hnone := h.check_none.mpr hgone
    have href := hfree id job hjob hold (by rw [hnone]; rfl)
    rw [Ledger.referenced, hconflict, hrefers, Bool.or_true] at href
    cases href
  · intro hfree id job hjob hold hkept
    have hnone : v.ledger.checks.find id = none := by
      cases hfind : v.ledger.checks.find id with
      | none => rfl
      | some check =>
        rw [hfind] at hkept
        cases hkept
    rw [Ledger.referenced, Ledger.checkRefers, hnone, hconflict, Bool.false_or, ← Bool.not_eq_true]
    intro hrefers
    exact hfree id ⟨job, hjob, hold, h.check_none.mp hnone, hrefers⟩

/-- The row with the time of the last retention. -/
def logged (begun : Env) (now : Time) (db : Database) : Database :=
  { db with journal := { db.journal with checkpoint :=
      { db.journal.checkpoint with
        lastRetentionAt := some (databaseTimestamp now), updatedAt := begun.now } } }

theorem Trimmed.retained (h : Trimmed now db v) (hv : retired now v = some v')
    (begun : Env) : Retained now db (logged begun now v') := by
  have hchecks : v'.ledger.checks = v.ledger.checks :=
    removeJobs_keep (fun db => db.ledger.checks) hv fun _ _ => rfl
  have hcore : bareCore v' = bareCore v := removeJobs_keep bareCore hv fun _ _ => rfl
  have hjournal : v'.journal = v.journal :=
    removeJobs_keep Database.journal hv fun _ _ => rfl
  constructor
  · intro id
    exact (congrArg (Table.find · id) hchecks).trans (h.checks id)
  · intro key
    exact (congrArg (fun j : Journal => j.hourly.find key) hjournal).trans (h.hourly key)
  · intro key
    exact (congrArg (fun j : Journal => j.daily.find key) hjournal).trans (h.daily key)
  · exact hcore.trans h.core
  · exact (congrArg Journal.invalidations hjournal).trans h.marks
  · exact (congrArg (fun j : Journal => j.checkpoint.hourlyThrough) hjournal).trans h.hourlyThrough
  · exact (congrArg (fun j : Journal => j.checkpoint.dailyThrough) hjournal).trans h.dailyThrough

variable (i n env w db now)

theorem applyRetention_commits (h : ∀ id, ¬ Blocked now db id) :
    ∃ total m db', Retained now db db' ∧ (applyRetention now).exec remote i env ⟨n, .idle, db, w⟩ =
        (.ok total, ⟨m, .idle, db', w⟩) := by
  obtain ⟨deleted, m, o, htrim, hexec⟩ := applyRetention_trims i n env w db now
  obtain ⟨v', hv'⟩ := htrim.retired_iff.mpr h
  obtain ⟨jobs, m', o', hbegun, hwrite, hdelete⟩ := deleteStaleJobs_done i m env w hv'
  refine ⟨deleted + jobs, m' + 1 + 1, logged o'.begun now v', htrim.retained hv' o'.begun, ?_⟩
  rw [hexec, retireJobs, deleteRetainedCheckJobs, Prog.exec_then hdelete, ← hwrite]
  rfl

theorem applyRetention_refused (h : Blocked now db id) :
    ∃ m, (applyRetention now).exec remote i env ⟨n, .idle, db, w⟩ =
      (.error .database, ⟨m, .failed, db, w⟩) := by
  obtain ⟨deleted, m, o, htrim, hexec⟩ := applyRetention_trims i n env w db now
  have hnone : retired now (o.write db) = none := by
    cases hv : retired now (o.write db) with
    | none => rfl
    | some v' => exact absurd h (htrim.retired_iff.mp ⟨v', hv⟩ id)
  obtain ⟨m', hdelete⟩ := deleteStaleJobs_refused i m env w hnone
  refine ⟨m', ?_⟩
  rw [hexec, retireJobs, deleteRetainedCheckJobs, Prog.exec_then hdelete]
  rfl

/-- Retention has made progress: it committed, and no raw check that it may
delete is left. -/
structure Progress (now : Time) (db : Database)
    (outcome : Except Failure Nat × Database × World) : Prop where
  committed : ∃ total, outcome.1 = .ok total
  gone : ∀ id check, db.ledger.checks.find id = some check →
    check.disposable db.journal (databaseTimestamp (now - 7 * day)) = true →
    outcome.2.1.ledger.checks.find id = none

/-- `ApplyRetention` run alone makes progress if and only if no conflict refers
to an old job that has no health check or one that is to be deleted. -/
theorem retention_progress_iff :
    Progress now db ((applyRetention now).solo remote i env n .idle db w) ↔
      ∀ id, ¬ Blocked now db id := by
  rw [Prog.solo_eq]
  constructor
  · intro h id hblocked
    obtain ⟨m, hexec⟩ := applyRetention_refused i n env w db now hblocked
    obtain ⟨total, htotal⟩ := h.committed
    rw [hexec] at htotal
    cases htotal
  · intro h
    obtain ⟨total, m, db', hretained, hexec⟩ := applyRetention_commits i n env w db now h
    rw [hexec]
    refine ⟨⟨total, rfl⟩, fun id check hfind hdisposable => ?_⟩
    show db'.ledger.checks.find id = none
    rw [hretained.checks id, hfind]
    simp [Option.filter, hdisposable]

end Retention

/-- The engine's calls, and its rollups. -/
inductive Serving (P : Primitives) : Prog Unit → Prop
  | engine {p : Prog Unit} (h : Engine P p) : Serving P p
  | rollupHour (t : Time) : Serving P (rollupHour t >>= fun _ => pure ())
  | rollupDay (t : Time) : Serving P (rollupDay t >>= fun _ => pure ())

namespace Sample

/-- Call `i` rolls up the first hour when it is over. -/
def rolling (i : Nat) : Script :=
  .spawn (rollupHour 0 >>= fun _ => pure ()) :: steps i (moment 7200 14 21) 10

/-- What retention looks at of the one job. -/
def keptBack (s : System) : Option (JobState × Option Time) × Option (Time × Bool) × Bool :=
  ((s.db.ledger.jobs.find 11).map fun job => (job.state, job.completedAt),
    (s.db.ledger.checks.find 11).map fun check => (check.scheduledAt,
      s.db.journal.settled .hourly check.monitorId check.scheduledAt),
    s.db.ledger.conflictRefers 11)

theorem serving_of_fair {script : Script} (h : Fair script) :
    ∀ a ∈ script, a.within (Serving primitives) := by
  intro a ha
  have hwithin := h a ha
  cases a with
  | spawn p => exact .engine hwithin
  | step | crash => trivial

theorem disputed_rolledUp : ∃ s, Steps remote (Serving primitives)
      (.quiet ⟨Ledger.empty, periodic, Journal.empty⟩ World.empty) s ∧
    keptBack s = (some (.completed, some (62 * second)), some (60 * second, true), true) := by
  have hwithin : ∀ a ∈ disputing ++ rolling 3, a.within (Serving primitives) := by
    simp only [rolling, List.forall_mem_append, List.forall_mem_cons]
    exact ⟨serving_of_fair fair_disputing, .rollupHour 0, steps_within _ _ _ _⟩
  have hrun : ((Sys.quiet ⟨Ledger.empty, periodic, Journal.empty⟩ World.empty :
      System).run remote (disputing ++ rolling 3)).map keptBack =
      some (some (.completed, some (62 * second)), some (60 * second, true), true) := by
    decide +kernel
  obtain ⟨s, hs, hkept⟩ := Option.map_eq_some_iff.mp hrun
  exact ⟨s, Sys.run_steps hwithin hs, hkept⟩

end Sample

open Sample

/-- After one accepted result, one conflicting result and the rollup of their
hour, every `ApplyRetention` from the eighth day on fails, leaves the database
as it is, and so leaves the raw check that it should have deleted. -/
theorem retention_stuck : ∃ s, Steps remote (Serving primitives)
      (.quiet ⟨Ledger.empty, periodic, Journal.empty⟩ World.empty) s ∧
    ∀ (i n : Nat) (env : Nat → Env) (w : World) (now : Time), 8 * day ≤ now →
      (applyRetention now).solo remote i env n .idle s.db w = (.error .database, s.db, w) ∧
      ∃ check, s.db.ledger.checks.find 11 = some check ∧
        check.disposable s.db.journal (databaseTimestamp (now - 7 * day)) = true := by
  obtain ⟨s, hrun, hkept⟩ := disputed_rolledUp
  refine ⟨s, hrun, fun i n env w now hnow => ?_⟩
  simp only [keptBack, Prod.mk.injEq, Option.map_eq_some_iff] at hkept
  obtain ⟨⟨job, hjob, hstate, hdone⟩, ⟨check, hcheck, hat, hsettled⟩, hconflict⟩ := hkept
  have hweek : 60 * second < databaseTimestamp (now - 7 * day) :=
    lt_databaseTimestamp (Int.le_trans (by decide) (Int.sub_le_sub_right hnow (7 * day)))
  have hdays : 62 * second < databaseTimestamp (now - 48 * hour) :=
    lt_databaseTimestamp (Int.le_trans (by decide) (Int.sub_le_sub_right hnow (48 * hour)))
  have hdisposable : check.disposable s.db.journal
      (databaseTimestamp (now - 7 * day)) = true := by
    rw [hat] at hsettled
    simp [HealthCheck.disposable, hat, hsettled, hweek]
  have hblocked : Blocked now s.db 11 := by
    refine ⟨job, hjob, ?_, ?_, hconflict⟩
    · simp [CheckJob.stale, hstate, hdone, hdays]
    · intro check' hcheck'
      rw [hcheck] at hcheck'
      cases hcheck'
      exact hdisposable
  obtain ⟨m, hexec⟩ := applyRetention_refused i n env w s.db now hblocked
  exact ⟨by rw [Prog.solo_eq, hexec], check, hcheck, hdisposable⟩

end WatchTrace.Proofs
