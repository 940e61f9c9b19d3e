import WatchTrace.Proofs.Core

/-!
# The consumer keeps to the protocol

A consumer owns the job of its delivery from the moment it has looked it up.
Three transactions can follow, and they differ in what the look-up of the
accepted check shows. A repeated result is an ordinary draft. A conflicting
one is two rows that are committed together or not at all. An acceptance
writes four rows of the ledger that only fit together once all of them are
there; the stages it passes through are spelled out below, each with the part
of the final contract it has already secured.
-/

namespace WatchTrace.Proofs

open Tx Model Spec Protocol

variable {P : Primitives} {i : Nat} {x y : State} {j : Uuid}
variable {o : Open Database Key Env} {begun env : Env} {busy : Key → Bool}

/-! ## What a delivery says -/

variable {d : ResultDelivery} {result : Result}

theorem peekResult_of_peekDelivery (h : peekDelivery P d = some result) :
    peekResult P d.body = some result := by
  unfold peekDelivery at h
  repeat' split at h
  all_goals simp_all

variable {job : LockedJob}

variable {peeked : Result}

/-- A verified result is the peeked one, and agrees with its job. -/
theorem verifiedFor_some {now : Time} (hpeek : peekDelivery P d = some peeked)
    (h : verifiedFor P job d now = some result) :
    result = peeked ∧ result.snapshotHash = job.row.snapshotHash := by
  unfold verifiedFor at h
  split at h
  · cases h
  next r hver =>
  split at h
  · next hagree =>
    cases h
    have hbody := peekResult_of_verifyResult hver
    rw [peekResult_of_peekDelivery hpeek] at hbody
    exact ⟨(Option.some.inj hbody).symm, hagree.2.1⟩
  · cases h

theorem delivers_unique {r r' : Result} {k k' : Uuid} (h : Delivers P d r k)
    (h' : Delivers P d r' k') : r' = r ∧ k' = k := by
  obtain ⟨hp, hj⟩ := h
  obtain ⟨hp', hj'⟩ := h'
  simp_all

theorem carries_of_sameIdentity {h : HealthCheck} (hs : h.sameIdentity result = true) :
    Carries h result := by
  simp only [HealthCheck.sameIdentity, Bool.and_eq_true, beq_iff_eq] at hs
  obtain ⟨⟨hhash, hattempt⟩, hid⟩ := hs
  refine ⟨?_, ?_, hhash.symm⟩
  · rw [← hid]; rfl
  · rw [← hattempt]; rfl

/-! ## The look-up -/

variable {db : Database}

variable {jobId : IdText}

theorem lockResultCheckJob_some {resultKeyId : String} {e : Effect Database Key (Option LockedJob)}
    (h : lockResultCheckJob resultKeyId jobId begun env busy db = some e) :
    e.write = id ∧ ∀ job, e.value = some job →
      jobId.toUuid? = some job.id ∧ db.ledger.jobs.find job.id = some job.row ∧
        Key.job job.id ∈ e.locks := by
  unfold lockResultCheckJob at h
  repeat' split at h
  all_goals cases h
  all_goals refine ⟨rfl, fun job hv => ?_⟩
  all_goals cases hv
  exact ⟨‹_›, ‹_›, List.mem_singleton.mpr rfl⟩

/-- A transaction that owns the job of its delivery and has written nothing
yet. -/
structure Located (o : Open Database Key Env) (x : State) (job : LockedJob) :
    Prop where
  wellFormed : WellFormed x.1.ledger
  unwritten : o.write = id
  own : Key.job job.id ∈ o.locks
  row : x.1.ledger.jobs.find job.id = some job.row

theorem Located.later (h : Located o x job) (hxy : Relies (· ∈ o.locks) x y) : Located o y job where
  wellFormed := (hxy h.wellFormed).1
  unwritten := h.unwritten
  own := h.own
  row := ((hxy h.wellFormed).2.job h.own).1.trans h.row

theorem Located.draft (h : Located o x job) : Draft o x where
  rowwise := by
    rw [h.unwritten]
    exact ⟨fun hxy => hxy, fun hxy => hxy⟩
  wellFormed := h.wellFormed
  routine := fun y hy _ => by
    rw [h.unwritten]
    exact Routine.refl _ hy

/-! ## Committing and acknowledging -/

/-- A consumer commits what it has to, and acknowledges what is then on
record. -/
theorem commitAndAcknowledge_meets {L : List Key} (hL : L = o.locks)
    (hc : Commit L x.1.ledger (o.write x.1).ledger) (hsame : ∀ result k, Delivers P d result k →
      x.1.ledger.checks.find k ≠ none → Untouched x.1 (o.write x.1))
    (hev : Evidence P d (o.write x.1).ledger) :
    (fifo P).Meets remote i (commitAndAcknowledge d) (.active o) (.consuming d)
      x := by
  subst hL
  refine meets_commit ⟨.consuming d, ⟨.consume hc hsame,
    fun _ hfree => relies_of_commit (fun _ => hc) hfree⟩, fun r y hy => ?_⟩
    fun y _ => meets_ret
  cases r with
  | error f => exact meets_ret
  | ok u =>
  have hev' := hev.keep (hy hc.wellFormed).2
  refine meets_call fun env => ⟨.consuming d,
    ⟨.acknowledge hev', fun _ _ => relies_world⟩, fun z _ => ?_⟩
  split
  · exact meets_ret
  · exact meets_ret

variable {a : Local}

theorem commitAndAcknowledge_failed :
    (fifo P).Meets remote i (commitAndAcknowledge d) .failed a x :=
  meets_commit_failed fun _ _ => meets_ret

/-! ## A repeated result -/

variable {e : Effect Database Key Unit}

theorem markDispatchRepaired_some (h : Draft o x) (hid : o.write = id)
    (hcheck : x.1.ledger.checks.find j ≠ none)
    (he : markDispatchRepaired j begun env busy (o.write x.1) = some e) :
    Draft (o.extend e) x ∧ ∀ db, Untouched db (e.write db) := by
  obtain ⟨e', he', rfl⟩ := onLedger_some he
  rw [hid] at he'
  simp only [updateDispatch] at he'
  repeat' split at he'
  all_goals cases he'
  all_goals refine ⟨?_, fun _ => ⟨rfl, rfl, rfl, rfl⟩⟩
  · exact h.still fun _ => rfl
  · exact h.still fun _ => rfl
  · next row hrow hs hadm =>
    exact h.putDispatch rfl rfl hrow rfl (.repair hs rfl rfl rfl)
      hadm.2 (fun _ => .inr rfl) fun _ => hcheck

variable {row : HealthCheck}

theorem repeated_meets (h : Located o x job) (hdel : Delivers P d result job.id)
    (hrow : x.1.ledger.checks.find job.id = some row) (hcar : Carries row result) :
    (fifo P).Meets remote i (query (markDispatchRepaired job.id) >>= fun _ =>
      commitAndAcknowledge d) (.active o) (.consuming d) x := by
  have hcheck : x.1.ledger.checks.find job.id ≠ none := by
    rw [hrow]
    exact Option.some_ne_none _
  refine meets_query (fun env busy e he y hy => ?_) fun f y _ => commitAndAcknowledge_failed
  obtain ⟨hd, hun⟩ := markDispatchRepaired_some h.draft h.unwritten hcheck he
  have hd' := hd.later hy
  refine commitAndAcknowledge_meets rfl hd'.now.toCommit ?_ ?_
  · intro _ _ _ _
    show Untouched y.1 (e.write (o.write y.1))
    rw [h.unwritten]
    exact hun y.1
  · refine ⟨result, job.id, hdel, .inl ⟨row, ?_, hcar⟩⟩
    rw [hd'.now.sameChecks]
    exact (hy h.wellFormed).2.checks hrow

/-! ## A conflicting result -/

theorem sealPayload_holds {plain : Bytes} {associated : String × Option IdText} :
    (fifo P).Holds remote (fun _ => True) (fun r o' y => o' = o ∧ Relies (· ∈ o.locks) x y ∧
        ∀ enc, r = .ok enc → enc.plain = plain)
      (sealPayload plain associated) o x := by
  unfold sealPayload
  dsimp only
  repeat' split
  all_goals first
    | exact ⟨rfl, (fifo P).rely_refl _ x, nofun⟩
    | refine holds_call (fun _ _ _ => rfl) fun drawn y hy => ?_
      cases drawn with
      | none => exact ⟨rfl, hy, nofun⟩
      | some nonce => exact ⟨rfl, hy, fun _ h => by cases h; rfl⟩

variable {pool hash : String} {payload : SealedPayload}

variable {resultId : IdText}

theorem insertResultConflict_some
    (h : insertResultConflict j resultId pool hash payload begun env busy db = some e) :
    ∃ id, resultId.toUuid? = some id ∧
      ((db.ledger.conflicts.holds id = true ∧ ∀ db', e.write db' = db') ∨
        (db.ledger.conflicts.holds id = false ∧ Key.conflict id ∈ e.locks ∧
          ∃ c : ResultConflict, c.jobId = j ∧ c.resultId = id ∧
            c.encryptedPayload = payload ∧ ∀ db', e.write db' = { db' with
              ledger := { db'.ledger with
                conflicts := db'.ledger.conflicts.add c } })) := by
  obtain ⟨e', he', rfl⟩ := onLedger_some h
  repeat' split at he'
  all_goals cases he'
  · exact ⟨_, ‹_›, .inl ⟨‹_›, fun _ => rfl⟩⟩
  · refine ⟨_, ‹_›, .inr ⟨by simp_all, List.mem_singleton.mpr rfl, _, rfl, rfl, rfl, fun _ => rfl⟩⟩

theorem insertConflictingResultQuarantine_some {id : Uuid} (hid : resultId.toUuid? = some id)
    (h : insertConflictingResultQuarantine j resultId pool hash payload begun env
      busy db = some e) :
    db.ledger.quarantine.holds id = false ∧
      ∃ q : QuarantineRow, q.resultId = some id ∧ ∀ db', e.write db' = { db' with
        ledger := { db'.ledger with
          quarantine := db'.ledger.quarantine.add q } } := by
  obtain ⟨e', he', rfl⟩ := onLedger_some h
  rw [hid] at he'
  dsimp only at he'
  split at he' <;> cases he'
  exact ⟨by simp_all, _, rfl, fun _ => rfl⟩

variable {text : String}

theorem insertMonitoringOperationalEvent_some {type : OperationalEventType}
    (h : insertMonitoringOperationalEvent type jobId pool text begun env busy db =
      some e) (db' : Database) :
    (e.write db').ledger = db'.ledger ∧ Untouched db' (e.write db') := by
  obtain ⟨e', he', rfl⟩ := Option.map_eq_some_iff.mp h
  split at he' <;> cases he'
  exact ⟨rfl, rfl, rfl, rfl, rfl⟩

/-- The three statements of the conflict branch. A conflict that is on record
already is in quarantine as well, so the second statement is rejected and
nothing is acknowledged; otherwise both rows are new. -/
theorem conflicting_meets {pool' : String} (h : Located o x job)
    (hdel : Delivers P d result job.id) (hplain : payload.plain = d.body) :
    (fifo P).Meets remote i
      (query (insertResultConflict job.id result.resultId pool hash payload) >>=
        fun _ => query (insertConflictingResultQuarantine job.id result.resultId
          pool hash payload) >>= fun _ =>
        query (insertMonitoringOperationalEvent .resultConflict result.jobId
          pool' text) >>= fun _ => commitAndAcknowledge d)
      (.active o) (.consuming d) x := by
  refine meets_query (fun env busy e he y hy => ?_) fun f y _ => ?_
  rotate_left
  · refine meets_query_failed fun _ _ _ => ?_
    exact meets_query_failed fun _ _ _ => commitAndAcknowledge_failed
  obtain ⟨id, hid, hcases⟩ := insertResultConflict_some he
  rw [h.unwritten] at hcases
  have hwf := (hy h.wellFormed).1
  have hxy := (hy h.wellFormed).2
  refine meets_query (fun env₁ busy₁ e₁ he₁ z hz => ?_)
    fun f z _ => meets_query_failed fun _ _ _ => commitAndAcknowledge_failed
  obtain ⟨hfreeq, q, hq, hwrite₁⟩ := insertConflictingResultQuarantine_some hid he₁
  rcases hcases with ⟨hheld, hwrite⟩ | ⟨hfree, hlock, c, hcj, hcr, hcp, hwrite⟩
  · obtain ⟨c, hc, hkey⟩ := Indexed.holds_iff.mp hheld
    have hthere := hwf.conflicts (Indexed.holds_iff.mpr ⟨c, hxy.conflicts hc, hkey⟩)
    have hview : (o.extend e).write y.1 = y.1 := by
      show e.write (o.write y.1) = y.1
      rw [h.unwritten, hwrite]
      rfl
    rw [hview, hthere] at hfreeq
    cases hfreeq
  have hyz := (hz hwf).2
  refine meets_query (fun env₂ busy₂ e₂ he₂ u hu => ?_) fun f u _ => commitAndAcknowledge_failed
  have hwf' := (hu (hz hwf).1).1
  have hzu := (hu (hz hwf).1).2
  -- the record is still missing when the transaction commits
  have hstill : u.1.ledger.conflicts.holds id = false := by
    have h₁ := hxy.conflict (List.mem_append_left o.locks hlock)
    have h₂ := hyz.conflict (List.mem_append_right e₁.locks (List.mem_append_left o.locks hlock))
    have h₃ := hzu.conflict (List.mem_append_right e₂.locks
      (List.mem_append_right e₁.locks (List.mem_append_left o.locks hlock)))
    rw [h₃, h₂, h₁]
    exact hfree
  have hlocks : Key.conflict c.resultId ∈
      (((o.extend e).extend e₁).extend e₂).locks := by
    rw [hcr]
    exact List.mem_append_right _ (List.mem_append_right _ (List.mem_append_left _ hlock))
  have hbase : ((o.extend e).extend e₁).write u.1 = { u.1 with
      ledger := { u.1.ledger with
        conflicts := u.1.ledger.conflicts.add c
        quarantine := u.1.ledger.quarantine.add q } } := by
    show e₁.write (e.write (o.write u.1)) = _
    rw [h.unwritten, hwrite, hwrite₁]
    rfl
  obtain ⟨hledger, hun⟩ := insertMonitoringOperationalEvent_some he₂
    (((o.extend e).extend e₁).write u.1)
  rw [hbase] at hledger hun
  have hview : ((((o.extend e).extend e₁).extend e₂).write u.1).ledger =
      { u.1.ledger with
        conflicts := u.1.ledger.conflicts.add c
        quarantine := u.1.ledger.quarantine.add q } := by
    show (e₂.write (((o.extend e).extend e₁).write u.1)).ledger = _
    rw [hbase]
    exact hledger
  refine commitAndAcknowledge_meets rfl ?_ ?_ ?_
  · rw [hview]
    exact Commit.conflict hwf' (hq.trans (congrArg some hcr.symm)) hlocks
  · intro _ _ _ _
    show Untouched u.1 (e₂.write (((o.extend e).extend e₁).write u.1))
    rw [hbase]
    exact ⟨hun.checks, hun.gaps, hun.core, hun.invalidations⟩
  · rw [hview]
    refine ⟨result, job.id, hdel, .inr ⟨c, ?_, hcj, ?_, ?_⟩⟩
    · have hadd := Indexed.rows_add (t := u.1.ledger.conflicts) (r := c)
        (fun k hk => by
          cases hk
          rw [hcr]
          exact hstill)
      show c ∈ (u.1.ledger.conflicts.add c).rows
      rw [hadd]
      exact List.mem_append_right _ (List.mem_singleton.mpr rfl)
    · rw [hcr]
      exact hid
    · rw [hcp]
      exact hplain

/-! ## An acceptance -/

/-- On the way to an acceptance: the job is owned and has no check yet, and
what has been written so far makes `f l` of a ledger `l`. -/
structure Stage (o : Open Database Key Env) (x : State) (job : LockedJob)
    (f : Ledger → Ledger) : Prop where
  wellFormed : WellFormed x.1.ledger
  own : Key.job job.id ∈ o.locks
  row : x.1.ledger.jobs.find job.id = some job.row
  unchecked : x.1.ledger.checks.find job.id = none
  writes : ∀ db, (o.write db).ledger = f db.ledger

variable {f : Ledger → Ledger}

theorem Stage.later (h : Stage o x job f) (hxy : Relies (· ∈ o.locks) x y) : Stage o y job f where
  wellFormed := (hxy h.wellFormed).1
  own := h.own
  row := ((hxy h.wellFormed).2.job h.own).1.trans h.row
  unchecked := ((hxy h.wellFormed).2.job h.own).2.trans h.unchecked
  writes := h.writes

theorem Stage.extend {α : Type} (h : Stage o x job f) (e : Effect Ledger Key α) :
    Stage (o.extend (ledgerEffect e)) x job fun l => e.write (f l) where
  wellFormed := h.wellFormed
  own := List.mem_append_right _ h.own
  row := h.row
  unchecked := h.unchecked
  writes := fun db => by
    show e.write (o.write db).ledger = e.write (f db.ledger)
    rw [h.writes]

theorem insertAcceptedHealthCheck_some {job : CheckJob}
    (h : insertAcceptedHealthCheck j job result begun env busy db = some e) :
    ∃ resultId attemptId e', result.resultId.toUuid? = some resultId ∧
      result.attemptId.toUuid? = some attemptId ∧ e = ledgerEffect e' ∧
      e'.write = fun l => { l with
        checks := l.checks.put j (acceptedRow job result resultId attemptId) } := by
  obtain ⟨e', he', rfl⟩ := onLedger_some h
  repeat' (split at he' <;> try dsimp only at he')
  all_goals cases he'
  exact ⟨_, _, _, ‹_›, ‹_›, rfl, rfl⟩

theorem completeCheckJob_some {job : CheckJob} (hj : db.ledger.jobs.find j = some job)
    (h : completeCheckJob j result begun env busy db = some e) :
    ∃ job' : CheckJob, e = ledgerEffect (updateJob j job' ()) ∧
      job'.slot = job.slot ∧ job'.state = .completed := by
  obtain ⟨e', he', rfl⟩ := onLedger_some h
  rw [hj] at he'
  repeat' split at he'
  all_goals cases he'
  all_goals simp only [reduceCtorEq, Option.some.injEq] at *
  subst job
  exact ⟨_, rfl, rfl, rfl⟩

/-- The dispatch of the job has been seen to, now and for as long as the keys
are kept: `out` is what becomes of the outbox. -/
structure Mends (o : Open Database Key Env) (x : State) (j : Uuid)
    (out : Table Uuid Dispatch → Table Uuid Dispatch) : Prop where
  closed : Sealed (· ∈ o.locks) x.1.ledger j
  mended : ∀ y : State, Keeps (· ∈ o.locks) x.1.ledger y.1.ledger →
    Mended o.locks y.1.ledger j (out y.1.ledger.outbox)

variable {out : Table Uuid Dispatch → Table Uuid Dispatch}

theorem Mends.later (h : Mends o x j out) (hj : x.1.ledger.jobs.find j ≠ none)
    (hxy : Keeps (· ∈ o.locks) x.1.ledger y.1.ledger) : Mends o y j out where
  closed := hxy.sealed hj h.closed
  mended := fun z hyz => h.mended z (hxy.trans hyz)

theorem markDispatchRepaired_mends (hj : x.1.ledger.jobs.find j ≠ none)
    (hview : db.ledger.outbox = x.1.ledger.outbox)
    (h : markDispatchRepaired j begun env busy db = some e) :
    ∃ e' out, e = ledgerEffect e' ∧ (e'.write = fun l => { l with outbox := out l.outbox }) ∧
      Mends (o.extend e) x j out := by
  obtain ⟨e', he', rfl⟩ := onLedger_some h
  rw [hview] at he'
  -- a row that is published, or not there, needs no repair and gets none
  have hstill : (∀ d, x.1.ledger.outbox.find j = some d →
      d.publishState = .published) → e'.write = id →
      ∃ e'' out, ledgerEffect e' = ledgerEffect e'' ∧
        (e''.write = fun l => { l with outbox := out l.outbox }) ∧
        Mends (o.extend (ledgerEffect e')) x j out := by
    intro hpub hid
    refine ⟨e', id, rfl, hid, .inr hpub, fun y hxy => ?_⟩
    exact .published (hxy.published hj hpub)
  simp only [updateDispatch] at he'
  repeat' split at he'
  all_goals cases he'
  · exact hstill (fun d hd => by simp_all) rfl
  · exact hstill (fun d hd => by simp_all) rfl
  · next row hrow hs _ =>
    have hlock : ∀ L : List Key, Key.dispatch j ∈ [Key.dispatch j] ++ L :=
      fun L => by simp
    refine ⟨_, fun t => t.put j { row with
      publishState := .repaired, updatedAt := begun.now }, rfl, rfl,
      .inl (hlock _), fun y hxy => ?_⟩
    exact .repaired ((hxy.dispatch (hlock _)).trans hrow) hs rfl rfl rfl rfl (hlock _)

theorem mem_recoveredGaps {k : GapKey} {job : CheckJob} (hk : Recovered k)
    (hc : Concerns k job) : k ∈ recoveredGaps job.monitorId job.scheduledAt := by
  obtain ⟨m, t, reason⟩ := k
  obtain ⟨rfl, rfl⟩ := Prod.mk.inj hc
  rcases hk with rfl | rfl <;> simp [recoveredGaps]

/-- The gaps of the slot that are there are removed; the others stay away. -/
theorem deleteRecoveredCoverageGaps_some {job : CheckJob}
    (h : deleteRecoveredCoverageGaps job.monitorId job.scheduledAt begun env busy db = some e) :
    ∃ e', ∃ found : List GapKey, e = ledgerEffect e' ∧
      (e'.write = fun l => { l with gaps := found.foldl Table.drop l.gaps }) ∧
      ∀ k, Recovered k → Concerns k job →
        k ∈ found ∨ db.ledger.gaps.find k = none := by
  obtain ⟨e', he', rfl⟩ := onLedger_some h
  cases he'
  refine ⟨_, _, rfl, rfl, fun k hk hc => ?_⟩
  cases hg : db.ledger.gaps.find k with
  | none => exact .inr rfl
  | some g =>
  refine .inl (List.mem_filter.mpr ⟨mem_recoveredGaps hk hc, ?_⟩)
  rw [hg]
  rfl

/-- What the four statements add up to. -/
structure Accepted (o : Open Database Key Env) (x : State) (job : LockedJob)
    (row : HealthCheck) : Prop where
  wellFormed : WellFormed x.1.ledger
  own : Key.job job.id ∈ o.locks
  unchecked : x.1.ledger.checks.find job.id = none
  commit : ∀ y : State, WellFormed y.1.ledger → Keeps (· ∈ o.locks) x.1.ledger y.1.ledger →
    Commit o.locks y.1.ledger (o.write y.1).ledger
  stored : ∀ db, (o.write db).ledger.checks.find job.id = some row

theorem Accepted.later (h : Accepted o x job row) (hxy : Relies (· ∈ o.locks) x y) :
    Accepted o y job row where
  wellFormed := (hxy h.wellFormed).1
  own := h.own
  unchecked := ((hxy h.wellFormed).2.job h.own).2.trans h.unchecked
  commit := fun z hz hyz => h.commit z hz ((hxy h.wellFormed).2.trans hyz)
  stored := h.stored

variable {o' : Open Database Key Env}

theorem Accepted.extends (h : Accepted o x job row) (hext : o.Extends Apart o') :
    Accepted o' x job row := by
  obtain ⟨-, hlocks, w, hw, hwrite⟩ := hext
  have hsame : ∀ db, (o'.write db).ledger = (o.write db).ledger := by
    intro db
    rw [hwrite, hw]
  exact
    { wellFormed := h.wellFormed, own := hlocks _ h.own, unchecked := h.unchecked
      commit := fun y hy hxy => by
        rw [hsame]
        exact (h.commit y hy (hxy.anti hlocks)).mono hlocks
      stored := fun db => by
        rw [hsame]
        exact h.stored db }

theorem Mends.mono (h : Mends o x j out) (hL : ∀ κ, κ ∈ o.locks → κ ∈ o'.locks) :
    Mends o' x j out where
  closed := h.closed.imp (hL _) fun hp => hp
  mended := fun y hxy => (h.mended y (hxy.anti hL)).mono hL

/-- Once the gaps are taken back, the acceptance is ready to be committed. -/
theorem accepted_of_stage {job' : CheckJob} {found : List GapKey} (h : Stage o x job f)
    (hf : ∀ l, f l = { l with
      jobs := l.jobs.put job.id job', checks := l.checks.put job.id row
      outbox := out l.outbox, gaps := found.foldl Table.drop l.gaps })
    (hslot : job'.slot = job.row.slot) (hdone : job'.state = .completed)
    (hrow : (row.monitorId, row.scheduledAt) = job.row.slot) (hm : Mends o x job.id out)
    (hgap : ∀ k, Recovered k → Concerns k job.row → k ∈ found ∨ x.1.ledger.gaps.find k = none) :
    Accepted o x job row where
  wellFormed := h.wellFormed
  own := h.own
  unchecked := h.unchecked
  commit := fun y hy hxy => by
    rw [h.writes, hf]
    have hjob := (hxy.job h.own).1.trans h.row
    have hnone := (hxy.job h.own).2.trans h.unchecked
    refine Commit.accept hy hjob hnone hslot hdone hrow (hm.mended y hxy) ?_ ?_ h.own
    · intro k hk
      rw [Table.find_drops, hk]
      split <;> rfl
    · intro k hk hc
      rw [Table.find_drops]
      rcases hgap k hk hc with hmem | hfree
      · exact if_pos hmem
      · rw [hxy.gaps h.own h.row hm.closed hk hc hfree]
        split <;> rfl
  stored := fun db => by
    rw [h.writes, hf]
    exact Table.find_put _ _ _

theorem acceptResult_holds {now : Prog Time} (hnow : Prog.Quiet remote Apart now)
    (h : Located o x job) (hnone : x.1.ledger.checks.find job.id = none)
    (hhash : result.snapshotHash = job.row.snapshotHash) :
    (fifo P).Holds remote Failed (fun r o' y => r = .ok () →
        ∃ row, Carries row result ∧ Accepted o' y job row)
      (acceptResult now job result) o x := by
  have st₀ : Stage o x job id :=
    { wellFormed := h.wellFormed, own := h.own, row := h.row
      unchecked := hnone, writes := fun db => by rw [h.unwritten]; rfl }
  refine holds_query (fun env busy e he x₁ hx₁ => ?_) fun _ => ⟨_, rfl⟩
  obtain ⟨resultId, attemptId, e₁, hr, ha, rfl, hw₁⟩ :=
    insertAcceptedHealthCheck_some he
  have st₁ := (st₀.extend e₁).later hx₁
  have hview₁ : ((o.extend (ledgerEffect e₁)).write x₁.1).ledger.jobs.find job.id =
      some job.row := by
    rw [st₁.writes, hw₁]
    exact st₁.row
  refine holds_query (fun env busy e he x₂ hx₂ => ?_) fun _ => ⟨_, rfl⟩
  obtain ⟨job', rfl, hslot, hdone⟩ := completeCheckJob_some hview₁ he
  have st₂ := (st₁.extend _).later hx₂
  refine holds_query (fun env busy e he x₃ hx₃ => ?_) fun _ => ⟨_, rfl⟩
  have hne₂ : x₂.1.ledger.jobs.find job.id ≠ none := by
    rw [st₂.row]
    exact Option.some_ne_none _
  obtain ⟨e₃, out, rfl, hw₃, hm⟩ := markDispatchRepaired_mends
    (o := (o.extend (ledgerEffect e₁)).extend _) hne₂
    (by rw [st₂.writes, hw₁]; rfl) he
  have st₃ := (st₂.extend e₃).later hx₃
  have hm₃ := hm.later hne₂ (hx₃ st₂.wellFormed).2
  refine holds_query (fun env busy e he x₄ hx₄ => ?_) fun _ => ⟨_, rfl⟩
  obtain ⟨e₄, found, rfl, hw₄, hgap⟩ := deleteRecoveredCoverageGaps_some he
  have hgap₃ : ∀ k, Recovered k → Concerns k job.row →
      k ∈ found ∨ x₃.1.ledger.gaps.find k = none := by
    intro k hk hc
    have hview₃ := hgap k hk hc
    rw [st₃.writes, hw₃, hw₁] at hview₃
    exact hview₃
  have hacc : Accepted _ x₃ job (acceptedRow job.row result resultId attemptId) :=
    accepted_of_stage (st₃.extend e₄) (by intro l; rw [hw₄, hw₃, hw₁]; rfl)
      hslot hdone rfl (hm₃.mono fun κ hκ => List.mem_append_right _ hκ) hgap₃
  have hcar : Carries (acceptedRow job.row result resultId attemptId) result :=
    ⟨hr, ha, hhash⟩
  have hacc' := hacc.later hx₄
  -- the rest of the acceptance lies outside the ledger
  have htail : Prog.Quiet remote Apart (if job.row.jobType = .scheduled then
      now >>= evaluateScheduled job else pure (.ok ())) := by
    split
    · exact Prog.every_bind hnow fun t => evaluateScheduled_quiet job t
    · exact Prog.every_pure _
  refine holds_bind (holds_quiet (fun _ => rfl) (fun hv hw db => (hw _).trans (hv db)) htail)
    (fun r o' x₅ hx₅ => ?_) ?_
  · have hacc₅ := (hacc'.later hx₅.2).extends hx₅.1
    cases r with
    | error f => exact nofun
    | ok u =>
    refine holds_query (fun env busy e he x₆ hx₆ => ?_) fun _ => ⟨_, rfl⟩
    refine fun _ => ⟨_, hcar, ?_⟩
    have hext : o'.Extends Apart (o'.extend e) :=
      ⟨rfl, fun κ hκ => List.mem_append_right _ hκ, e.write,
        insertRefreshEvent_apart he, fun _ => rfl⟩
    exact (hacc₅.extends hext).later hx₆
  · intro r _
    cases r with
    | error f => exact ⟨_, rfl⟩
    | ok u => exact fun f => ⟨_, rfl⟩

/-! ## `ConsumeNext` -/

theorem recordConflict_meets (h : Located o x job) (hdel : Delivers P d result job.id) :
    (fifo P).Meets remote i (recordConflict d job result) (.active o)
      (.consuming d) x := by
  refine meets_stretch sealPayload_holds ?_ ?_
  · rintro r o' y ⟨rfl, hy, hplain⟩
    cases r with
    | error failure => exact meets_ret
    | ok enc => exact conflicting_meets (h.later hy) hdel (hplain enc rfl)
  · rintro r y -
    cases r with
    | error failure => exact meets_ret
    | ok enc =>
    refine meets_query_failed fun _ _ _ => ?_
    refine meets_query_failed fun _ _ _ => ?_
    exact meets_query_failed fun _ _ _ => commitAndAcknowledge_failed

theorem settleResult_meets (h : Located o x job) (hdel : Delivers P d result job.id)
    (hhash : result.snapshotHash = job.row.snapshotHash) :
    (fifo P).Meets remote i (settleResult d job result) (.active o)
      (.consuming d) x := by
  refine meets_query (fun env busy e he y hy => ?_) fun f y _ => meets_ret
  obtain ⟨e', he', rfl⟩ := onLedger_some he
  cases he'
  have hloc := h.later (y := y) hy
  have hsame : y.1.ledger.checks.find job.id = x.1.ledger.checks.find job.id :=
    ((hy h.wellFormed).2.job h.own).2
  have hloc' : Located (o.extend (ledgerEffect
      { value := (o.write x.1).ledger.checks.find job.id })) y job :=
    { wellFormed := hloc.wellFormed, own := hloc.own, row := hloc.row
      unwritten := by
        funext db
        show { o.write db with ledger := (o.write db).ledger } = db
        rw [h.unwritten]
        rfl }
  have hvalue : (o.write x.1).ledger.checks.find job.id =
      y.1.ledger.checks.find job.id := by
    rw [h.unwritten]
    exact hsame.symm
  dsimp only [ledgerEffect]
  split
  · next row hrow =>
    rw [hvalue] at hrow
    split
    · next hid =>
      exact repeated_meets hloc' hdel hrow (carries_of_sameIdentity hid)
    · exact recordConflict_meets hloc' hdel
  next hnone =>
  rw [hvalue] at hnone
  refine meets_stretch (acceptResult_holds quiet_clock hloc' hnone hhash) ?_ ?_
  · intro r o' z hz
    cases r with
    | error failure => exact meets_ret
    | ok u =>
    obtain ⟨row, hcar, hacc⟩ := hz rfl
    have hc := hacc.commit z hacc.wellFormed (Keeps.refl _ _)
    refine commitAndAcknowledge_meets rfl hc ?_ ?_
    · intro r k hdel' hne
      obtain ⟨-, rfl⟩ := delivers_unique hdel hdel'
      exact absurd hacc.unchecked hne
    · exact ⟨result, job.id, hdel, .inl ⟨row, hacc.stored z.1, hcar⟩⟩
  · rintro r z ⟨f, rfl⟩
    exact meets_ret

theorem consumeDelivery_meets (hx : WellFormed x.1.ledger)
    (hpeek : peekDelivery P d = some peeked) :
    (fifo P).Meets remote i (consumeDelivery P d peeked) .idle (.consuming d)
      x := by
  refine meets_start (fun env y hy => ?_) fun y _ => meets_ret
  have hwf := (hy hx).1
  refine meets_query (fun env₁ busy e he z hz => ?_) fun f z _ => meets_ret
  obtain ⟨hwrite, hjob⟩ := lockResultCheckJob_some he
  dsimp only
  cases hv : e.value with
  | none => exact meets_ret
  | some job =>
  obtain ⟨hid, hrow, hlock⟩ := hjob job hv
  have hlock' : Key.job job.id ∈ e.locks ++ [] :=
    List.mem_append_left _ hlock
  have hloc : Located ((Open.fresh env).extend e) z job :=
    { wellFormed := (hz hwf).1
      unwritten := by
        show (fun db => e.write db) = id
        rw [hwrite]
      own := hlock'
      row := ((hz hwf).2.job hlock').1.trans hrow }
  refine meets_unseen (fun _ _ _ => rfl) fun now u hu => ?_
  have hloc' := hloc.later hu
  split
  · exact meets_ret
  · next result hver =>
    obtain ⟨rfl, hhash⟩ := verifiedFor_some hpeek hver
    exact settleResult_meets hloc' ⟨hpeek, hid⟩ hhash

theorem databaseReady_meets {β : Type} {k : Except Failure Bool → Prog β}
    (hx : WellFormed x.1.ledger)
    (hk : ∀ r y, WellFormed y.1.ledger → (fifo P).Meets remote i (k r) .idle a y) :
    (fifo P).Meets remote i (databaseReady >>= k) .idle a x := by
  refine meets_start (k := fun r => _ >>= k) (fun env y hy => ?_) fun y hy => hk _ y (hy hx).1
  have hwf := (hy hx).1
  refine meets_query (k := fun r => _ >>= k) (fun _ _ e _ z hz => ?_) fun f z hz => ?_
  · intro u hu
    exact hk _ u (hu (hz hwf).1).1
  · intro u hu
    exact hk _ u (hu (hz hwf).1).1

theorem consumeNext_meets (hx : WellFormed x.1.ledger) :
    (fifo P).Meets remote i (consumeNext P) .idle .idle x := by
  refine databaseReady_meets hx fun r y hy => ?_
  cases r with
  | error failure => exact meets_ret
  | ok ready =>
  cases ready with
  | false => exact meets_ret
  | true =>
  refine meets_call fun env => ?_
  generalize remote.answer env Call.pullResult = pulled
  cases pulled with
  | noMessage | failed =>
    exact ⟨.idle, ⟨.stay _ _, fun _ _ => (fifo P).rely_refl _ _⟩, fun z _ => meets_ret⟩
  | message d =>
  refine ⟨.consuming d, ⟨.pull, fun _ _ => relies_world⟩, fun z hz => ?_⟩
  dsimp only
  cases hpeek : peekDelivery P d with
  | none => exact meets_ret
  | some peeked => exact consumeDelivery_meets (hz hy).1 hpeek

end WatchTrace.Proofs
