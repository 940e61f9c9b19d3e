import WatchTrace.Proofs.Draft

/-!
# The publisher keeps to the protocol

A publisher writes the outbox in two transactions. In the first it owns the
row it claims from the claim to the commit. In the second it owns nothing
until the guarded update, so all that is known of the row it finds is that the
lease token on it is its own; that is enough for each of the changes it makes.
-/

namespace WatchTrace.Proofs

open Tx Model Spec Protocol

variable {P : Primitives} {i : Nat} {x : State} {j : Uuid}

/-! ## Statements -/

/-- What a claim does to the ledger. -/
def claimEffect (j : Uuid) (row : Dispatch) (token : Uuid) (now : Time) :
    Effect Ledger Key (Option (Uuid × Dispatch)) :=
  { value := some (j, row.claimed token now)
    write := fun l => { l with outbox := l.outbox.put j (row.claimed token now) }
    locks := [.dispatch j] }

variable {begun env : Env} {busy : Key → Bool}

theorem claimDispatchOutbox_some {db : Database}
    {e : Effect Database Key (Option (Uuid × Dispatch))}
    (h : claimDispatchOutbox begun env busy db = some e) :
    e.value = none ∨
    ∃ j row, db.ledger.outbox.find j = some row ∧ row.claimable begun.now = true ∧
      e = ledgerEffect (claimEffect j row env.uuid begun.now) := by
  obtain ⟨e', he', rfl⟩ := onLedger_some h
  simp only [oldestOf] at he'
  split at he'
  · cases he'
    exact .inl rfl
  next j row hget =>
  have hmem := List.mem_of_getElem? hget
  have hrow := List.mem_filter.mp (List.mem_filter.mp hmem).1
  simp only [Bool.and_eq_true] at hrow
  simp only [updateDispatch] at he'
  split at he'
  · cases he'
    exact .inr ⟨j, row, Table.mem_rows.mp hrow.1, hrow.2.1, rfl⟩
  · cases he'

variable {row : Dispatch}

variable {now : Time}

theorem claimable_iff : row.claimable now = true ↔ row.publishState = .pending ∧
      row.publishAttempts < 3 ∧ row.nextAttemptAt ≤ now := by
  simp only [Dispatch.claimable, Bool.and_eq_true, beq_iff_eq, decide_eq_true_eq, and_assoc]

/-- A claim is a draft of its own. -/
theorem draft_claim (env : Env) (token : Uuid) (hx : WellFormed x.1.ledger)
    (hrow : x.1.ledger.outbox.find j = some row) (hc : row.claimable now = true) :
    Draft ((Open.fresh env).extend (ledgerEffect (claimEffect j row token now)))
      x := by
  obtain ⟨hs, ha, -⟩ := claimable_iff.mp hc
  refine (Draft.fresh env hx).putDispatch rfl rfl hrow rfl
    (.claim hs ha rfl rfl) ?_ (fun _ => .inl rfl) ?_
  · show row.publishAttempts + 1 ≤ 3
    omega
  · intro hrep
    cases hrep

variable {o : Open Database Key Env} {token : Uuid}

variable {e : Effect Ledger Key Unit} {change : Dispatch → Dispatch}

/-- An update guarded by a lease token, on a row whose committed version takes
one of the listed changes and loses its token. -/
theorem draft_updateLeased (h : Draft o x)
    (hrow : ∀ row, (o.write x.1).ledger.outbox.find j = some row →
      row.publishLeaseToken = some token →
      ∃ d, x.1.ledger.outbox.find j = some d ∧ row.payload = d.payload ∧
        DispatchChange d (change row)) (ht : ∀ row, (change row).publishLeaseToken = none)
    (hs : ∀ row, (change row).publishState ≠ .repaired)
    (he : updateLeased j token change begun env busy (o.write x.1).ledger = some e) :
    Draft (o.extend (ledgerEffect e)) x := by
  unfold updateLeased at he
  split at he
  · cases he
    exact h.still fun _ => rfl
  next row hfind =>
  split at he
  · next htoken =>
    obtain ⟨d, hd, hp, hc⟩ := hrow row hfind htoken
    unfold updateDispatch at he
    split at he
    · next hadm =>
      cases he
      refine h.putDispatch rfl rfl hd (hadm.1.trans hp) hc hadm.2 ?_ ?_
      · exact fun hne => absurd (ht row) hne
      · exact fun hrep => absurd hrep (hs row)
    · cases he
  · cases he
    exact h.still fun _ => rfl

theorem draft_expireUnpublished {e : Effect Database Key Unit} (h : Draft o x)
    (he : expireUnpublishedCheckJob j begun env busy (o.write x.1) = some e) :
    Draft (o.extend e) x := by
  obtain ⟨e', he', rfl⟩ := onLedger_some he
  split at he'
  · cases he'
    exact h.still fun _ => rfl
  next job hfind =>
  split at he'
  · next hun =>
    cases he'
    have hne : job.state ≠ .completed := by
      intro hc
      rw [hc] at hun
      cases hun
    exact h.putJob hfind rfl (.inr (.inr ⟨hne, .inl rfl⟩)) hne (by intro hc; cases hc)
  · cases he'
    exact h.still fun _ => rfl

theorem draft_markCheckJobPublished {messageId : String} {e : Effect Database Key Unit}
    (h : Draft o x) (he : markCheckJobPublished messageId j begun env busy (o.write x.1) = some e) :
    Draft (o.extend e) x := by
  obtain ⟨e', he', rfl⟩ := onLedger_some he
  split at he'
  · cases he'
    exact h.still fun _ => rfl
  next job hfind =>
  split at he'
  · next hun =>
    split at he'
    · cases he'
    cases he'
    have hne : job.state ≠ .completed := by
      intro hc
      rw [hc] at hun
      cases hun
    exact h.putJob hfind rfl (.inr (.inl ⟨hun, rfl⟩)) hne (by intro hc; cases hc)
  · cases he'
    exact h.still fun _ => rfl

/-! ## The completing transaction -/

variable {begin : Env}

/-- The guarded updates of a transaction that has just begun see the committed
row, with the token on it. -/
theorem draft_completing (hx : WellFormed x.1.ledger)
    (hc : ∀ row, row.publishLeaseToken ≠ none → DispatchChange row (change row))
    (ht : ∀ row, (change row).publishLeaseToken = none)
    (hs : ∀ row, (change row).publishState ≠ .repaired)
    (he : updateLeased j token change begun env busy x.1.ledger = some e) :
    Draft ((Open.fresh begin).extend (ledgerEffect e)) x := by
  refine draft_updateLeased (Draft.fresh begin hx) (fun row hrow htok => ?_) ht hs he
  refine ⟨row, hrow, rfl, hc row ?_⟩
  rw [htok]
  exact Option.some_ne_none _

theorem recordSend_holds {attempts : Nat} {outcome : Except Unit String}
    (hx : WellFormed x.1.ledger) :
    (fifo P).Holds remote Failed (fun _ o y => Draft o y)
      (recordSend j token attempts outcome) (.fresh begin) x := by
  have hd := Draft.fresh begin hx
  have hfail : ∀ (state : PublishState) (delay : Int), state = .pending ∨ state = .ambiguous →
      (fifo P).Holds remote Failed (fun _ o y => Draft o y)
        (query (markDispatchPublishFailure state delay j token)) (.fresh begin)
        x := by
    intro state delay hstate
    refine holds_draft (k := pure) hd (fun env busy e he => ?_)
      (fun _ _ _ _ y hy _ => hy) fun _ => ⟨_, rfl⟩
    obtain ⟨e', he', rfl⟩ := onLedger_some he
    refine draft_completing hx (fun row hne => ?_) (fun _ => rfl) ?_ he'
    · exact .fail hne hstate rfl rfl
    · intro row
      rcases hstate with rfl | rfl <;> exact nofun
  cases outcome with
  | ok messageId =>
    refine holds_draft hd (fun env busy e he => ?_) (fun _ _ _ _ y hy _ => ?_) fun _ => ⟨_, rfl⟩
    · obtain ⟨e', he', rfl⟩ := onLedger_some he
      split at he'
      · cases he'
      · refine draft_completing hx (fun row hne => ?_) (fun _ => rfl) ?_ he'
        · exact .publish hne rfl rfl rfl
        · exact fun row hc => by cases hc
    · exact holds_draft (k := pure) hy (fun env busy e he => draft_markCheckJobPublished hy he)
        (fun _ _ _ _ z hz _ => hz) fun _ => ⟨_, rfl⟩
  | error u =>
    unfold recordSend
    dsimp only
    split
    · exact hfail _ _ (.inr rfl)
    · split
      · exact hfail _ _ (.inl rfl)
      · exact hfail _ _ (.inl rfl)

/-! ## The two ways on from a claim -/

/-- The claim came too late. The committed row is still the pending one; what
the transaction sees of it is its own claim. -/
theorem expireClaimed_meets (h : Draft o x) (hlock : Key.dispatch j ∈ o.locks)
    (hrow : x.1.ledger.outbox.find j = some row) (hs : row.publishState = .pending)
    (ha : row.publishAttempts < 3)
    (hview : ∀ row', (o.write x.1).ledger.outbox.find j = some row' → row'.payload = row.payload ∧
        row'.publishAttempts = row.publishAttempts + 1) :
    (fifo P).Meets remote i (expireClaimed j token) (.active o) .idle x := by
  refine meets_draft h (fun env busy e he => ?_) (fun env busy e he y hy hxy => ?_)
    fun f y => meets_ret
  · obtain ⟨e', he', rfl⟩ := onLedger_some he
    refine draft_updateLeased h (fun row' hrow' _ => ?_) (fun _ => rfl) ?_ he'
    · obtain ⟨hp, hatt⟩ := hview row' hrow'
      exact ⟨row, hrow, hp, .expire hs ha rfl rfl hatt⟩
    · exact fun _ hc => by cases hc
  have hlock₁ : Key.dispatch j ∈ e.locks ++ o.locks :=
    List.mem_append_right _ hlock
  have hrow₁ := (hxy.dispatch hlock₁).trans hrow
  refine meets_draft hy (fun _ _ _ he => draft_expireUnpublished hy he)
    (fun env₂ busy₂ e₂ he₂ z hz hyz => ?_) fun f y => meets_ret
  have hlock₂ : Key.dispatch j ∈ e₂.locks ++ (e.locks ++ o.locks) :=
    List.mem_append_right _ hlock₁
  have hrow₂ := (hyz.dispatch hlock₂).trans hrow₁
  refine meets_draft hz
    (fun _ _ _ he => hz.gapFromJob (fun _ _ => .inr ⟨hlock₂, row, hrow₂, hs⟩) he)
    (fun _ _ _ _ u hu _ => ?_) fun f y => meets_ret
  exact meets_commit_draft hu fun r y _ => by cases r <;> exact meets_ret

/-- One message is sent for the claim, and its outcome recorded. -/
theorem sendClaimed_meets (hx : WellFormed x.1.ledger) :
    (fifo P).Meets remote i (sendClaimed j token row) .idle
      (.claimed j row.payload) x := by
  refine meets_call fun env => ⟨.idle, ⟨.send, fun _ _ => relies_world⟩, fun y hy => ?_⟩
  refine meets_start (fun env z hz => ?_) fun z _ => meets_ret
  have hwf := (hz (hy hx).1).1
  refine meets_attempt Move.stays (recordSend_holds hwf) (fun _ _ _ => meets_ret)
    fun _ o' u hu => meets_commit_draft hu fun r u _ => ?_
  cases r with
  | error f => exact meets_ret
  | ok v =>
    dsimp only
    split <;> exact meets_ret

theorem publishNext_meets (hx : WellFormed x.1.ledger) :
    (fifo P).Meets remote i publishNext .idle .idle x := by
  refine meets_start (fun env y hy => ?_) fun y _ => meets_ret
  have hwf := (hy hx).1
  refine meets_query (fun env' busy e he z hz => ?_) fun f z _ => meets_ret
  rcases claimDispatchOutbox_some he with hv | ⟨j, row, hrow, hc, rfl⟩
  · rw [hv]
    exact meets_ret
  have hd := draft_claim env env'.uuid hwf hrow hc
  obtain ⟨hs, ha, -⟩ := claimable_iff.mp hc
  refine meets_unseen (fun _ _ _ => rfl) fun now u hu => ?_
  have hzu := (fifo P).rely_trans hz hu
  have hd' := hd.later hzu
  have hlock : Key.dispatch j ∈ [Key.dispatch j] ++ [] := by simp
  have hrow' := ((hzu hwf).2.dispatch hlock).trans hrow
  split
  · refine expireClaimed_meets hd' hlock hrow' hs ha fun row' hfind => ?_
    replace hfind : (u.1.ledger.outbox.put j (row.claimed env'.uuid env.now)).find
      j = some row' := hfind
    rw [Table.find_put] at hfind
    cases hfind
    exact ⟨rfl, rfl⟩
  have hnow := hd'.now.toCommit
  refine meets_commit ⟨.claimed j row.payload, ⟨.claim hnow hrow' (Table.find_put _ _ _) rfl,
      fun _ hfree => relies_of_commit (fun _ => hnow) hfree⟩,
      fun r v hv => ?_⟩ fun v _ => meets_ret
  cases r with
  | error f => exact meets_ret
  | ok w => exact sendClaimed_meets (hv hnow.wellFormed).1

/-! ## Reclaiming leases -/

/-- Rows that look publishing through the writes of `o` have not been written
by it. -/
def Untaken (o : Open Database Key Env) : Prop :=
  ∀ db j row, (o.write db).ledger.outbox.find j = some row →
    row.publishState = .publishing → db.ledger.outbox.find j = some row

theorem reclaimDispatchLease_draft {e : Effect Database Key Nat} (h : Draft o x)
    (ho : Untaken o) (he : reclaimDispatchLease j begun env busy (o.write x.1) = some e) :
    Draft (o.extend e) x ∧ Untaken (o.extend e) := by
  obtain ⟨e', he', rfl⟩ := onLedger_some he
  have hstill : e'.write = id → Draft (o.extend (ledgerEffect e')) x ∧
        Untaken (o.extend (ledgerEffect e')) := by
    intro hid
    have hwrite : ∀ db, (ledgerEffect e').write db = db := by
      intro db
      show { db with ledger := e'.write db.ledger } = db
      rw [hid]
      rfl
    refine ⟨h.still fun db => by rw [hwrite], fun db k row hrow => ?_⟩
    exact ho db k row ((hwrite (o.write db)) ▸ hrow)
  split at he'
  · cases he'
    exact hstill rfl
  next row hfind =>
  split at he'
  · next hexp =>
    simp only [Dispatch.leaseExpired, Bool.and_eq_true, beq_iff_eq] at hexp
    have hrow := ho x.1 j row hfind hexp.1
    simp only [updateDispatch] at he'
    split at he'
    · next hadm =>
      cases he'
      constructor
      · refine h.putDispatch rfl rfl hrow rfl (.reclaim hexp.1 ?_ rfl rfl) hadm.2
          (fun hne => absurd rfl hne) ?_
        · by_cases h3 : 3 ≤ row.publishAttempts
          · exact .inr (if_pos h3)
          · exact .inl (if_neg h3)
        · intro hrep
          by_cases h3 : 3 ≤ row.publishAttempts
          · simp [h3] at hrep
          · simp [h3] at hrep
      · intro db k row' hrow' hpub
        rcases Table.find_put_some.mp hrow' with ⟨rfl, rfl⟩ | ⟨-, hold⟩
        · by_cases h3 : 3 ≤ row.publishAttempts
          · simp [h3] at hpub
          · simp [h3] at hpub
        · exact ho db k row' hold hpub
    · cases he'
  · cases he'
    exact hstill rfl

theorem reclaimEach_holds : ∀ (ids : List Uuid) (count : Nat)
    {o : Open Database Key Env} {x : State}, Draft o x → Untaken o →
    (fifo P).Holds remote Failed (fun _ o y => Draft o y) (reclaimEach ids count) o x := by
  intro ids
  induction ids with
  | nil => exact fun _ _ _ h _ => h
  | cons j rest ih =>
    intro count o x h ho
    refine holds_draft h (fun _ _ _ he => (reclaimDispatchLease_draft h ho he).1)
      (fun _ _ _ he y hy _ => ?_) fun _ => ⟨_, rfl⟩
    exact ih _ hy (reclaimDispatchLease_draft h ho he).2

theorem reclaimPublisherLeases_meets (hx : WellFormed x.1.ledger) :
    (fifo P).Meets remote i reclaimPublisherLeases .idle .idle x := by
  refine meets_start (fun env y hy => ?_) fun y _ => meets_ret
  have hd := Draft.fresh env (hy hx).1
  have hbody : (fifo P).Holds remote Failed (fun _ o z => Draft o z)
      reclaimDispatchPublisherLeases (.fresh env) y := by
    refine holds_draft hd (fun _ _ e he => ?_) (fun _ _ e he z hz _ => ?_) fun _ => ⟨_, rfl⟩
    · obtain ⟨e', he', rfl⟩ := onLedger_some he
      cases he'
      exact hd.still fun _ => rfl
    · obtain ⟨e', he', rfl⟩ := onLedger_some he
      cases he'
      exact reclaimEach_holds _ _ hz fun _ _ _ hrow _ => hrow
  refine meets_attempt Move.stays hbody (fun _ _ _ => meets_ret)
    fun _ o' z hz => meets_commit_draft hz fun r u _ => ?_
  cases r <;> exact meets_ret

end WatchTrace.Proofs
