import WatchTrace.Proofs.Engine

/-!
# The life of an outbox row

What a lease token guards and what it does not. A row without a token that
nobody may claim can only be repaired, so `published` is final, and `expired`
gives way to `repaired` alone. A repair leaves the token where it was: the
publisher that holds it may still write its outcome over the repaired row, and
that is the one way a dispatch with an accepted result becomes claimable, and
its slot a gap, once more.

The attempts on a row bound the messages sent for it, since a claim counts its
attempt before the message goes out.
-/

namespace WatchTrace.Proofs

open Tx Model Spec

variable {P : Primitives}

/-! ## Rows that are over -/

/-- Repaired, and no publisher holds a token for it. -/
def Repaired (d : Dispatch) : Prop :=
  d.publishState = .repaired ∧ d.publishLeaseToken = none

/-- Nobody will publish this row any more. -/
def Over (d : Dispatch) : Prop :=
  d.publishState = .published ∨ d.publishState = .expired ∨ Repaired d

variable {d : Dispatch}

theorem Over.not_claimable (h : Over d) (now : Time) :
    d.claimable now = false := by
  unfold Dispatch.claimable
  rcases h with h | h | ⟨h, -⟩
  all_goals simp [h]

/-- What becomes of a row that is over: it stays, or it is repaired. -/
def OverStep (d d' : Dispatch) : Prop :=
  (d.publishState = .published → d'.publishState = .published) ∧
    (d.publishState = .expired → d'.publishState = .expired ∨ Repaired d') ∧
    (Repaired d → Repaired d')

theorem OverStep.refl (d : Dispatch) : OverStep d d :=
  ⟨fun h => h, .inl, fun h => h⟩

theorem OverStep.trans {a b c : Dispatch} (hab : OverStep a b)
    (hbc : OverStep b c) : OverStep a c := by
  refine ⟨fun h => hbc.1 (hab.1 h), fun h => ?_, fun h => hbc.2.2 (hab.2.2 h)⟩
  rcases hab.2.1 h with hexp | hmend
  · exact hbc.2.1 hexp
  · exact .inr (hbc.2.2 hmend)

variable {d' : Dispatch}

theorem OverStep.over (h : OverStep d d') (hd : Over d) :
    Over d' := by
  rcases hd with hd | hd | hd
  · exact .inl (h.1 hd)
  · exact .inr (h.2.1 hd)
  · exact .inr (.inr (h.2.2 hd))

variable {L : List Key} {x y : Ledger} {j : Uuid}

/-- One transaction, one row. -/
theorem overStep_of_commit (hx : WellFormed x) (h : Commit L x y) (hd : x.outbox.find j = some d) :
    ∃ d', y.outbox.find j = some d' ∧ OverStep d d' := by
  have htok := hx.tokens hd
  have hstep := h.outbox j
  rw [hd] at hstep
  generalize hy : y.outbox.find j = after at hstep
  cases hstep with
  | same => exact ⟨d, rfl, OverStep.refl d⟩
  | change _ hc =>
  refine ⟨_, rfl, fun hs => absurd hs (hc.not_published htok), fun hs => ?_, ?_⟩
  · -- an expired row has no token
    have hnone : d.publishLeaseToken = none := by
      by_contra hne
      rcases htok hne with h | h <;> rw [hs] at h <;> cases h
    exact .inr (hc.only_repair hnone (by simp [hs]) (by simp [hs]))
  · rintro ⟨hs, hnone⟩
    exact hc.only_repair hnone (by simp [hs]) (by simp [hs])

theorem overStep_of_run {s s' : System} (hs : Reachable P s) (hrun : Run P s s')
    (hd : s.db.ledger.outbox.find j = some d) :
    ∃ d', s'.db.ledger.outbox.find j = some d' ∧ OverStep d d' := by
  refine ledger_invariant (I := fun l => ∃ d', l.outbox.find j = some d' ∧
    OverStep d d') ?_ hs ⟨d, hd, OverStep.refl d⟩ hrun
  rintro L x y hx hc ⟨d', hd', hstep⟩
  obtain ⟨d'', hd'', hstep'⟩ := overStep_of_commit hx hc hd'
  exact ⟨d'', hd'', hstep.trans hstep'⟩

/-- Terminal states of the outbox: `published` is final; `expired` is final
but for the repair by an accepted result; a repaired row that no publisher
holds a token for stays repaired; and none of these can be claimed again. -/
theorem outbox_terminal_states {s s' : System} (hs : Reachable P s)
    (hrun : Run P s s') {j : Uuid} {d : Dispatch}
    (hd : s.db.ledger.outbox.find j = some d) :
    ∃ d', s'.db.ledger.outbox.find j = some d' ∧
      (d.publishState = .published → d'.publishState = .published) ∧
      (d.publishState = .expired → d'.publishState = .expired ∨
        Repaired d' ∧ s'.db.ledger.checks.find j ≠ none) ∧
      (Repaired d → Repaired d' ∧ s'.db.ledger.checks.find j ≠ none) ∧
      (Over d → ∀ now, d'.claimable now = false) := by
  obtain ⟨d', hd', hstep⟩ := overStep_of_run hs hrun hd
  have hwf : WellFormed s'.db.ledger := reachable_wellFormed (hs.trans hrun)
  have hchecked : Repaired d' → s'.db.ledger.checks.find j ≠ none :=
    fun hm => hwf.repaired hd' hm.1
  refine ⟨d', hd', hstep.1, fun hexp => ?_, fun hm => ?_, fun hover => ?_⟩
  · exact (hstep.2.1 hexp).imp_right fun hm => ⟨hm, hchecked hm⟩
  · exact ⟨hstep.2.2 hm, hchecked (hstep.2.2 hm)⟩
  · exact (hstep.over hover).not_claimable

/-! ## A monitor, a job, a result

One monitor is due at second 60; its job is number 11 and expires at second
180. Every message the queue hands out decodes to a result of that job, whose
number is its only byte. -/

variable {α : Type} {a : α} {as : Script} {f : System → α}

namespace Sample

def snapshotHash : String :=
  "0123456789abcdef0123456789abcdef0123456789abcdef0123456789abcdef"

def result (resultId : Uuid) : Result :=
  { schemaVersion := 2, resultId := .canonical resultId
    jobId := .canonical 11, snapshotHash := snapshotHash
    workerPoolId := "pool", workerId := "worker"
    attemptId := .canonical (100 + resultId), scheduledAt := 60 * second
    startedAt := 61 * second, completedAt := 62 * second, succeeded := true
    statusCode := some 200, errorCategory := none, dnsMicros := none
    connectMicros := none, tlsMicros := none, firstByteMicros := none
    totalMicros := 1000, resultKeyId := "key" }

def unmarshalResult : Bytes → Option SignedResult
  | [b] => some ⟨result b.toNat, List.replicate 64 0⟩
  | _ => none

def primitives : Primitives :=
  { unmarshalResult := unmarshalResult, verify := fun _ _ _ => true
    decryptHeaders := fun _ _ => some [], base64 := id }

def monitor : Monitor :=
  { organizationId := 2, environmentId := 3, version := 1
    targetUrl := "https://service.test", method := "GET"
    intervalSeconds := 60, timeoutSeconds := 5, expectedStatusMin := 200
    expectedStatusMax := 299, nextCheckAt := 60 * second, pausedAt := none
    deletedAt := none, headersCiphertext := none, headerKeyVersion := none
    workerPoolId := "pool" }

def pool : WorkerPool :=
  { enabled := true, lifecycleState := .active, schemaMin := 1, schemaMax := 2
    networkPolicyVersion := 1, encryptionKeyId := some "box"
    encryptionPublicKey := some (List.replicate 32 0)
    resultKeyId := some "key", resultPublicKey := some (List.replicate 32 0)
    jobQueueUrl := some "queue" }

def core : Core :=
  { Core.empty with
    monitors := Table.empty.put 1 monitor, pools := Table.empty.put "pool" pool }

def delivery (b : UInt8) : ResultDelivery :=
  { body := [b], receipt := "", receiveCount := 1
    attributes :=
      { schemaVersion := 2, jobId := .canonical 11, workerPoolId := "pool"
        snapshotHash := snapshotHash, expiresAt := 180 * second
        resultId := .canonical b.toNat, resultKeyId := "key"
        platformKeyId := "", workerEncryptionKeyId := "" } }

/-- All clocks agree, sends fail, and the queue hands out one result. -/
def moment (seconds : Int) (uuid : Uuid) (b : UInt8) : Env :=
  { now := seconds * second, wall := seconds * second, uuid := uuid, pick := 0
    sent := .error (), result := .message (delivery b), dlq := .noMessage
    acknowledged := true, sealed := some ([0], snapshotHash), nonce := some 0 }

abbrev Script := List (Act Database Key Env Call)

/-- A call takes `n` steps without anything going wrong. -/
def steps (i : Nat) (env : Env) (n : Nat) : Script :=
  List.replicate n (.step i env .done)

/-- The first call creates the job. -/
def scheduling : Script :=
  .spawn (scheduleDue primitives "platform" 1 >>= fun _ => pure ()) :: steps 0 (moment 60 11 21) 13

/-- The second claims its dispatch and sends the message, in vain as far as it
can tell, and then has to record the failure. -/
def sending : Script :=
  .spawn (publishNext >>= fun _ => pure ()) :: steps 1 (moment 61 12 21) 5

def failing : Script := steps 1 (moment 63 12 21) 4

/-- Call `i` finds the dispatch pending long after the job has expired. -/
def expiring (i : Nat) : Script :=
  .spawn (publishNext >>= fun _ => pure ()) :: steps i (moment 600 14 21) 8

/-- Call `i` consumes the result with number `b`. -/
def consuming (i : Nat) (seconds : Int) (b : UInt8) : Script :=
  .spawn (consumeNext primitives >>= fun _ => pure ()) :: steps i (moment seconds 13 b) 40

def beginning : System :=
  Sys.quiet ⟨Ledger.empty, core, Journal.empty⟩ World.empty

/-- A script made of calls of the engine. -/
def Fair (script : Script) : Prop :=
  ∀ a ∈ script, a.within (Engine primitives)

theorem steps_within (F : Prog Unit → Prop) (i : Nat) (env : Env) (n : Nat) :
    ∀ a ∈ steps i env n, a.within F :=
  Act.within_replicate

theorem fair_steps (i : Nat) (env : Env) (n : Nat) : Fair (steps i env n) :=
  steps_within _ i env n

theorem fair_append {bs : Script} (ha : Fair as) (hb : Fair bs) :
    Fair (as ++ bs) := List.forall_mem_append.mpr ⟨ha, hb⟩

theorem fair_spawn {p : Prog Unit} (hp : Engine primitives p) (ha : Fair as) :
    Fair (.spawn p :: as) := by
  intro a h
  rcases List.mem_cons.mp h with rfl | h
  · exact hp
  · exact ha a h

theorem fair_scheduling : Fair scheduling :=
  fair_spawn (.scheduleDue _ _) (fair_steps _ _ _)

theorem fair_sending : Fair sending := fair_spawn .publishNext (fair_steps _ _ _)

theorem fair_failing : Fair failing := fair_steps _ _ _

theorem fair_expiring (i : Nat) : Fair (expiring i) :=
  fair_spawn .publishNext (fair_steps _ _ _)

theorem fair_consuming (i : Nat) (seconds : Int) (b : UInt8) : Fair (consuming i seconds b) :=
  fair_spawn .consumeNext (fair_steps _ _ _)

/-- A fair script that can be carried out shows what a run may lead to. -/
theorem reachable_of_script {script : Script} (hfair : Fair script)
    (h : (beginning.run remote script).map f = some a) :
    ∃ s, beginning.run remote script = some s ∧ Reachable primitives s ∧
      f s = a := by
  obtain ⟨s, hs, hf⟩ := Option.map_eq_some_iff.mp h
  exact ⟨s, hs, ⟨beginning, ⟨core, Journal.empty, rfl⟩, Sys.run_steps hfair hs⟩, hf⟩

/-- The same for a script in two parts. -/
theorem run_of_scripts {first second : Script} (h₁ : Fair first) (h₂ : Fair second)
    (h : (beginning.run remote (first ++ second)).map f = some a) :
    ∃ s s', beginning.run remote first = some s ∧ Reachable primitives s ∧
      Run primitives s s' ∧ f s' = a := by
  obtain ⟨s', hs', hf⟩ := Option.map_eq_some_iff.mp h
  rw [Sys.run_append, Option.bind_eq_some_iff] at hs'
  obtain ⟨s, hs, hrun⟩ := hs'
  exact ⟨s, s', hs, ⟨beginning, ⟨core, Journal.empty, rfl⟩,
    Sys.run_steps h₁ hs⟩, Sys.run_steps h₂ hrun, hf⟩

def publishState (s : System) : Option PublishState :=
  (s.db.ledger.outbox.find 11).map Dispatch.publishState

/-- Nobody could tell that the message had arrived: the dispatch expired, and
the result of the job repaired it. -/
theorem expired_then_repaired : ∃ s s', Reachable primitives s ∧ Run primitives s s' ∧
      publishState s = some .expired ∧ publishState s' = some .repaired := by
  have hfair := fair_append (fair_append fair_scheduling fair_sending)
    (fair_append fair_failing (fair_expiring 2))
  obtain ⟨s, s', hs, hreach, hrun, hrepaired⟩ := run_of_scripts hfair
    (fair_consuming 3 601 21) (f := publishState) (a := some .repaired)
    (by decide +kernel)
  refine ⟨s, s', hreach, hrun, ?_, hrepaired⟩
  have hexpired : (beginning.run remote ((scheduling ++ sending) ++
      (failing ++ expiring 2))).map publishState = some (some .expired) := by
    decide +kernel
  rw [hs] at hexpired
  exact Option.some.inj hexpired

end Sample

open Sample

theorem expired_not_absorbing : ¬ ∀ (P : Primitives) (s s' : System), Reachable P s → Run P s s' →
      ∀ (j : Uuid) (d d' : Dispatch), s.db.ledger.outbox.find j = some d →
        s'.db.ledger.outbox.find j = some d' → d.publishState = .expired →
        d'.publishState = .expired := by
  intro hclaim
  obtain ⟨s, s', hreach, hrun, hexpired, hrepaired⟩ := expired_then_repaired
  obtain ⟨d, hd, hstate⟩ := Option.map_eq_some_iff.mp hexpired
  obtain ⟨d', hd', hstate'⟩ := Option.map_eq_some_iff.mp hrepaired
  have := hclaim _ s s' hreach hrun 11 d d' hd hd' hstate
  rw [hstate'] at this
  cases this

theorem outbox_terminal_states_sample : ∃ s s' d d', Reachable primitives s ∧ Run primitives s s' ∧
      s.db.ledger.outbox.find 11 = some d ∧ d.publishState = .expired ∧
      s'.db.ledger.outbox.find 11 = some d' ∧
      (d'.publishState = .expired ∨ Repaired d' ∧ s'.db.ledger.checks.find 11 ≠ none) ∧
      ∀ now, d'.claimable now = false := by
  obtain ⟨s, s', hreach, hrun, hexpired, -⟩ := expired_then_repaired
  obtain ⟨d, hd, hstate⟩ := Option.map_eq_some_iff.mp hexpired
  obtain ⟨d', hd', -, hexp, -, hover⟩ := outbox_terminal_states hreach hrun hd
  exact ⟨s, s', d, d', hreach, hrun, hd, hstate, hd', hexp hstate, hover (.inr (.inl hstate))⟩

/-! ## Messages

Every message sent for a job was paid for by an attempt on its row, and a
claimed row that has not been sent yet is paid for already. -/

/-- The attempts on the dispatch of a job. -/
def attempts (l : Ledger) (j : Uuid) : Nat :=
  match l.outbox.find j with
  | none => 0
  | some d => d.publishAttempts

/-- The messages sent for a job. -/
def sendsFor (w : World) (j : Uuid) : List SendInput :=
  w.sends.filter fun m => m.attributes.jobId = .canonical j

/-- The call has a message for the job yet to send. -/
def owes (j : Uuid) : Local → Bool
  | .claimed k _ => k = j
  | _ => false

/-- The job has a dispatch with this payload. -/
def HasPayload (l : Ledger) (j : Uuid) (payload : DispatchPayload) : Prop :=
  ∃ d, l.outbox.find j = some d ∧ d.payload = payload

/-- What holds of the messages between moves. -/
structure Accounted (p : Abs) : Prop where
  paid : ∀ j, (sendsFor p.1.2 j).length + p.2.countP (owes j) ≤ attempts p.1.1.ledger j
  owed : ∀ {j payload}, Local.claimed j payload ∈ p.2 → HasPayload p.1.1.ledger j payload
  sent : ∀ {m}, m ∈ p.1.2.sends →
    ∃ j payload, m = sendInput j payload ∧ HasPayload p.1.1.ledger j payload

/-- A transaction never takes an attempt back. -/
theorem attempts_mono (h : Commit L x y) (j : Uuid) :
    attempts x j ≤ attempts y j := by
  have hstep := h.outbox j
  unfold attempts
  generalize x.outbox.find j = before at hstep ⊢
  generalize y.outbox.find j = after at hstep ⊢
  cases hstep with
  | same => exact Nat.le_refl _
  | create => exact Nat.zero_le _
  | change _ hc => exact hc.attempts_le

variable {payload : DispatchPayload}

/-- The payload of a dispatch is what it was. -/
theorem HasPayload.keep (h : HasPayload x j payload) (hc : Commit L x y) :
    HasPayload y j payload := by
  obtain ⟨d, hd, hp⟩ := h
  have hstep := hc.outbox j
  rw [hd] at hstep
  generalize hy : y.outbox.find j = after at hstep
  cases hstep with
  | same => exact ⟨d, hy, hp⟩
  | change hpay => exact ⟨_, hy, hpay.trans hp⟩

variable {as : List Local} {i : Nat}

theorem Accounted.spawn {x : State} (h : Accounted (x, as)) :
    Accounted (x, as ++ [Local.idle]) where
  paid := fun j => by
    have hidle : [Local.idle].countP (owes j) = 0 := rfl
    rw [List.countP_append, hidle]
    exact h.paid j
  owed := fun hmem => by
    rcases List.mem_append.mp hmem with hold | hnew
    · exact h.owed hold
    · cases List.mem_singleton.mp hnew
  sent := h.sent

variable {w : World}

/-- A move of a call that sends nothing and claims nothing. -/
theorem Accounted.still {x y : Database} {w' : World} {a a' : Local}
    (h : Accounted ((x, w), as)) (hi : as[i]? = some a) (ha : ∀ j, owes j a = false)
    (ha' : ∀ j, owes j a' = false) (hdb : y.ledger = x.ledger ∨ ∃ L, Commit L x.ledger y.ledger)
    (hw : w'.sends = w.sends) : Accounted ((y, w'), as.set i a') := by
  have hkeep : ∀ {j payload}, HasPayload x.ledger j payload →
      HasPayload y.ledger j payload := by
    intro j payload hp
    rcases hdb with heq | ⟨L, hc⟩
    · rw [heq]; exact hp
    · exact hp.keep hc
  have hattempts : ∀ j, attempts x.ledger j ≤ attempts y.ledger j := by
    intro j
    rcases hdb with heq | ⟨L, hc⟩
    · rw [heq]
    · exact attempts_mono hc j
  refine ⟨fun j => ?_, fun {j payload} hmem => ?_, fun hm => ?_⟩
  · have hcount := countP_set_add (owes j) hi a'
    rw [ha, ha'] at hcount
    have hsends : sendsFor w' j = sendsFor w j := by unfold sendsFor; rw [hw]
    have hpaid := h.paid j
    have := hattempts j
    simp only [hsends] at hpaid ⊢
    omega
  · rcases List.mem_or_eq_of_mem_set hmem with hold | heq
    · exact hkeep (h.owed hold)
    · have := ha' j
      rw [← heq] at this
      simp [owes] at this
  · have hm' : _ ∈ w.sends := hw ▸ hm
    obtain ⟨j, payload, rfl, hpay⟩ := h.sent hm'
    exact ⟨j, payload, rfl, hkeep hpay⟩

/-- A claim pays for the message that is to follow. -/
theorem Accounted.claim {x y : Database} (h : Accounted ((x, w), as))
    (hi : as[i]? = some Local.idle) (hc : Commit L x.ledger y.ledger)
    (hd : x.ledger.outbox.find j = some d) (hd' : y.ledger.outbox.find j = some d')
    (ha : d'.publishAttempts = d.publishAttempts + 1) :
    Accounted ((y, w), as.set i (.claimed j d.payload)) := by
  refine ⟨fun k => ?_, fun {k payload} hmem => ?_, fun hm => ?_⟩
  · have hcount := countP_set_add (owes k) hi (.claimed j d.payload)
    have hpaid := h.paid k
    have hmono := attempts_mono hc k
    simp only [owes, decide_eq_true_eq, Bool.false_eq_true, if_false] at hcount
    dsimp only at hpaid ⊢
    by_cases hjk : j = k
    · subst hjk
      have hx : attempts x.ledger j = d.publishAttempts := by simp [attempts, hd]
      have hy : attempts y.ledger j = d'.publishAttempts := by simp [attempts, hd']
      simp only [if_true] at hcount
      omega
    · rw [if_neg hjk] at hcount
      omega
  · rcases List.mem_or_eq_of_mem_set hmem with hold | heq
    · exact (h.owed hold).keep hc
    · cases heq
      exact HasPayload.keep ⟨d, hd, rfl⟩ hc
  · obtain ⟨k, payload, rfl, hpay⟩ := h.sent hm
    exact ⟨k, payload, rfl, hpay.keep hc⟩

/-- A message that was owed is sent. -/
theorem Accounted.send {db : Database} (h : Accounted ((db, w), as))
    (hi : as[i]? = some (Local.claimed j payload)) :
    Accounted ((db, { w with sends := w.sends ++ [sendInput j payload] }),
      as.set i .idle) := by
  have howed := h.owed (List.mem_of_getElem? hi)
  refine ⟨fun k => ?_, fun {k payload} hmem => ?_, fun hm => ?_⟩
  · have hcount := countP_set_add (owes k) hi .idle
    have hpaid := h.paid k
    simp only [owes, decide_eq_true_eq, Bool.false_eq_true, if_false] at hcount
    simp only [sendsFor, List.filter_append, List.length_append] at hpaid ⊢
    by_cases hjk : j = k
    · simp only [hjk, if_true, sendInput, decide_true, List.filter_cons_of_pos,
        List.filter_nil, List.length_singleton] at hcount ⊢
      omega
    have hne : ¬ IdText.canonical j = IdText.canonical k := fun heq => by
      cases heq; exact hjk rfl
    simp only [hjk, if_false, sendInput, hne, decide_false, Bool.false_eq_true,
      not_false_eq_true, List.filter_cons_of_neg, List.filter_nil,
      List.length_nil] at hcount ⊢
    omega
  · rcases List.mem_or_eq_of_mem_set hmem with hold | heq
    · exact h.owed hold
    · cases heq
  · rcases List.mem_append.mp hm with hold | hnew
    · exact h.sent hold
    · exact ⟨j, payload, List.mem_singleton.mp hnew, howed⟩

/-- Every move keeps the account. -/
theorem Accounted.step {p q : Abs} (hstep : Protocol.AbsStep (fifo P) p q)
    (h : Accounted p) : Accounted q := by
  cases hstep with
  | spawn => exact h.spawn
  | move hi hm =>
  cases hm with
  | stay a x =>
    obtain ⟨hlt, rfl⟩ := List.getElem?_eq_some_iff.mp hi
    rw [List.set_getElem_self hlt]
    exact h
  | commit hc => exact h.still hi (fun _ => rfl) (fun _ => rfl) (.inr ⟨_, hc⟩) rfl
  | claim hc hd hd' ha => exact h.claim hi hc hd hd' ha
  | send => exact h.send hi
  | pull => exact h.still hi (fun _ => rfl) (fun _ => rfl) (.inl rfl) rfl
  | consume hc => exact h.still hi (fun _ => rfl) (fun _ => rfl) (.inr ⟨_, hc⟩) rfl
  | acknowledge => exact h.still hi (fun _ => rfl) (fun _ => rfl) (.inl rfl) rfl

/-- At most three messages are ever sent for a job, they are all the same, and
the job's own id is what the queue tells repetitions and groups by. -/
theorem bounded_identical_publication {s : System} (hs : Reachable P s) (j : Uuid) :
    (sendsFor s.world j).length ≤ 3 ∧
      (∀ m ∈ sendsFor s.world j, ∀ m' ∈ sendsFor s.world j, m = m') ∧
      ∀ m ∈ sendsFor s.world j, m.deduplicationId = j ∧ m.groupId = j := by
  obtain ⟨as, hrel, hacc⟩ := reachable_invariant (P := P) (I := Accounted)
    (fun _ _ => ⟨fun _ => Nat.zero_le _, nofun, nofun⟩)
    (fun hstep _ h => h.step hstep) hs
  have hwf := hrel.good
  -- a message for the job is the one its dispatch determines
  have hfrom : ∀ m ∈ sendsFor s.world j, ∃ d,
      s.db.ledger.outbox.find j = some d ∧ m = sendInput j d.payload := by
    intro m hm
    obtain ⟨hsent, hjob⟩ := List.mem_filter.mp hm
    obtain ⟨k, payload, rfl, d, hd, hpay⟩ := hacc.sent hsent
    have hkj : k = j := by
      simp only [sendInput, decide_eq_true_eq, IdText.canonical.injEq] at hjob
      exact hjob
    subst hkj
    exact ⟨d, hd, by rw [hpay]⟩
  refine ⟨?_, fun m hm m' hm' => ?_, fun m hm => ?_⟩
  · have hpaid := hacc.paid j
    have hle : attempts s.db.ledger j ≤ 3 := by
      unfold attempts
      split
      · exact Nat.zero_le _
      · next d hd => exact hwf.attempts hd
    simp only at hpaid
    omega
  · obtain ⟨d, hd, rfl⟩ := hfrom m hm
    obtain ⟨d', hd', rfl⟩ := hfrom m' hm'
    rw [hd] at hd'
    cases hd'
    rfl
  · obtain ⟨d, hd, rfl⟩ := hfrom m hm
    exact hwf.addressed hd

theorem bounded_identical_publication_sample :
    ∃ s, Reachable primitives s ∧ (sendsFor s.world 11).length = 1 ∧
      (sendsFor s.world 11).length ≤ 3 ∧
      (∀ m ∈ sendsFor s.world 11, ∀ m' ∈ sendsFor s.world 11, m = m') ∧
      ∀ m ∈ sendsFor s.world 11, m.deduplicationId = 11 ∧ m.groupId = 11 := by
  obtain ⟨s, -, hreach, hlen⟩ := reachable_of_script (fair_append fair_scheduling fair_sending)
    (f := fun s => (sendsFor s.world 11).length) (a := 1) (by decide +kernel)
  exact ⟨s, hreach, hlen, bounded_identical_publication hreach 11⟩

/-! ## Gaps

A gap for a slot with an accepted result needs a publisher that finds the
dispatch of its job pending. The result has moved the dispatch out of that
state, and only a failure recorded over a repaired row moves it back. -/

/-- Some row goes back from `repaired` to `pending`. -/
def reopens (x y : Ledger) : Bool :=
  x.outbox.rows.any fun e => e.2.publishState == .repaired &&
    (y.outbox.find e.1).any fun d => d.publishState == .pending

theorem not_reopened (h : reopens x y = false) (hd : x.outbox.find j = some d)
    (hd' : y.outbox.find j = some d') (hs : d.publishState = .repaired) :
    d'.publishState ≠ .pending := by
  intro hs'
  unfold reopens at h
  rw [List.any_eq_false] at h
  have := h (j, d) (Table.mem_rows.mpr hd)
  simp [hs, hd', hs'] at this

/-- What holds of jobs with an accepted result as long as nothing reopens. -/
structure Covered (l : Ledger) : Prop where
  dispatch : ∀ {j d}, l.checks.find j ≠ none → l.outbox.find j = some d →
    d.publishState = .published ∨ d.publishState = .repaired ∨ d.publishState = .ambiguous
  gaps : ∀ {j job k}, l.checks.find j ≠ none → l.jobs.find j = some job →
    Recovered k → Concerns k job → l.gaps.find k = none

/-- The dispatch of a job with a result, through one transaction. -/
theorem Covered.dispatch_step (hx : WellFormed x) (h : Covered x) (hc : Commit L x y)
    (hopen : reopens x y = false) (hcheck : x.checks.find j ≠ none)
    (hd' : y.outbox.find j = some d') :
    d'.publishState = .published ∨ d'.publishState = .repaired ∨
      d'.publishState = .ambiguous := by
  have hstep := hc.outbox j
  rw [hd'] at hstep
  generalize hd : x.outbox.find j = before at hstep
  cases hstep with
  | same => exact h.dispatch hcheck hd
  | create =>
    -- a dispatch is created with its job, and this job has been there
    obtain ⟨row, hrow⟩ := Option.ne_none_iff_exists'.mp hcheck
    obtain ⟨job, hjob, -⟩ := hx.checked hrow
    have hnone := hc.fresh hd (by rw [hd']; exact Option.some_ne_none _)
    rw [hjob] at hnone
    cases hnone
  | change _ hchange =>
  have hs := h.dispatch hcheck hd
  cases hchange with
  | claim hpending | expire hpending => rw [hpending] at hs; rcases hs with h | h | h <;> cases h
  | reclaim hpub => rw [hpub] at hs; rcases hs with h | h | h <;> cases h
  | publish _ hs' => exact .inl hs'
  | repair _ hs' => exact .inr (.inl hs')
  | fail htok hs' =>
  rcases hs' with hpending | hambiguous
  · -- the token is one that a repair left behind
    rcases hx.tokens hd htok with hp | hrepaired
    · rw [hp] at hs; rcases hs with h | h | h <;> cases h
    · exact absurd hpending (not_reopened hopen hd hd' hrepaired)
  · exact .inr (.inr hambiguous)

/-- One transaction that reopens nothing. -/
theorem Covered.commit (hx : WellFormed x) (h : Covered x) (hc : Commit L x y)
    (hopen : reopens x y = false) :
    Covered y where
  dispatch := fun {j d'} hcheck hd' => by
    by_cases hold : x.checks.find j = none
    · exact ((hc.accepted hold hcheck).dispatch hd').imp_right .inl
    · exact h.dispatch_step hx hc hopen hold hd'
  gaps := fun {j job k} hcheck hjob hk hslot => by
    by_cases hold : x.checks.find j = none
    · exact (hc.accepted hold hcheck).gaps hjob hk hslot
    by_contra hgap
    -- the job was there before, on the same slot
    obtain ⟨row, hrow⟩ := Option.ne_none_iff_exists'.mp hold
    obtain ⟨before, hbefore, -⟩ := hx.checked hrow
    have hstep := hc.jobs j
    rw [hbefore, hjob] at hstep
    obtain ⟨_, heq, hsame, -⟩ := hstep.of_some
    cases heq
    have hnone : x.gaps.find k = none :=
      h.gaps hold hbefore hk (hsame.symm.trans hslot)
    obtain ⟨j', job', hjob', hslot', hcause⟩ := hc.gaps hk hnone hgap
    have hjj : j = j' := hc.wellFormed.slots hjob hjob' (Eq.trans hslot (Eq.symm hslot'))
    subst hjj
    cases hcause with
    | job _ hstate => exact hstate ((hc.wellFormed.completed hjob').mpr hcheck)
    | dispatch _ hd hpending =>
    have hs := h.dispatch hold hd
    rw [hpending] at hs
    rcases hs with h | h | h <;> cases h

end WatchTrace.Proofs
