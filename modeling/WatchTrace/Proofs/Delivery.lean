import WatchTrace.Model.Gateway
import WatchTrace.Model.Consumer
import WatchTrace.Proofs.Worker

/-!
# Results on their way

What can keep a result from arriving, once the worker has it.

The first obstacle is the worker's own. A publication that fails is owed, and as
long as one is owed a worker does nothing but try it again, with the lease it was
pulled under. The gateway takes nothing under a lease that has ended, or under a
result key it no longer knows, so a publication that was owed at that moment is owed
for ever, and no further job is pulled.

The second is the clock. A worker looks whether a job has expired before it calls
the engine, and the engine reads the clock again when it begins; gateway and
consumer judge by the second reading.
-/

namespace WatchTrace.Proofs.Delivery

open Tx
open Model (Time Bytes IdText Attributes Job Result Failure Pull second minute verifyResult)
open Model.Worker
open Proc (Script)
open Proc.Script (safe_perform safe_bind run_perform)

/-! ## What is owed -/

def isPull : Event → Bool
  | .pulled _ => true
  | _ => false

/-- How many pulls a story tells of. -/
def pulls (log : List Event) : Nat := (log.filter isPull).length

/-- The transport takes the publication. -/
def accepts (env : Env) (p : PendingPublication) : Bool :=
  if p.expired then env.acknowledges p.delivery p.body else env.publishes p.delivery p.body

variable {L : Library} {c : Config} {s : State} {p : PendingPublication}

theorem suffix_write (disk : Disk) (s : State) (changed : Option Journal)
    (event : Option Event) : s.log <:+ (write disk s changed event).2.log := by
  cases changed with
  | none => cases disk <;> exact List.suffix_rfl
  | some j =>
  cases disk with
  | ok => exact List.suffix_append _ _
  | failed | unreported => exact List.suffix_rfl

/-- Operations add to the story. -/
theorem suffix_act (env : Env) {β : Type} (o : Op β) (s : State) :
    s.log <:+ (handler.act env o s).2.log := by
  show s.log <:+ (act env o s).2.log
  cases o with
  | pending | setPending | now | randomId | acknowledgeExpired | fetch => exact List.suffix_rfl
  | pull | publishResultAndAcknowledge | execute | signed => exact List.suffix_cons _ _
  | journalAccept | journalStore => exact suffix_write _ _ _ _
  | journalResult jobId hash =>
  rcases Worker.act_journalResult env jobId hash s with hact | hact
  · exact (congrArg (fun r => s.log <:+ r.2.log) hact).mpr List.suffix_rfl
  · exact (congrArg (fun r => s.log <:+ r.2.log) hact).mpr List.suffix_rfl

theorem suffix_run {α : Type} (env : Nat → Env) : ∀ (q : Script Op α) (n : Nat) (s : State),
    s.log <:+ (q.run handler env n s).2.log := by
  intro q
  induction q with
  | ret a =>
    intro n s
    exact List.suffix_rfl
  | op o k ih =>
    intro n s
    exact (suffix_act (env n) o s).trans (ih _ (n + 1) _)

theorem pulls_le {log log' : List Event} (h : log <:+ log') : pulls log ≤ pulls log' :=
  (h.sublist.filter isPull).length_le

/-- A publication that is tried is part of the story if it is one of a result. -/
def tried (p : PendingPublication) (s : State) : State :=
  if p.expired then s
  else s.note (.published p.delivery.attributes.jobId p.delivery.attributes.snapshotHash p.body)

theorem pulls_tried (p : PendingPublication) (s : State) : pulls (tried p s).log = pulls s.log := by
  unfold tried
  split <;> rfl

/-- A round that owes something tries to be rid of it, and does nothing else. -/
theorem round_owing (env : Nat → Env) (h : s.pending = some p) :
    ((runOne L c).run handler env 0 s).2 =
      if accepts (env 1) p then { tried p s with pending := none } else tried p s := by
  obtain ⟨pending, journal, log⟩ := s
  cases h
  obtain ⟨d, body, expired⟩ := p
  cases expired with
  | true =>
    cases haccepts : (env 1).acknowledges d body <;>
      simp [runOne, retry, Script.run, handler, act, accepts, haccepts, tried]
  | false =>
    cases haccepts : (env 1).publishes d body <;>
      simp [runOne, retry, Script.run, handler, act, accepts, haccepts, tried]

/-- A round that owes nothing begins with a pull. -/
theorem round_free (env : Nat → Env) (h : s.pending = none) :
    pulls s.log < pulls ((runOne L c).run handler env 0 s).2.log := by
  obtain ⟨pending, journal, log⟩ := s
  cases h
  obtain ⟨q, hq⟩ : ∃ q : Script Op (Bool × Option Failure),
      (runOne L c).run handler env 0 ⟨none, journal, log⟩ =
        q.run handler env 2 ⟨none, journal, .pulled none :: log⟩ := ⟨_, rfl⟩
  rw [hq]
  have hle := pulls_le (suffix_run env q 2 ⟨none, journal, .pulled none :: log⟩)
  have hone : pulls (.pulled none :: log) = pulls log + 1 := rfl
  simp only at hle ⊢
  omega

/-- A worker that owes a publication pulls again exactly if the transport takes it at
one of the rounds to come. -/
theorem pulls_again_iff (env : Nat → Nat → Env) (h : s.pending = some p) :
    (∃ n, pulls s.log < pulls ((runOne L c).calls handler env n s).log) ↔
      ∃ n, accepts (env n 1) p = true := by
  -- as long as it is not taken, it is owed and nothing is pulled
  have howed : ∀ n, (∀ k, k < n → accepts (env k 1) p = false) →
      ((runOne L c).calls handler env n s).pending = some p ∧
        pulls ((runOne L c).calls handler env n s).log = pulls s.log := by
    intro n
    induction n with
    | zero =>
      intro _
      exact ⟨h, rfl⟩
    | succ n ih =>
      intro hrefused
      obtain ⟨hpending, hpulls⟩ := ih fun k hk => hrefused k (by omega)
      rw [Script.calls, round_owing (env n) hpending, hrefused n (by omega), if_neg (by simp)]
      refine ⟨?_, by rw [pulls_tried, hpulls]⟩
      rw [← hpending]
      unfold tried
      split <;> rfl
  constructor
  · rintro ⟨n, hn⟩
    by_contra hnever
    have hrefused : ∀ k, k < n → accepts (env k 1) p = false := by
      intro k _
      exact Bool.eq_false_iff.mpr fun haccepts => hnever ⟨k, haccepts⟩
    have hpulls := (howed n hrefused).2
    omega
  · intro htaken
    classical
    have hfirst := Nat.find_spec htaken
    obtain ⟨hpending, hpulls⟩ := howed (Nat.find htaken) fun k hk =>
      Bool.eq_false_iff.mpr (Nat.find_min htaken hk)
    generalize Nat.find htaken = m at hfirst hpending hpulls
    have hsettled : ((runOne L c).calls handler env (m + 1) s).pending = none ∧
        pulls ((runOne L c).calls handler env (m + 1) s).log = pulls s.log := by
      rw [Script.calls, round_owing (env m) hpending, if_pos hfirst]
      exact ⟨rfl, by rw [← hpulls]; exact pulls_tried p _⟩
    refine ⟨m + 2, ?_⟩
    have hpull := round_free (L := L) (c := c) (env (m + 1)) hsettled.1
    rw [hsettled.2] at hpull
    exact hpull

/-! ## What the gateway refuses -/

variable {C : Model.QueueGateway.Env → Prop} {l : Lease} {body : Bytes}
variable {certificate : Option Model.QueueGateway.Certificate} {contentLength : Int}

section Refusals

open Model.QueueGateway (HttpRequest ActionRequest Pool Lease success)

variable {G : Model.QueueGateway.Library} {pools : Table String Pool} {tolerance : Time}
  {request : HttpRequest} {asked : ActionRequest} {g : Model.QueueGateway.Gateway}

/-- The pool of a request is one of the configured ones. -/
theorem pool_safe (request : HttpRequest) :
    (Model.QueueGateway.pool pools request).Safe Model.QueueGateway.handler C (fun _ => True)
      (fun r _ => ∀ p ∈ r, ∃ id, pools.find id = some p) g := by
  unfold Model.QueueGateway.pool
  split
  · exact fun p hp => ⟨"", hp⟩
  next certificate _ =>
  refine safe_perform fun _ _ => ⟨trivial, safe_perform fun _ _ => ⟨trivial, ?_⟩⟩
  split
  · exact fun p hp => by cases hp
  split
  · exact fun p hp => by cases hp
  next p hfind =>
  split
  · exact fun p hp => by cases hp
  · intro q hq
    cases hq
    exact ⟨certificate.commonName, hfind⟩

/-- A lease that has ended opens nothing. -/
theorem action_ended (hasked : request.action = some asked)
    (hlease : G.openToken asked.leaseToken = some l) :
    (Model.QueueGateway.action G pools tolerance request).Safe Model.QueueGateway.handler
      (fun env => l.leaseExpiresAt + tolerance < env.wall) (fun _ => True)
      (fun r _ => ∃ status, r = .error status ∧ success status = false) g := by
  unfold Model.QueueGateway.action
  refine safe_bind (pool_safe request) fun found g' _ => ?_
  cases found with
  | none => exact ⟨401, rfl, rfl⟩
  | some p =>
  refine safe_perform fun _ _ => ⟨trivial, ?_⟩
  split
  · exact ⟨429, rfl, rfl⟩
  rw [hasked]
  refine safe_perform fun env henv => ⟨trivial, ?_⟩
  have hended : Model.QueueGateway.openLease G tolerance asked.leaseToken env.wall = none := by
    unfold Model.QueueGateway.openLease
    rw [hlease]
    simp only [henv, decide_true, Bool.or_true, if_true]
  erw [hended]
  exact ⟨401, rfl, rfl⟩

theorem result_ended (hasked : request.action = some asked)
    (hlease : G.openToken asked.leaseToken = some l) :
    (Model.QueueGateway.result G pools tolerance request).Safe Model.QueueGateway.handler
      (fun env => l.leaseExpiresAt + tolerance < env.wall) (fun _ => True)
      (fun status _ => success status = false) g := by
  unfold Model.QueueGateway.result
  refine safe_bind (action_ended hasked hlease) fun r g' hr => ?_
  obtain ⟨status, rfl, hstatus⟩ := hr
  exact hstatus

theorem expired_ended (hasked : request.action = some asked)
    (hlease : G.openToken asked.leaseToken = some l) :
    (Model.QueueGateway.expired G pools tolerance request).Safe Model.QueueGateway.handler
      (fun env => l.leaseExpiresAt + tolerance < env.wall) (fun _ => True)
      (fun status _ => success status = false) g := by
  unfold Model.QueueGateway.expired
  refine safe_bind (action_ended hasked hlease) fun r g' hr => ?_
  obtain ⟨status, rfl, hstatus⟩ := hr
  exact hstatus

/-- What an action gets as far as its handler. -/
theorem action_safe :
    (Model.QueueGateway.action G pools tolerance request).Safe Model.QueueGateway.handler C
      (fun _ => True)
      (fun r _ => match r with
        | .error status => success status = false
        | .ok (p, _, asked) => (∃ id, pools.find id = some p) ∧ request.action = some asked) g := by
  unfold Model.QueueGateway.action
  refine safe_bind (pool_safe request) fun found g' hfound => ?_
  cases found with
  | none => rfl
  | some p =>
  refine safe_perform fun _ _ => ⟨trivial, ?_⟩
  split
  · rfl
  cases hasked : request.action with
  | none => rfl
  | some asked =>
  refine safe_perform fun env henv => ⟨trivial, ?_⟩
  split
  · rfl
  · split
    · rfl
    · exact ⟨hfound p rfl, rfl⟩

/-- A result that does not name its pool's result key is not taken. -/
theorem result_foreign_key (hasked : request.action = some asked)
    (hbody : asked.body = some body) (hkey : ∀ id p result, pools.find id = some p →
      verifyResult G.envelope body p.resultPublic = some result →
      result.resultKeyId ≠ p.resultKeyId) :
    (Model.QueueGateway.result G pools tolerance request).Safe Model.QueueGateway.handler C
      (fun _ => True) (fun status _ => success status = false) g := by
  unfold Model.QueueGateway.result
  refine safe_bind action_safe fun r g' hr => ?_
  cases r with
  | error status => exact hr
  | ok found =>
  obtain ⟨p, msg, asked'⟩ := found
  obtain ⟨⟨id, hfind⟩, hsame⟩ := hr
  cases hasked.symm.trans hsame
  simp only [hbody]
  split
  · rfl
  next body' hfilter =>
  obtain ⟨heq, -⟩ := Option.filter_eq_some_iff.mp hfilter
  cases heq
  refine safe_perform fun _ _ => ⟨trivial, ?_⟩
  split
  · rfl
  refine safe_perform fun env _ => ⟨trivial, ?_⟩
  split
  · rfl
  next result hresult =>
  obtain ⟨hverified, hadmissible⟩ := Option.filter_eq_some_iff.mp hresult
  unfold Model.QueueGateway.admissibleResult at hadmissible
  simp only [Bool.and_eq_true, beq_iff_eq] at hadmissible
  exact absurd hadmissible.1.2 (hkey id p result hfind hverified)

/-- Whether the gateway takes a publication, as the worker's transport brings it. -/
def gatewayTakes (G : Model.QueueGateway.Library) (pools : Table String Pool) (tolerance : Time)
    (certificate : Option Model.QueueGateway.Certificate) (contentLength : Int)
    (env : Nat → Model.QueueGateway.Env) (g : Model.QueueGateway.Gateway)
    (p : PendingPublication) : Bool :=
  let request : HttpRequest :=
    { certificate, contentLength
      action := some { leaseToken := p.delivery.leaseToken, body := some p.body } }
  if p.expired then
    success ((Model.QueueGateway.expired G pools tolerance request).run
      Model.QueueGateway.handler env 0 g).1
  else
    success ((Model.QueueGateway.result G pools tolerance request).run
      Model.QueueGateway.handler env 0 g).1

theorem gatewayTakes_ended {env : Nat → Model.QueueGateway.Env}
    (hlease : G.openToken p.delivery.leaseToken = some l)
    (hended : ∀ k, l.leaseExpiresAt + tolerance < (env k).wall) :
    gatewayTakes G pools tolerance certificate contentLength env g p = false := by
  unfold gatewayTakes
  split
  · exact Script.run_of_safe (expired_ended rfl hlease) hended 0
  · exact Script.run_of_safe (result_ended rfl hlease) hended 0

theorem gatewayTakes_foreign_key {env : Nat → Model.QueueGateway.Env}
    (hresult : p.expired = false) (hkey : ∀ id q result, pools.find id = some q →
      verifyResult G.envelope p.body q.resultPublic = some result →
      result.resultKeyId ≠ q.resultKeyId) :
    gatewayTakes G pools tolerance certificate contentLength env g p = false := by
  unfold gatewayTakes
  rw [hresult]
  exact Script.run_of_safe (C := fun _ => True) (result_foreign_key rfl rfl hkey)
    (fun _ => trivial) 0

/-- A worker that owes a publication gets to pull again exactly if the transport takes
the publication after all. Where the transport is the gateway, it does not once the
lease has ended or, for a result, the pool has another result key: then the worker
never pulls again, however many rounds it makes. -/
theorem owed_publication_blocks (L : Library) (c : Config) (s : State) (p : PendingPublication)
    (env : Nat → Nat → Env) (howed : s.pending = some p) :
    ((∃ n, pulls s.log < pulls ((runOne L c).calls handler env n s).log) ↔
      ∃ n, accepts (env n 1) p = true) ∧
    ∀ (G : Model.QueueGateway.Library) (pools : Nat → Table String Pool) (tolerance : Time)
      (certificate : Option Model.QueueGateway.Certificate) (contentLength : Int)
      (clocks : Nat → Nat → Model.QueueGateway.Env) (g : Nat → Model.QueueGateway.Gateway),
      (∀ n, accepts (env n 1) p =
        gatewayTakes G (pools n) tolerance certificate contentLength (clocks n) (g n) p) →
      ((∃ l, G.openToken p.delivery.leaseToken = some l ∧
          ∀ n k, l.leaseExpiresAt + tolerance < (clocks n k).wall) ∨
        (p.expired = false ∧ ∀ n id q result, (pools n).find id = some q →
          verifyResult G.envelope p.body q.resultPublic = some result →
          result.resultKeyId ≠ q.resultKeyId)) →
      ¬ ∃ n, pulls s.log < pulls ((runOne L c).calls handler env n s).log := by
  refine ⟨pulls_again_iff env howed, ?_⟩
  intro G pools tolerance certificate contentLength clocks g hgateway hdead hpulls
  obtain ⟨n, haccepts⟩ := (pulls_again_iff env howed).mp hpulls
  rw [hgateway n] at haccepts
  rcases hdead with ⟨l, hlease, hended⟩ | ⟨hresult, hkey⟩
  · rw [gatewayTakes_ended hlease (hended n)] at haccepts
    cases haccepts
  · rw [gatewayTakes_foreign_key hresult (hkey n)] at haccepts
    cases haccepts

namespace Sample

open Worker.Sample

/-- A result under the lease that was handed out with the job. -/
def owed : PendingPublication := { delivery, body := [1] }

def owing : State := { pending := some owed, journal := .empty, log := [] }

def gatewayPools : Table String Pool :=
  Table.empty.put ""
    { id := "hosted", resultKeyId := "r", resultPublic := List.replicate 32 0, schemaMin := 1
      schemaMax := 2, maxRequestsPerMinute := 120, maxBytesPerMinute := 8388608
      maxConcurrentPulls := 2, maxResultsPerMinute := 120 }

def gateway : Model.QueueGateway.Gateway :=
  { pools := gatewayPools, tolerance := 5 * second, limits := .empty
    dependencyUnavailableUntil := none }

/-- The lease ends two minutes after the pull. -/
def gatewayLibrary : Model.QueueGateway.Library :=
  { envelope :=
      { unmarshalResult := fun _ => none, verify := fun _ _ _ => true
        decryptHeaders := fun _ _ => none, base64 := id }
    verifyExpired := fun _ _ => none
    openToken := fun _ => some
      { poolId := "hosted", receipt := "receipt", jobId := .canonical 1
        snapshotHash := Worker.Sample.hash, schemaVersion := 2, expiresAt := 1060 * second
        leaseExpiresAt := 1120 * second }
    sealToken := fun _ _ => "lease" }

/-- An hour later. -/
def clock : Model.QueueGateway.Env :=
  { wall := 4600 * second, nonce := none, pulled := .noMessage, accepted := true }

/-- Every pull would deliver a job; publications go through the gateway. -/
def later : Env :=
  { env with
    wall := 4600 * second
    publishes := fun d body => gatewayTakes gatewayLibrary gatewayPools (5 * second) none 0
      (fun _ => clock) gateway { delivery := d, body }
    acknowledges := fun d body => gatewayTakes gatewayLibrary gatewayPools (5 * second) none 0
      (fun _ => clock) gateway { delivery := d, body, expired := true } }

/-- The transport has recovered in the second round. -/
def recovering (n _ : Nat) : Env := { env with publishes := fun _ _ => decide (n = 1) }

end Sample

/-- A worker that owes a result under an ended lease makes round after round, and no
pull. -/
theorem ended_lease_stalls : Sample.owing.pending = some Sample.owed ∧
      Sample.later.pulled = .message Worker.Sample.delivery ∧
      ∀ n, pulls ((runOne Worker.Sample.library Worker.Sample.config).calls handler
        (fun _ _ => Sample.later) n Sample.owing).log = 0 := by
  refine ⟨rfl, rfl, fun n => ?_⟩
  have hrefused : ¬ ∃ n : Nat, accepts ((fun _ _ => Sample.later : Nat → Nat → Env) n 1)
      Sample.owed = true := by
    rintro ⟨n, h⟩
    have hfalse : accepts Sample.later Sample.owed = false := by decide +kernel
    rw [hfalse] at h
    cases h
  rw [← pulls_again_iff (L := Worker.Sample.library) (c := Worker.Sample.config) (s := Sample.owing)
    (fun _ _ => Sample.later) rfl] at hrefused
  by_contra hne
  exact hrefused ⟨n, Nat.pos_of_ne_zero hne⟩

theorem owed_publication_blocks_sample :
    (∃ n, pulls Sample.owing.log < pulls ((runOne Worker.Sample.library Worker.Sample.config).calls
      handler Sample.recovering n Sample.owing).log) ∧
    ¬ ∃ n, pulls Sample.owing.log < pulls ((runOne Worker.Sample.library Worker.Sample.config).calls
      handler (fun _ _ => Sample.later) n Sample.owing).log := by
  constructor
  · exact (owed_publication_blocks Worker.Sample.library Worker.Sample.config Sample.owing
      Sample.owed Sample.recovering rfl).1.mpr ⟨1, rfl⟩
  · exact (owed_publication_blocks Worker.Sample.library Worker.Sample.config Sample.owing
      Sample.owed (fun _ _ => Sample.later) rfl).2 Sample.gatewayLibrary
      (fun _ => Sample.gatewayPools) (5 * second) none 0 (fun _ _ => Sample.clock)
      (fun _ => Sample.gateway) (fun _ => rfl)
      (.inl ⟨_, rfl, fun _ _ => by decide⟩)

end Refusals

/-! ## The clock

A round reads the clock when it opens the job, when it looks whether the job has
expired, when the engine begins and when it ends: its operations 2, 4, 9 and 11.
-/

/-- Whether a story tells of this result being signed. -/
def Signs (log : List Event) (r : Result) : Prop := .signed r ∈ log

variable {d : Delivery} {n : Nat} {r : Result}

theorem not_signs_publish {env : Nat → Env} (h : ¬ Signs s.log r) :
    ¬ Signs ((publish d body).run handler env n s).2.log r := by
  cases hpublishes : (env n).publishes d body <;>
    simpa [Signs, publish, Script.run, handler, act, State.note, hpublishes] using h

theorem not_signs_reportExpired {job : Job} {env : Nat → Env} (h : ¬ Signs s.log r) :
    ¬ Signs ((reportExpired L c d job).run handler env n s).2.log r := by
  unfold reportExpired
  rw [run_perform]
  split
  · rw [run_perform]
    split
    · exact h
    · exact h
  · exact h

/-- What is signed by a round that has got as far as the job's own check. -/
structure SignedBy (c : Config) (d : Delivery) (job : Job) (start stop : Time) (r : Result) :
    Prop where
  scheduledAt : r.scheduledAt = job.scheduledAt
  startedAt : r.startedAt = start
  completedAt : r.completedAt = max start stop
  workerPoolId : r.workerPoolId = job.workerPoolId
  snapshotHash : r.snapshotHash = d.attributes.snapshotHash

theorem not_signs_write {disk : Disk} {changed : Option Journal} {event : Option Event}
    (h : ¬ Signs s.log r) (hevent : event ≠ some (.signed r)) :
    ¬ Signs (write disk s changed event).2.log r := by
  have hnoted : ¬ Signs (event.toList ++ s.log) r := by
    intro hmem
    rcases List.mem_append.mp hmem with hmem | hmem
    · exact hevent (Option.mem_toList.mp hmem)
    · exact h hmem
  cases changed with
  | none => cases disk <;> exact h
  | some j =>
  cases disk with
  | ok => exact hnoted
  | failed | unreported => exact h

theorem complete_signs {job : Job} {result : Result} {env : Nat → Env} (h : ¬ Signs s.log r)
    (hsigned : Signs ((complete L c d job result).run handler env n s).2.log r) :
    r = result := by
  by_contra hne
  have hnot : ¬ Signs (s.note (.signed result)).log r := by
    intro hmem
    rcases List.mem_cons.mp hmem with heq | hmem
    · exact hne (Event.signed.inj heq)
    · exact h hmem
  unfold complete at hsigned
  split at hsigned
  · exact h hsigned
  rw [run_perform, run_perform] at hsigned
  split at hsigned
  · exact not_signs_write hnot (by simp) hsigned
  · exact not_signs_publish (not_signs_write hnot (by simp)) hsigned

/-- A check reads the clock when it begins and when it ends. -/
theorem execute_run (hash : String) (input : CheckRequest) (env : Nat → Env) (n : Nat)
    (s : State) : ∃ (answer : Except Failure CheckResult) (m : Nat),
      (∀ {α : Type} (f : Except Failure CheckResult → Script Op α),
        (execute hash input >>= f).run handler env n s = (f answer).run handler env m
          (s.note (.executed input.jobId hash (s.journal.find input.jobId)))) ∧
      ∀ checked, answer = .ok checked → ∃ status category timings,
        checked = finish (env (n + 1)).wall (env (n + 3)).wall status category timings := by
  unfold execute
  cases hvalid : input.valid with
  | false => exact ⟨_, n + 1, fun f => rfl, fun checked h => by cases h⟩
  | true =>
  cases hverdict : verdict input (env (n + 2)).timings (env (n + 2)).fetched with
  | none =>
    refine ⟨.error .service, n + 3, fun f => ?_, fun checked h => by cases h⟩
    simp [Script.run, handler, act, hverdict]
  | some found =>
  obtain ⟨status, category, timings⟩ := found
  refine ⟨.ok (finish (env (n + 1)).wall (env (n + 3)).wall status category timings),
    n + 4, fun f => ?_, fun checked h => ⟨status, category, timings, ?_⟩⟩
  · simp [Script.run, handler, act, hverdict]
  · cases h
    rfl

/-- The result that is signed has the engine's two readings. -/
theorem check_signs {job : Job} {env : Nat → Env} (h : ¬ Signs s.log r)
    (hsigned : Signs ((check L c d job).run handler env 5 s).2.log r) :
    SignedBy c d job (env 9).wall (env 11).wall r := by
  unfold check at hsigned
  rw [run_perform] at hsigned
  have haccepted : ¬ Signs (handler.act (env 5) (.journalAccept (.canonical job.jobId)
      d.attributes.snapshotHash) s).2.log r := not_signs_write h (by simp)
  generalize (handler.act (env 5) (.journalAccept (.canonical job.jobId)
    d.attributes.snapshotHash) s).2 = s₁ at haccepted hsigned
  split at hsigned
  · exact absurd hsigned haccepted
  rw [run_perform, run_perform] at hsigned
  have hexecuted : ¬ Signs (s₁.note (.executed (checkRequest job).jobId
      d.attributes.snapshotHash (s₁.journal.find (checkRequest job).jobId))).log r := by
    intro hmem
    rcases List.mem_cons.mp hmem with heq | hmem
    · cases heq
    · exact haccepted hmem
  obtain ⟨answer, m, hrun, hanswer⟩ :=
    execute_run d.attributes.snapshotHash (checkRequest job) env 8 s₁
  erw [hrun] at hsigned
  cases answer with
  | error failure => exact absurd hsigned hexecuted
  | ok checked =>
  obtain ⟨status, category, timings, rfl⟩ := hanswer checked rfl
  cases complete_signs hexecuted hsigned
  refine ⟨rfl, rfl, ?_, rfl, rfl⟩
  show (if (env 11).wall < (env 9).wall then (env 9).wall else (env 11).wall) = _
  split
  · next hback => exact (max_eq_left (le_of_lt hback)).symm
  · next hforth => exact (max_eq_right (not_lt.mp hforth)).symm

theorem handle_signs {job : Job} {env : Nat → Env} (h : ¬ Signs s.log r)
    (hsigned : Signs ((handle L c d job).run handler env 3 s).2.log r) :
    SignedBy c d job (env 9).wall (env 11).wall r := by
  unfold handle at hsigned
  rw [run_perform] at hsigned
  rcases Worker.act_journalResult (env 3) (.canonical job.jobId) d.attributes.snapshotHash s
    with hact | hact
  · rw [hact] at hsigned
    exact absurd hsigned h
  · rw [hact] at hsigned
    cases hresult : s.journal.result (.canonical job.jobId) d.attributes.snapshotHash with
    | some stored =>
      rw [hresult] at hsigned
      exact absurd hsigned (not_signs_publish h)
    | none =>
    rw [hresult] at hsigned
    simp only [run_perform] at hsigned
    split at hsigned
    · exact absurd hsigned (not_signs_reportExpired h)
    · exact check_signs h hsigned

/-- What a round signs, when it has pulled this delivery and it holds this job. -/
theorem runOne_signs {journal : Journal} {env : Nat → Env} {job : Job}
    {workerPrivate platformPublic : Bytes} (hpull : (env 1).pulled = .message d)
    (hkeys : c.keys d = some (workerPrivate, platformPublic))
    (hopen : openJob L d.body d.attributes workerPrivate platformPublic (env 2).wall
      c.clockTolerance = some job)
    (hsigned : Signs ((runOne L c).run handler env 0 ⟨none, journal, []⟩).2.log r) :
    SignedBy c d job (env 9).wall (env 11).wall r := by
  have hpulled : ¬ Signs [.pulled none] r := by simp [Signs]
  have hreceive : (runOne L c).run handler env 0 ⟨none, journal, []⟩ =
      (receive L c d).run handler env 2 ⟨none, journal, [.pulled none]⟩ := by
    simp [runOne, Script.run, handler, act, State.note, hpull]
  rw [hreceive] at hsigned
  unfold receive at hsigned
  rw [hkeys] at hsigned
  simp only [run_perform] at hsigned
  dsimp only [handler, act] at hsigned
  rw [hopen] at hsigned
  dsimp only at hsigned
  split at hsigned
  · exact absurd hsigned hpulled
  · exact handle_signs hpulled hsigned

/-- A result that a round has signed meets the time bounds of the gateway and of the
consumer exactly if the engine began no later than five seconds after the job
expired. The worker has checked an earlier reading against that. -/
theorem signed_result_timely_iff (L : Library) (c : Config) (journal : Journal)
    (env : Nat → Env) (d : Delivery) (job : Job) (workerPrivate platformPublic : Bytes)
    (r : Result) (hclock : ∀ m n, m ≤ n → (env m).wall ≤ (env n).wall)
    (hpull : (env 1).pulled = .message d)
    (hkeys : c.keys d = some (workerPrivate, platformPublic))
    (hopen : openJob L d.body d.attributes workerPrivate platformPublic (env 2).wall
      c.clockTolerance = some job)
    (created : Time) (hcreated : job.scheduledAt ≤ created) (hpulled : created ≤ (env 1).wall)
    (hsigned : Signs ((runOne L c).run handler env 0 ⟨none, journal, []⟩).2.log r)
    (msg : Delivery) (hmsg : msg.attributes.expiresAt = d.attributes.expiresAt)
    (atGateway : Time) (hgateway : (env 11).wall ≤ atGateway)
    (P : Model.Primitives) (row : Model.LockedJob) (delivered : Model.ResultDelivery)
    (hrow : row.row.scheduledAt = job.scheduledAt ∧ row.row.expiresAt = job.expiresAt ∧
      row.row.workerPoolId = job.workerPoolId ∧
      row.row.snapshotHash = d.attributes.snapshotHash)
    (hverified : verifyResult P delivered.body row.resultPublicKey = some r)
    (atConsumer : Time) (hconsumer : atGateway ≤ atConsumer) :
    (Model.QueueGateway.timely (5 * second) msg r atGateway = true ∧
        Model.verifiedFor P row delivered atConsumer = some r) ↔
      (env 9).wall ≤ job.expiresAt + 5 * second := by
  have hsignedBy := runOne_signs hpull hkeys hopen hsigned
  have hexpires := (Worker.jobId_of_openJob hopen).2
  have hbegun := hclock 1 9 (by omega)
  have hended := hclock 9 11 (by omega)
  obtain ⟨hscheduledAt, hexpiresAt, hpool, hhash⟩ := hrow
  unfold Model.QueueGateway.timely Model.verifiedFor
  rw [hverified]
  simp only [hsignedBy.scheduledAt, hsignedBy.startedAt, hsignedBy.completedAt,
    hsignedBy.workerPoolId, hsignedBy.snapshotHash, hscheduledAt, hexpiresAt, hpool, hhash, hmsg,
    hexpires, max_eq_right hended]
  have hfive : (0 : Int) ≤ 5 * second := by decide
  have hearly : ¬ (env 9).wall < job.scheduledAt - 5 * second :=
    not_lt.mpr ((Int.sub_le_self _ hfive).trans (hcreated.trans (hpulled.trans hbegun)))
  have hready : ∀ t : Time, (env 11).wall ≤ t → ¬ t + 5 * second < (env 11).wall :=
    fun t ht => not_lt.mpr (ht.trans (Int.le_add_of_nonneg_right hfive))
  constructor
  · rintro ⟨htimely, -⟩
    simp only [Bool.and_eq_true, Bool.not_eq_true', decide_eq_false_iff_not] at htimely
    exact not_lt.mp htimely.1.2
  · intro hstart
    have hlate := not_lt.mpr hstart
    refine ⟨?_, if_pos ⟨trivial, trivial, trivial, hearly, hlate,
      hready atConsumer (hgateway.trans hconsumer)⟩⟩
    simp only [Bool.and_eq_true, Bool.not_eq_true', decide_eq_false_iff_not]
    exact ⟨⟨hearly, hlate⟩, hready atGateway hgateway⟩

namespace Sample

open Worker.Sample

/-- The clock of a round up to the call of the engine, and from then on. -/
def clocks (before after : Time) (n : Nat) : Env :=
  { env with wall := if n < 9 then before else after }

/-- What is signed in a round whose engine begins and ends at that time. -/
def resultAt (t : Time) : Result :=
  resultOf config delivery job (.canonical 7) (.canonical 7) (finish t t 204 "" {})

/-- The row the job was made from. -/
def row : Model.LockedJob :=
  { id := 1, resultPublicKey := List.replicate 32 0
    row :=
      { organizationId := 2, environmentId := 3, monitorId := 4, jobType := .scheduled
        state := .published, scheduledAt := 1000 * second, monitorVersion := 1
        workerPoolId := "hosted", snapshotHash := Worker.Sample.hash
        expiresAt := 1060 * second } }

/-- Every body is that result. -/
def primitives (r : Result) : Model.Primitives :=
  { unmarshalResult := fun _ => some { result := r, signature := List.replicate 64 0 }
    verify := fun _ _ _ => true, decryptHeaders := fun _ _ => none, base64 := id }

def delivered : Model.ResultDelivery :=
  { body := [1], attributes := delivery.attributes, receipt := "", receiveCount := 1 }

end Sample

open Sample

/-- The worker finds a job in time at the last moment, the engine begins a nanosecond
later, and neither the gateway nor the consumer takes the result it has signed. -/
theorem signed_result_too_late :
    Signs ((runOne Worker.Sample.library Worker.Sample.config).run handler
        (clocks (1065 * second) (1065 * second + 1)) 0 ⟨none, .empty, []⟩).2.log
        (resultAt (1065 * second + 1)) ∧
      Model.QueueGateway.timely (5 * second) Worker.Sample.delivery
        (resultAt (1065 * second + 1)) (1065 * second + 1) = false ∧
      verifyResult (primitives (resultAt (1065 * second + 1))) delivered.body
        row.resultPublicKey = some (resultAt (1065 * second + 1)) ∧
      Model.verifiedFor (primitives (resultAt (1065 * second + 1))) row
        delivered (1065 * second + 1) = none :=
  ⟨List.mem_of_getElem? (i := 2) rfl, rfl, rfl, rfl⟩

theorem signed_result_timely_iff_sample :
    Model.QueueGateway.timely (5 * second) Worker.Sample.delivery
        (resultAt (1001 * second)) (1002 * second) = true ∧
      Model.verifiedFor (primitives (resultAt (1001 * second))) row
        delivered (1003 * second) = some (resultAt (1001 * second)) := by
  refine (signed_result_timely_iff Worker.Sample.library Worker.Sample.config .empty
    (clocks (1000 * second) (1001 * second)) Worker.Sample.delivery Worker.Sample.job []
    (List.replicate 32 0) (resultAt (1001 * second)) (fun m n hmn => ?_) rfl rfl rfl
    (1000 * second) (by decide) (by decide) (List.mem_of_getElem? (i := 2) rfl)
    Worker.Sample.delivery rfl (1002 * second) (by decide)
    (primitives (resultAt (1001 * second))) row delivered
    ⟨rfl, rfl, rfl, rfl⟩ rfl (1003 * second) (by decide)).mpr (by decide)
  show (if m < 9 then _ else _) ≤ (if n < 9 then _ else _)
  split
  · split
    · exact Int.le_refl _
    · decide
  · rw [if_neg (by omega)]

end WatchTrace.Proofs.Delivery
