import Mathlib.Algebra.Order.BigOperators.Group.List
import WatchTrace.Model.Gateway

/-!
# What the gateway does for whom

Anybody may send the gateway requests, in any order and with any token. What it does
with the queue of a pool is kept in an account: the messages it pulled, and the
extensions, publications and acknowledgements it asked for, with what the queue said.

All three of these start with `action`, and `action_cases` says exactly when a request
passes it. The rest is what each handler adds. A token opens only if the gateway sealed
it, which a pull does, for the pool it was authenticated as and the message it got; so
nobody touches a message that was not handed to its own pool.

A success is another matter. The worker's transport takes any status from 200 to 299
for one, and a handler that writes nothing answers 200.
-/

namespace WatchTrace.Proofs.Gateway

open Tx Model.QueueGateway
open Model hiding Env
open Proc (Script)
open Model.Worker (Delivery)

/-! ## Requests one after another -/

inductive Event
  | pulled (msg : Delivery)
  | extended (msg : Delivery) (duration : Time) (ok : Bool)
  | published (msg : Delivery) (body : Bytes) (ok : Bool)
  | acknowledged (msg : Delivery) (body : Bytes) (ok : Bool)

def note : {β : Type} → Op β → β → List Event
  | _, .now, _ => []
  | _, .acquire _ _ _ _, _ => []
  | _, .releasePull _, _ => []
  | _, .recordDependency _, _ => []
  | _, .nonce, _ => []
  | _, .pull, answer => match answer with
      | .message msg => [.pulled msg]
      | _ => []
  | _, .extend msg duration, ok => [.extended msg duration ok]
  | _, .publishResultAndAcknowledge msg body, ok => [.published msg body ok]
  | _, .acknowledgeExpired msg body, ok => [.acknowledged msg body ok]

theorem recorded_act {β : Type} (env : Env) (o : Op β) (s : Gateway × List Event) :
    (handler.recorded note).act env o s =
      ((act env o s.1).1, (act env o s.1).2, note o (act env o s.1).1 ++ s.2) := rfl

inductive Endpoint
  | pull | extend | result | expired
  deriving DecidableEq

/-- A request, with what happens while it is served. -/
structure Visit where
  endpoint : Endpoint
  request : HttpRequest
  env : Nat → Env

/-- The answer to a request, the gateway it leaves and the account of it. -/
structure Served where
  status : Nat
  message : Option Delivery
  gateway : Gateway
  events : List Event

def Served.of (r : Nat × Gateway × List Event) : Served := ⟨r.1, none, r.2.1, r.2.2⟩

section Model

variable (L : Library) (pools : Table String Pool) (tolerance : Time)

def Visit.served (v : Visit) (g : Gateway) : Served :=
  match v.endpoint with
  | .pull =>
    let r := (pull L pools v.request).run (handler.recorded note) v.env 0 (g, [])
    ⟨r.1.1, r.1.2, r.2.1, r.2.2⟩
  | .extend => .of ((extend L pools tolerance v.request).run (handler.recorded note) v.env 0 (g, []))
  | .result => .of ((result L pools tolerance v.request).run (handler.recorded note) v.env 0 (g, []))
  | .expired =>
    .of ((expired L pools tolerance v.request).run (handler.recorded note) v.env 0 (g, []))

/-- The gateway after some requests. -/
def after (g : Gateway) (visits : List Visit) : Gateway :=
  visits.foldl (fun g v => (v.served L pools tolerance g).gateway) g

end Model

/-! ## Who is let in -/

/-- The request is authenticated as the pool. -/
structure Certified (pools : Table String Pool) (v : Visit) (p : Pool) : Prop where
  certificate : ∃ certificate, v.request.certificate = some certificate ∧
    ¬ (31 * day < certificate.notAfter - certificate.notBefore ∨
      (v.env 0).wall < certificate.notBefore ∨ certificate.notAfter < (v.env 1).wall) ∧
    pools.find certificate.commonName = some p ∧
    p.revokedCertificateSerials.contains certificate.serialNumber = false

/-- The request is one that `action` lets through. -/
structure Passes (L : Library) (pools : Table String Pool) (tolerance : Time) (g : Gateway)
    (v : Visit) (p : Pool) (l : Lease) (asked : ActionRequest) : Prop where
  certified : Certified pools v p
  counted : (g.acquire (v.env 2).wall p (max 0 v.request.contentLength) false false).1 = true
  request : v.request.action = some asked
  lease : openLease L tolerance asked.leaseToken (v.env 3).wall = some l
  pool : l.poolId = p.id

variable {L : Library} {pools : Table String Pool} {tolerance : Time} {g : Gateway} {v : Visit}
variable {p : Pool} {l : Lease} {asked : ActionRequest}

variable {q : Pool}

theorem Certified.unique (h : Certified pools v p) (h' : Certified pools v q) :
    p = q := by
  obtain ⟨c, hc, -, hp, -⟩ := h.certificate
  obtain ⟨c', hc', -, hq, -⟩ := h'.certificate
  rw [hc, Option.some.injEq] at hc'
  rw [← hc', hp, Option.some.injEq] at hq
  exact hq

/-- After `pool`, in either case. -/
theorem pool_then {α : Type} {P : α × Gateway × List Event → Prop}
    {f : Option Pool → Script Op α} (hnone : pools.find "" = none)
    (hrefused : (∀ p, ¬ Certified pools v p) →
      ∀ m, P ((f none).run (handler.recorded note) v.env m (g, [])))
    (hcertified : ∀ p, Certified pools v p →
      P ((f (some p)).run (handler.recorded note) v.env 2 (g, []))) :
    P ((pool pools v.request >>= f).run (handler.recorded note) v.env 0 (g, [])) := by
  rw [pool]
  cases hcertificate : v.request.certificate with
  | none =>
    dsimp only
    rw [hnone]
    refine hrefused (fun p h => ?_) 0
    obtain ⟨c, hc, -⟩ := h.certificate
    rw [hcertificate] at hc
    cases hc
  | some c =>
  have honly : ∀ p, Certified pools v p → ¬ (31 * day < c.notAfter - c.notBefore ∨
      (v.env 0).wall < c.notBefore ∨ c.notAfter < (v.env 1).wall) ∧
      pools.find c.commonName = some p ∧
      p.revokedCertificateSerials.contains c.serialNumber = false := by
    intro p h
    obtain ⟨c', hc', hrest⟩ := h.certificate
    rw [hcertificate, Option.some.injEq] at hc'
    rw [hc']
    exact hrest
  show P (Script.run (handler.recorded note) v.env 2 ((if _ then _ else _) >>= f) (g, []))
  split
  · next hinvalid => exact hrefused (fun p h => (honly p h).1 hinvalid) 2
  next hvalid =>
  cases hfind : pools.find c.commonName with
  | none =>
    refine hrefused (fun p h => ?_) 2
    have hp := (honly p h).2.1
    rw [hfind] at hp
    cases hp
  | some p =>
  dsimp only
  split
  · next hrevoked =>
    refine hrefused (fun q h => ?_) 2
    obtain ⟨-, hq, hnot⟩ := honly q h
    rw [hfind, Option.some.injEq] at hq
    rw [← hq, hrevoked] at hnot
    cases hnot
  · next hnot =>
    rw [Bool.not_eq_true] at hnot
    exact hcertified p ⟨c, hcertificate, hvalid, hfind, hnot⟩

/-- What comes of `action`: a request that does not pass is answered with an error. -/
inductive Acted (L : Library) (pools : Table String Pool) (tolerance : Time) (g : Gateway)
    (v : Visit) : Except Nat (Pool × Delivery × ActionRequest) × Gateway × List Event → Prop
  | refused {status : Nat} {g' : Gateway} (fails : success status = false)
      (stays : ∀ p l asked, ¬ Passes L pools tolerance g v p l asked) :
      Acted L pools tolerance g v (.error status, g', [])
  | passed {p : Pool} {l : Lease} {asked : ActionRequest} {g' : Gateway}
      (passes : Passes L pools tolerance g v p l asked) :
      Acted L pools tolerance g v (.ok (p, l.delivery, asked), g', [])

theorem action_acted (hnone : pools.find "" = none) (g : Gateway) (v : Visit) :
    Acted L pools tolerance g v
      ((action L pools tolerance v.request).run (handler.recorded note) v.env 0 (g, [])) := by
  rw [action]
  refine pool_then hnone (fun hstranger m => ?_) fun p hcertified => ?_
  · exact .refused rfl fun p l asked h => hstranger p h.certified
  · -- whoever passes does so as this pool
    have hpool : ∀ q l asked, Passes L pools tolerance g v q l asked → q = p :=
      fun q l asked h => h.certified.unique hcertified
    show Acted L pools tolerance g v (Script.run (handler.recorded note) v.env 3
      (if (!(g.acquire (v.env 2).wall p (max 0 v.request.contentLength) false false).1) = true
        then _ else _) _)
    split
    · next hcounted =>
      refine .refused rfl fun q l asked h => ?_
      have hq := h.counted
      rw [hpool q l asked h] at hq
      rw [hq] at hcounted
      cases hcounted
    next hcounted =>
    rw [Bool.not_eq_true, Bool.not_eq_false'] at hcounted
    cases hasked : v.request.action with
    | none =>
      refine .refused rfl fun q l asked h => ?_
      have hq := h.request
      rw [hasked] at hq
      cases hq
    | some asked =>
    dsimp only
    rw [Script.run_perform]
    dsimp only [Proc.Handler.recorded, handler, act]
    cases hlease : openLease L tolerance asked.leaseToken (v.env 3).wall with
    | none =>
      refine .refused rfl fun q l asked' h => ?_
      have hq := h.lease
      cases hasked.symm.trans h.request
      rw [hlease] at hq
      cases hq
    | some l =>
    dsimp only
    split
    · next hforeign =>
      refine .refused rfl fun q l' asked' h => hforeign ?_
      have hq := h.pool
      rw [hpool q l' asked' h] at hq
      cases hasked.symm.trans h.request
      cases hlease.symm.trans h.lease
      exact hq
    · next hown =>
      exact .passed ⟨hcertified, hcounted, hasked, hlease, not_not.mp hown⟩

theorem openLease_some {token : String} {now : Time}
    (h : openLease L tolerance token now = some l) :
    L.openToken token = some l ∧ now ≤ l.leaseExpiresAt + tolerance := by
  rw [openLease] at h
  split at h
  · cases h
  next value hopen =>
  split at h
  · cases h
  next hvalid =>
  cases h
  simp only [Bool.or_eq_true, decide_eq_true_eq, not_or] at hvalid
  exact ⟨hopen, not_lt.mp hvalid.2⟩

/-! ## What the handlers do -/

/-- What the queue may be asked for in a request that passes. -/
def Grounds (L : Library) (tolerance : Time) (v : Visit) (p : Pool) (l : Lease) (ok : Bool) :
    Event → Prop
  | .pulled _ => False
  | .extended msg _ said => v.endpoint = .extend ∧ msg = l.delivery ∧ said = ok
  | .published msg body said => v.endpoint = .result ∧ msg = l.delivery ∧ said = ok ∧
      ∃ r, verifyResult L.envelope body p.resultPublic = some r ∧ r.jobId = l.jobId ∧
        r.snapshotHash = l.snapshotHash ∧ r.schemaVersion = l.schemaVersion ∧
        r.workerPoolId = p.id ∧ r.resultKeyId = p.resultKeyId
  | .acknowledged msg body said => v.endpoint = .expired ∧ msg = l.delivery ∧ said = ok ∧
      ∃ ack, L.verifyExpired body p.resultPublic = some ack ∧ ack.jobId = l.jobId ∧
        ack.snapshotHash = l.snapshotHash ∧ ack.schemaVersion = l.schemaVersion ∧
        ack.workerPoolId = p.id ∧ ack.resultKeyId = p.resultKeyId ∧
        ∃ n, l.expiresAt - tolerance ≤ (v.env n).wall

inductive Done (L : Library) (pools : Table String Pool) (tolerance : Time) (g : Gateway)
    (v : Visit) : Nat × Gateway × List Event → Prop
  | refused {status : Nat} {g' : Gateway} (fails : success status = false) :
      Done L pools tolerance g v (status, g', [])
  | silent {p : Pool} {l : Lease} {asked : ActionRequest} {g' : Gateway}
      (endpoint : v.endpoint = .expired) (passes : Passes L pools tolerance g v p l asked)
      (body : asked.body = none) : Done L pools tolerance g v (200, g', [])
  | forwarded {p : Pool} {l : Lease} {asked : ActionRequest} {g' : Gateway} {event : Event}
      {ok : Bool} (passes : Passes L pools tolerance g v p l asked)
      (grounds : Grounds L tolerance v p l ok event) :
      Done L pools tolerance g v (if ok then 204 else 503, g', [event])

variable {g' : Gateway}

theorem forward_done {o : Op Bool} {event : Bool → Event} {m : Nat}
    (hact : ∀ env g, act env o g = (env.accepted, g)) (hnote : ∀ ok, note o ok = [event ok])
    (passes : Passes L pools tolerance g v p l asked)
    (grounds : ∀ ok, Grounds L tolerance v p l ok (event ok)) :
    Done L pools tolerance g v
      ((forward o).run (handler.recorded note) v.env m (g', [])) := by
  have hrun : (forward o).run (handler.recorded note) v.env m (g', []) =
      (if (v.env m).accepted then 204 else 503,
        g'.recordDependency (v.env (m + 1)).wall (v.env m).accepted,
        [event (v.env m).accepted]) := by
    simp only [forward, Proc.perform_bind, Script.run, recorded_act, hact, hnote]
    cases (v.env m).accepted <;> rfl
  rw [hrun]
  exact .forwarded passes (grounds _)

section Handlers

variable (hnone : pools.find "" = none) (g : Gateway)
include hnone

/-- After `action`, in either case. -/
theorem action_then {f : Except Nat (Pool × Delivery × ActionRequest) → Script Op Nat}
    {P : Nat × Gateway × List Event → Prop}
    (hrefused : ∀ status g' m, success status = false →
      (∀ p l asked, ¬ Passes L pools tolerance g v p l asked) →
      P ((f (.error status)).run (handler.recorded note) v.env m (g', [])))
    (hpassed : ∀ p l asked g' m, Passes L pools tolerance g v p l asked →
      P ((f (.ok (p, l.delivery, asked))).run (handler.recorded note) v.env m (g', []))) :
    P ((action L pools tolerance v.request >>= f).run (handler.recorded note) v.env 0 (g, [])) := by
  refine Script.run_bind _ fun m => ?_
  have hacted : Acted L pools tolerance g v _ := action_acted hnone g v
  generalize Script.run _ v.env 0 (action L pools tolerance v.request) (g, []) = r at hacted
  cases hacted with
  | refused fails stays => exact hrefused _ _ m fails stays
  | passed passes => exact hpassed _ _ _ _ m passes

theorem extend_done (hv : v.endpoint = .extend) : Done L pools tolerance g v
      ((extend L pools tolerance v.request).run (handler.recorded note) v.env 0 (g, [])) := by
  rw [extend]
  refine action_then hnone g (fun status g' m fails _ => .refused fails) ?_
  intro p l asked g' m passes
  dsimp only
  split
  · exact .refused rfl
  · exact forward_done (fun _ _ => rfl) (fun _ => rfl) passes fun ok => ⟨hv, rfl, rfl⟩

theorem result_done (hv : v.endpoint = .result) : Done L pools tolerance g v
      ((result L pools tolerance v.request).run (handler.recorded note) v.env 0 (g, [])) := by
  rw [result]
  refine action_then hnone g (fun status g' m fails _ => .refused fails) ?_
  intro p l asked g' m passes
  dsimp only
  split
  · exact .refused rfl
  next body hbody =>
  show Done L pools tolerance g v (Script.run _ v.env (m + 1) (if _ then _ else _) _)
  split
  · exact .refused rfl
  rw [Script.run_perform]
  split
  · exact .refused rfl
  next r hr =>
  obtain ⟨hverified, hadmissible⟩ := Option.filter_eq_some_iff.mp hr
  rw [admissibleResult] at hadmissible
  simp only [Bool.and_eq_true, beq_iff_eq] at hadmissible
  obtain ⟨⟨⟨⟨⟨⟨⟨hschema, -⟩, -⟩, hjob⟩, hhash⟩, hpool⟩, hkey⟩, -⟩ := hadmissible
  exact forward_done (fun _ _ => rfl) (fun _ => rfl) passes fun ok =>
    ⟨hv, rfl, rfl, r, hverified, hjob, hhash, hschema, hpool, hkey⟩

theorem expired_done (hv : v.endpoint = .expired) : Done L pools tolerance g v
      ((expired L pools tolerance v.request).run (handler.recorded note) v.env 0 (g, [])) := by
  rw [expired]
  refine action_then hnone g (fun status g' m fails _ => .refused fails) ?_
  intro p l asked g' m passes
  dsimp only
  split
  · next hbody => exact .silent hv passes hbody
  next body hbody =>
  rw [Script.run_perform]
  split
  · exact .refused rfl
  next ack hack =>
  obtain ⟨hverified, hadmissible⟩ := Option.filter_eq_some_iff.mp hack
  rw [admissibleExpiry] at hadmissible
  simp only [Bool.and_eq_true, beq_iff_eq, Bool.not_eq_true',
    decide_eq_false_iff_not] at hadmissible
  obtain ⟨⟨⟨⟨⟨⟨⟨⟨⟨hschema, -⟩, -⟩, hjob⟩, hhash⟩, hpool⟩, hkey⟩, hlate⟩, -⟩, -⟩ :=
    hadmissible
  exact forward_done (fun _ _ => rfl) (fun _ => rfl) passes fun ok =>
    ⟨hv, rfl, rfl, ack, hverified, hjob, hhash, hschema, hpool, hkey, m, not_lt.mp hlate⟩

/-- An expired job reported with a body that does not decode. -/
theorem expired_silent (hv : v.endpoint = .expired) (passes : Passes L pools tolerance g v p l asked)
    (hbody : asked.body = none) :
    (v.served L pools tolerance g).status = 200 ∧ (v.served L pools tolerance g).events = [] := by
  have hrun : ∃ g', (expired L pools tolerance v.request).run (handler.recorded note) v.env 0
      (g, []) = (200, g', []) := by
    rw [expired]
    refine action_then (P := fun r => ∃ g', r = (200, g', [])) hnone g ?_ ?_
    · exact fun status g' m _ stays => absurd passes (stays p l asked)
    · intro p' l' asked' g' m passes'
      cases passes.request.symm.trans passes'.request
      dsimp only
      rw [hbody]
      exact ⟨g', rfl⟩
  obtain ⟨g', hrun⟩ := hrun
  rw [Visit.served, hv]
  dsimp only [Served.of]
  rw [hrun]
  exact ⟨rfl, rfl⟩

/-- The three endpoints that take a token. -/
theorem served_done (hv : v.endpoint ≠ .pull) :
    Done L pools tolerance g v ((v.served L pools tolerance g).status,
      (v.served L pools tolerance g).gateway, (v.served L pools tolerance g).events) := by
  rw [Visit.served]
  cases hendpoint : v.endpoint with
  | pull => exact absurd hendpoint hv
  | extend => exact extend_done hnone g hendpoint
  | result => exact result_done hnone g hendpoint
  | expired => exact expired_done hnone g hendpoint

end Handlers

/-! ## A gateway as `New` makes it -/

structure Normal (p : Pool) : Prop where
  id : p.id ≠ ""
  requests : 1 ≤ p.maxRequestsPerMinute
  bytes : 1024 ≤ p.maxBytesPerMinute
  pulls : 1 ≤ p.maxConcurrentPulls
  results : 1 ≤ p.maxResultsPerMinute

structure Configured (g : Gateway) : Prop where
  pools : ∀ id p, g.pools.find id = some p → p.id = id ∧ Normal p
  limits : ∀ id, g.limits.find id = none ∨ g.limits.find id = some {}

theorem normalize_some (h : p.normalize = some q) : Normal q := by
  rw [Pool.normalize, Option.ite_none_left_eq_some, Option.some.injEq] at h
  obtain ⟨hvalid, rfl⟩ := h
  simp only [Bool.or_eq_true, beq_iff_eq, decide_eq_true_eq, not_or, not_lt] at hvalid
  obtain ⟨⟨⟨⟨⟨⟨⟨⟨⟨hid, -⟩, -⟩, -⟩, -⟩, -⟩, hrequests⟩, hbytes⟩, hpulls⟩, hresults⟩ := hvalid
  exact ⟨hid, hrequests, hbytes, hpulls, hresults⟩

variable {ps : List Pool}

theorem Configured.foldlM (h : Configured g)
    (hfold : ps.foldlM (fun g p => p.normalize.map fun p =>
      { g with pools := g.pools.put p.id p, limits := g.limits.put p.id {} }) g = some g') :
    Configured g' := by
  induction ps generalizing g with
  | nil =>
    cases hfold
    exact h
  | cons p ps ih =>
    rw [List.foldlM_cons] at hfold
    obtain ⟨g₁, hg₁, hrest⟩ := Option.bind_eq_some_iff.mp hfold
    obtain ⟨q, hq, rfl⟩ := Option.map_eq_some_iff.mp hg₁
    refine ih ⟨fun id r hr => ?_, fun id => ?_⟩ hrest
    · dsimp only at hr
      rw [Table.find_put_eq] at hr
      split at hr
      · next hid =>
        cases hr
        exact ⟨hid.symm, normalize_some hq⟩
      · exact h.pools id r hr
    · dsimp only
      rw [Table.find_put_eq]
      split
      · exact .inr rfl
      · exact h.limits id

theorem configured {key : Bytes} (h : newGateway ps key tolerance = some g) : Configured g := by
  rw [newGateway] at h
  split at h
  · cases h
  · refine Configured.foldlM ⟨fun id p hp => ?_, fun id => .inl (Table.find_empty id)⟩ h
    rw [Table.find_empty] at hp
    cases hp

theorem Configured.nobody (h : Configured g) : g.pools.find "" = none := by
  cases hfind : g.pools.find "" with
  | none => rfl
  | some p => exact absurd (h.pools "" p hfind).1 (h.pools "" p hfind).2.id

/-- The lease a pull seals. -/
def leaseOf (p : Pool) (msg : Delivery) (now : Time) : Lease :=
  { poolId := p.id, receipt := msg.leaseToken, jobId := msg.attributes.jobId
    snapshotHash := msg.attributes.snapshotHash, schemaVersion := msg.attributes.schemaVersion
    expiresAt := msg.attributes.expiresAt, leaseExpiresAt := now + 2 * minute }

/-- A success means that the queue did what was asked, unless the request reports an
expired job with a body that is not base64. -/
theorem success_means_done_iff (ps : List Pool) (key : Bytes) (tolerance : Time)
    (configuration : Gateway) (hnew : newGateway ps key tolerance = some configuration)
    (L : Library) (g : Gateway) (v : Visit) (hendpoint : v.endpoint ≠ .pull) :
    (success (v.served L configuration.pools tolerance g).status = true →
        ∃ p l asked, Passes L configuration.pools tolerance g v p l asked ∧
          ∃ event ∈ (v.served L configuration.pools tolerance g).events,
            Grounds L tolerance v p l true event) ↔
      ¬ (v.endpoint = .expired ∧ ∃ p l asked,
        Passes L configuration.pools tolerance g v p l asked ∧ asked.body = none) := by
  have hnone := (configured hnew).nobody
  constructor
  · rintro hdone ⟨hexpired, p, l, asked, passes, hbody⟩
    obtain ⟨hstatus, hevents⟩ := expired_silent hnone g hexpired passes hbody
    rw [hstatus, hevents] at hdone
    obtain ⟨-, -, -, -, event, hevent, -⟩ := hdone rfl
    cases hevent
  · intro hsilent hsuccess
    have hdone : Done L configuration.pools tolerance g v _ := served_done hnone g hendpoint
    revert hsuccess
    generalize (v.served L configuration.pools tolerance g).status = status at *
    generalize (v.served L configuration.pools tolerance g).events = events at *
    intro hsuccess
    cases hdone with
    | refused fails => rw [fails] at hsuccess; cases hsuccess
    | silent endpoint passes body => exact absurd ⟨endpoint, _, _, _, passes, body⟩ hsilent
    | @forwarded p l asked g' event ok passes grounds =>
    cases ok with
    | false => cases hsuccess
    | true => exact ⟨p, l, asked, passes, event, List.mem_singleton_self _, grounds⟩

namespace Sample

def pool : Pool := { id := "hosted", resultKeyId := "k", resultPublic := List.replicate 32 0 }

def normal : Pool :=
  { pool with
    schemaMin := 1, schemaMax := 2, maxRequestsPerMinute := 120
    maxBytesPerMinute := 8 * 1024 * 1024, maxConcurrentPulls := 2, maxResultsPerMinute := 120 }

def gateway : Gateway :=
  { pools := Table.empty.put "hosted" normal, tolerance := 5 * second
    limits := Table.empty.put "hosted" {}, dependencyUnavailableUntil := none }

def message : Delivery :=
  { body := [], leaseToken := "receipt", receiveCount := 1
    attributes :=
      { schemaVersion := 2, jobId := .canonical 1, workerPoolId := "hosted", snapshotHash := ""
        expiresAt := 60 * second, resultId := .foreign "", resultKeyId := "", platformKeyId := ""
        workerEncryptionKeyId := "" } }

def env : Env :=
  { wall := 70 * second, nonce := some 0, pulled := .message message, accepted := true }

def lease : Lease := leaseOf normal message (70 * second)

def library : Library :=
  { envelope :=
      { unmarshalResult := fun _ => none, verify := fun _ _ _ => false
        decryptHeaders := fun _ _ => none, base64 := id }
    verifyExpired := fun _ _ => none
    openToken := fun token => if token = "token" then some lease else none
    sealToken := fun _ l => if l = lease then "token" else "" }

/-- A request of the pool's worker, which has a token unless it pulls. -/
def visit (endpoint : Endpoint) (body : Option Bytes) : Visit :=
  { endpoint, env := fun _ => env
    request :=
      { contentLength := 100
        certificate := some
          { commonName := "hosted", notBefore := 0, notAfter := day, serialNumber := "1" }
        action := if endpoint = .pull then none
          else some { leaseToken := "token", body, seconds := 30 } } }

theorem newGateway_pool : newGateway [pool] (List.replicate 32 0) (5 * second) = some gateway := rfl

end Sample

open Sample

/-- A worker that reports an expired job with a body that is not base64 is told that all
went well. -/
theorem silent_success : newGateway [pool] (List.replicate 32 0) (5 * second) = some gateway ∧
      success ((visit .expired none).served library gateway.pools
        (5 * second) gateway).status = true ∧
      ((visit .expired none).served library gateway.pools (5 * second) gateway).events = [] :=
  ⟨newGateway_pool, rfl, rfl⟩

theorem success_means_done_sample : ∃ p l asked, Passes library gateway.pools (5 * second) gateway
      (visit .extend none) p l asked ∧
      ∃ event ∈ ((visit .extend none).served library gateway.pools (5 * second) gateway).events,
        Grounds library (5 * second) (visit .extend none) p l true event :=
  (success_means_done_iff _ _ _ _ newGateway_pool library gateway (visit .extend none) (by decide)).mpr
    (fun h => nomatch h.1) rfl

/-! ## Tokens -/

inductive Pulled (L : Library) (pools : Table String Pool) (v : Visit) :
    (Nat × Option Delivery) × Gateway × List Event → Prop
  | nothing {status : Nat} {g' : Gateway} {events : List Event}
      (pulls : ∀ e ∈ events, ∃ msg, e = .pulled msg) :
      Pulled L pools v ((status, none), g', events)
  | message {p : Pool} {msg : Delivery} {nonce : Nat} {now : Time} {g' : Gateway}
      (certified : Certified pools v p) :
      Pulled L pools v ((200, some { msg with leaseToken := L.sealToken nonce (leaseOf p msg now) }),
        g', [.pulled msg])

theorem pull_pulled (hnone : pools.find "" = none) (g : Gateway) :
    Pulled L pools v ((pull L pools v.request).run (handler.recorded note) v.env 0 (g, [])) := by
  rw [pull]
  have hempty : ∀ status g', Pulled L pools v ((status, none), g', []) :=
    fun status g' => .nothing fun e he => absurd he List.not_mem_nil
  refine pool_then hnone (fun _ m => hempty _ _) fun p hcertified => ?_
  show Pulled L pools v (Script.run _ v.env 3 (if _ then _ else _) _)
  split
  · exact hempty _ _
  simp only [Proc.perform_bind, Script.run, recorded_act, act, note, List.append_nil,
    List.nil_append]
  cases (v.env 3).pulled with
  | noMessage | failed => exact hempty _ _
  | message msg =>
  simp only [leased, Proc.perform_bind, Script.op_bind, Script.run, recorded_act, act, note,
    List.nil_append]
  cases (v.env 6).nonce with
  | none => exact .nothing fun e he => ⟨msg, List.mem_singleton.mp he⟩
  | some nonce => exact .message hcertified

/-- What is known of an answer with a message. -/
theorem served_message {d : Delivery} (hnone : pools.find "" = none)
    (h : (v.served L pools tolerance g).message = some d) :
    v.endpoint = .pull ∧ ∃ p msg nonce now, Certified pools v p ∧
      .pulled msg ∈ (v.served L pools tolerance g).events ∧
      d.leaseToken = L.sealToken nonce (leaseOf p msg now) := by
  rw [Visit.served] at h ⊢
  cases hendpoint : v.endpoint with
  | extend | result | expired => rw [hendpoint] at h; cases h
  | pull =>
  rw [hendpoint] at h
  have hpulled : Pulled L pools v _ := pull_pulled hnone g
  dsimp only at h ⊢
  generalize Script.run _ v.env 0 (pull L pools v.request) (g, []) = r at hpulled h ⊢
  cases hpulled with
  | nothing pulls => cases h
  | @message p msg nonce now g' certified =>
    cases h
    exact ⟨rfl, p, msg, nonce, now, certified, List.mem_singleton_self _, rfl⟩

section Authority

variable (L : Library) (g : Gateway) (visits : List Visit)

/-- The `n`-th of some requests is served. -/
def servedAt (n : Nat) (v : Visit) : Served :=
  v.served L g.pools g.tolerance (after L g.pools g.tolerance g (visits.take n))

/-- Whoever brings a token that opens has it from an earlier pull. -/
def Unforged : Prop :=
  ∀ n v asked l, visits[n]? = some v → v.request.action = some asked →
    L.openToken asked.leaseToken = some l →
    ∃ m < n, ∃ u d, visits[m]? = some u ∧ (servedAt L g visits m u).message = some d ∧
      d.leaseToken = asked.leaseToken

end Authority

/-- What the gateway asks a queue for, it asks for a pool, with a token that has not
ended and that an earlier pull of that pool got for that message. -/
theorem gateway_authority (ps : List Pool) (key : Bytes) (tolerance : Time) (g : Gateway)
    (hnew : newGateway ps key tolerance = some g) (L : Library)
    (hopens : ∀ nonce l l', L.openToken (L.sealToken nonce l) = some l' → l' = l)
    (visits : List Visit) (hunforged : Unforged L g visits) (n : Nat) (v : Visit)
    (hv : visits[n]? = some v) (e : Event) (he : e ∈ (servedAt L g visits n v).events) :
    (∃ msg, e = .pulled msg) ∨
      ∃ p l asked ok, Certified g.pools v p ∧ v.request.action = some asked ∧
        L.openToken asked.leaseToken = some l ∧
        (v.env 3).wall ≤ l.leaseExpiresAt + g.tolerance ∧ Grounds L g.tolerance v p l ok e ∧
        ∃ m < n, ∃ u msg now, visits[m]? = some u ∧ u.endpoint = .pull ∧ Certified g.pools u p ∧
          .pulled msg ∈ (servedAt L g visits m u).events ∧ l = leaseOf p msg now := by
  have hconfigured := configured hnew
  have hnone := hconfigured.nobody
  -- a pool is known by its identifier
  have hsame : ∀ u q p, Certified g.pools u q → Certified g.pools v p → p.id = q.id → p = q := by
    intro u q p hq hp hid
    obtain ⟨c, -, -, hc, -⟩ := hq.certificate
    obtain ⟨c', -, -, hc', -⟩ := hp.certificate
    rw [← (hconfigured.pools _ _ hc).1] at hc
    rw [← (hconfigured.pools _ _ hc').1, hid, hc, Option.some.injEq] at hc'
    exact hc'.symm
  by_cases hpull : v.endpoint = .pull
  · rw [servedAt, Visit.served, hpull] at he
    have hpulled : Pulled L g.pools v _ :=
      pull_pulled hnone (after L g.pools g.tolerance g (visits.take n))
    dsimp only at he
    generalize Script.run _ v.env 0 (pull L g.pools v.request) _ = r at hpulled he
    cases hpulled with
    | nothing pulls => exact .inl (pulls e he)
    | message certified => exact .inl ⟨_, List.mem_singleton.mp he⟩
  have hdone : Done L g.pools g.tolerance (after L g.pools g.tolerance g (visits.take n)) v _ :=
    served_done hnone _ hpull
  rw [servedAt] at he
  generalize Visit.served L g.pools g.tolerance v _ = r at hdone he
  obtain ⟨status, message, g', events⟩ := r
  cases hdone with
  | refused | silent => cases he
  | @forwarded p l asked g' event ok passes grounds =>
  rw [List.mem_singleton.mp he]
  obtain ⟨hopen, hlive⟩ := openLease_some passes.lease
  obtain ⟨m, hm, u, d, hu, hmessage, htoken⟩ := hunforged n v asked l hv passes.request hopen
  obtain ⟨hendpoint, q, msg, nonce, now, hq, hpulled, hsealed⟩ :=
    served_message hnone hmessage
  rw [← htoken, hsealed] at hopen
  have hlease := hopens nonce _ l hopen
  have hpq : p = q := by
    refine hsame u q p hq passes.certified ?_
    rw [← passes.pool, hlease]
    rfl
  subst hpq
  rw [← hsealed, htoken] at hopen
  exact .inr ⟨p, l, asked, ok, passes.certified, passes.request, hopen, hlive, grounds,
    m, hm, u, msg, now, hu, hendpoint, hq, hpulled, hlease⟩

theorem gateway_authority_sample : ∃ p l asked ok, Certified gateway.pools (visit .extend none) p ∧
      (visit .extend none).request.action = some asked ∧
      library.openToken asked.leaseToken = some l ∧
      ((visit .extend none).env 3).wall ≤ l.leaseExpiresAt + gateway.tolerance ∧
      Grounds library gateway.tolerance (visit .extend none) p l ok
        (.extended lease.delivery (30 * second) true) := by
  have hunforged : Unforged library gateway
      [visit .pull none, visit .extend none] := by
    intro n v asked l hv hasked hopen
    match n with
    | 0 => cases hv; cases hasked
    | 1 =>
      cases hv
      cases hasked
      exact ⟨0, by decide, visit .pull none, _, rfl, rfl, rfl⟩
    | n + 2 => cases hv
  have hopens : ∀ nonce l l', library.openToken (library.sealToken nonce l) =
      some l' → l' = l := by
    intro nonce l l' h
    by_cases hl : l = lease
    · subst hl
      cases h
      rfl
    · dsimp only [library] at h
      rw [if_neg hl] at h
      cases h
  rcases gateway_authority _ _ _ _ newGateway_pool library hopens _ hunforged 1 (visit .extend none) rfl
    (.extended lease.delivery (30 * second) true) (List.mem_singleton.mpr rfl) with
    ⟨msg, h⟩ | ⟨p, l, asked, ok, h⟩
  · cases h
  · exact ⟨p, l, asked, ok, h.1, h.2.1, h.2.2.1, h.2.2.2.1, h.2.2.2.2.1⟩

/-! ## Limits -/

/-- The calls of `acquire` and `releasePull` the handlers make. -/
inductive Call
  | pull (poolId : String)
  | action (poolId : String) (contentLength : Int)
  | result (poolId : String) (length : Nat)
  | release (poolId : String)

structure Admission where
  poolId : String
  minute : Time
  bytes : Int
  pull : Bool
  result : Bool

/-- A gateway, the calls it has admitted and the pulls it has released. -/
structure Book where
  gateway : Gateway
  admitted : List Admission
  released : List String

def Book.acquire (b : Book) (now : Time) (poolId : String) (bytes : Int) (pull result : Bool) :
    Book :=
  match b.gateway.pools.find poolId with
  | none => b
  | some p =>
    match b.gateway.acquire now p bytes pull result with
    | (true, g) => { b with
        gateway := g, admitted := ⟨poolId, now - now % minute, bytes, pull, result⟩ :: b.admitted }
    | (false, g) => { b with gateway := g }

def Book.call (b : Book) (now : Time) : Call → Book
  | .pull poolId => b.acquire now poolId 0 true false
  | .action poolId contentLength => b.acquire now poolId (max 0 contentLength) false false
  | .result poolId length => b.acquire now poolId length false true
  | .release poolId =>
    { b with gateway := b.gateway.releasePull poolId, released := poolId :: b.released }

def Book.calls (b : Book) (cs : List (Time × Call)) : Book :=
  cs.foldl (fun b c => b.call c.1 c.2) b

/-- What is counted in a minute. -/
inductive Meter
  | requests | bytes | results

def Meter.weight : Meter → Admission → Int
  | requests, _ => 1
  | bytes, a => a.bytes
  | results, a => if a.result then 1 else 0

def Meter.count : Meter → PoolLimit → Int
  | requests, l => l.requests
  | bytes, l => l.bytes
  | results, l => l.results

def Meter.max : Meter → Pool → Int
  | requests, p => p.maxRequestsPerMinute
  | bytes, p => p.maxBytesPerMinute
  | results, p => p.maxResultsPerMinute

/-- What was admitted for a pool in a minute. -/
def Meter.total (k : Meter) (poolId : String) (minute : Time) (as : List Admission) : Int :=
  ((as.filter fun a => a.poolId == poolId && a.minute == minute).map k.weight).sum

/-- The pulls of a pool that are admitted and not released. -/
def Book.inFlight (b : Book) (poolId : String) : Int :=
  (b.admitted.countP fun a => a.poolId == poolId && a.pull) - b.released.count poolId

def limitOf (g : Gateway) (poolId : String) : PoolLimit := (g.limits.find poolId).getD {}

/-- The counters of the minute. -/
def current (g : Gateway) (poolId : String) (now : Time) : PoolLimit :=
  (limitOf g poolId).inMinute (now - now % minute)

/-- The counters stay in an `int64`, and the clock does not go back to an earlier
minute, nor to the zero time. -/
structure Counts (g : Gateway) (now : Time) (poolId : String) (bytes : Int) : Prop where
  requests : (current g poolId now).requests + 1 < 2 ^ 63
  bytes : (current g poolId now).bytes + bytes < 2 ^ 63
  results : (current g poolId now).results + 1 < 2 ^ 63
  nonzero : now - now % minute ≠ zeroTime
  forward : (limitOf g poolId).window ≠ zeroTime → (limitOf g poolId).window ≤ now - now % minute

/-- A pull is released once. -/
def Proper (b : Book) : Call → Prop
  | .release poolId => 0 < b.inFlight poolId
  | _ => True

def Fits (g : Gateway) (now : Time) : Call → Prop
  | .pull poolId => Counts g now poolId 0
  | .action poolId contentLength => Counts g now poolId (max 0 contentLength)
  | .result poolId length => Counts g now poolId length
  | .release _ => True

/-- The counters of a pool say what was admitted for it. -/
structure Kept (limit : PoolLimit) (as : List Admission) (flying : Int) (poolId : String)
    (p : Pool) : Prop where
  past : ∀ a ∈ as, a.poolId = poolId →
    limit.window ≠ zeroTime ∧ a.minute ≤ limit.window ∧ 0 ≤ a.bytes
  counted : ∀ k : Meter, k.count limit = k.total poolId limit.window as
  within : ∀ (k : Meter) minute, k.total poolId minute as ≤ k.max p
  active : limit.activePull = flying
  pulls : flying ≤ p.maxConcurrentPulls

theorem Meter.total_cons (k : Meter) (poolId : String) (minute : Time) (a : Admission)
    (as : List Admission) : k.total poolId minute (a :: as) =
      (if a.poolId = poolId ∧ a.minute = minute then k.weight a else 0) +
        k.total poolId minute as := by
  by_cases h : a.poolId = poolId ∧ a.minute = minute
  · simp [total, h]
  · rw [if_neg h, Int.zero_add, total, total, List.filter_cons_of_neg]
    simpa using h

variable {k : Meter} {poolId : String} {as : List Admission}

theorem Meter.total_eq_zero {minute : Time}
    (h : ∀ a ∈ as, a.poolId = poolId → a.minute ≠ minute) : k.total poolId minute as = 0 := by
  rw [total, List.filter_eq_nil_iff.mpr]
  · rfl
  · intro a ha
    simpa using h a ha

theorem Meter.total_nonneg {minute : Time} (h : ∀ a ∈ as, a.poolId = poolId → 0 ≤ a.bytes) :
    0 ≤ k.total poolId minute as := by
  refine List.sum_nonneg fun w hw => ?_
  obtain ⟨a, ha, rfl⟩ := List.mem_map.mp hw
  obtain ⟨ha, hid⟩ := List.mem_filter.mp ha
  simp only [Bool.and_eq_true, beq_iff_eq] at hid
  cases k with
  | requests => exact Int.one_nonneg
  | bytes => exact h a ha hid.1
  | results =>
    rw [weight]
    split <;> decide

variable {limit : PoolLimit} {as : List Admission} {flying bytes : Int} {poolId : String}
variable {now : Time} {isPull isResult : Bool}

/-- Another minute begins. -/
theorem Kept.inMinute (h : Kept limit as flying poolId p)
    (hforward : limit.window ≠ zeroTime → limit.window ≤ now) (hnonzero : now ≠ zeroTime) :
    Kept (limit.inMinute now) as flying poolId p ∧ (limit.inMinute now).window = now := by
  rw [PoolLimit.inMinute]
  split
  · next hnew =>
    have hbefore : ∀ a ∈ as, a.poolId = poolId → a.minute < now := by
      intro a ha hid
      obtain ⟨hwindow, hminute, -⟩ := h.past a ha hid
      have hother := hnew.resolve_left hwindow
      exact lt_of_le_of_lt hminute (lt_of_le_of_ne (hforward hwindow) hother)
    have htotal : ∀ k : Meter, k.total poolId now as = 0 := fun k =>
      Meter.total_eq_zero fun a ha hid => ne_of_lt (hbefore a ha hid)
    refine ⟨⟨fun a ha hid => ?_, fun k => ?_, h.within, h.active, h.pulls⟩, rfl⟩
    · exact ⟨hnonzero, le_of_lt (hbefore a ha hid), (h.past a ha hid).2.2⟩
    · rw [htotal]
      cases k <;> rfl
  · next hsame =>
    rw [not_or, not_not] at hsame
    exact ⟨h, hsame.2⟩

/-- The counters after a call that is admitted. -/
def charged (limit : PoolLimit) (bytes : Int) (isPull isResult : Bool) : PoolLimit :=
  { limit with
    requests := int64 (limit.requests + 1), bytes := int64 (limit.bytes + bytes)
    activePull := if isPull then limit.activePull + 1 else limit.activePull
    results := if isResult then int64 (limit.results + 1) else limit.results }

/-- There is room for the call. -/
structure Room (limit : PoolLimit) (p : Pool) (bytes : Int) (isPull isResult : Bool) : Prop where
  requests : int64 (limit.requests + 1) ≤ p.maxRequestsPerMinute
  bytes : int64 (limit.bytes + bytes) ≤ p.maxBytesPerMinute
  pulls : isPull = true → limit.activePull < p.maxConcurrentPulls
  results : isResult = true → int64 (limit.results + 1) ≤ p.maxResultsPerMinute

theorem int64_eq {x : Int} (h : 0 ≤ x) (h' : x < 2 ^ 63) : int64 x = x :=
  Int.bmod_eq_of_le (by omega) (by omega)

theorem Kept.charge (h : Kept limit as flying poolId p) (hnonzero : limit.window ≠ zeroTime)
    (hbytes : 0 ≤ bytes) (hroom : Room limit p bytes isPull isResult)
    (hrange : limit.requests + 1 < 2 ^ 63 ∧ limit.bytes + bytes < 2 ^ 63 ∧
      limit.results + 1 < 2 ^ 63) :
    Kept (charged limit bytes isPull isResult)
      (⟨poolId, limit.window, bytes, isPull, isResult⟩ :: as)
      (if isPull then flying + 1 else flying) poolId p := by
  have hnonneg : ∀ k : Meter, 0 ≤ k.count limit := by
    intro k
    rw [h.counted k]
    exact Meter.total_nonneg fun a ha hid => (h.past a ha hid).2.2
  have hrequests := int64_eq (Int.add_nonneg (hnonneg .requests) Int.one_nonneg) hrange.1
  have hsum := int64_eq (Int.add_nonneg (hnonneg .bytes) hbytes) hrange.2.1
  have hresults := int64_eq (Int.add_nonneg (hnonneg .results) Int.one_nonneg) hrange.2.2
  -- each counter has grown by what the call weighs, and is within its bound
  have hcount : ∀ k : Meter, k.count (charged limit bytes isPull isResult) =
      k.weight ⟨poolId, limit.window, bytes, isPull, isResult⟩ + k.count limit := by
    intro k
    cases k with
    | requests => exact hrequests.trans (Int.add_comm _ _)
    | bytes => exact hsum.trans (Int.add_comm _ _)
    | results =>
    cases isResult with
    | false => exact (Int.zero_add _).symm
    | true => exact hresults.trans (Int.add_comm _ _)
  have hmax : ∀ k : Meter, k.count (charged limit bytes isPull isResult) ≤ k.max p := by
    intro k
    cases k with
    | requests => exact hroom.requests
    | bytes => exact hroom.bytes
    | results =>
    cases isResult with
    | false =>
      have hold := h.within .results limit.window
      rw [← h.counted] at hold
      exact hold
    | true => exact hroom.results rfl
  refine ⟨fun a ha hid => ?_, fun k => ?_, fun k m => ?_, ?_, ?_⟩
  · rcases List.mem_cons.mp ha with rfl | ha
    · exact ⟨hnonzero, le_refl _, hbytes⟩
    · exact h.past a ha hid
  · rw [hcount, Meter.total_cons, if_pos ⟨rfl, rfl⟩, h.counted]
    rfl
  · rw [Meter.total_cons]
    by_cases hm : limit.window = m
    · rw [if_pos ⟨rfl, hm⟩, ← hm, ← h.counted, ← hcount]
      exact hmax k
    · rw [if_neg fun hc => hm hc.2, Int.zero_add]
      exact h.within k m
  · cases isPull with
    | false => exact h.active
    | true => exact congrArg (· + 1) h.active
  · cases isPull with
    | false => exact h.pulls
    | true => exact h.active ▸ hroom.pulls rfl

theorem acquire_cases (g : Gateway) (now : Time) (p : Pool) (bytes : Int) (isPull isResult : Bool) :
    g.acquire now p bytes isPull isResult =
        (false, { g with limits := g.limits.put p.id (current g p.id now) }) ∨
      (g.acquire now p bytes isPull isResult = (true, { g with
          limits := g.limits.put p.id (charged (current g p.id now) bytes isPull isResult) }) ∧
        Room (current g p.id now) p bytes isPull isResult) := by
  rw [Gateway.acquire]
  split
  · exact .inl rfl
  next hroom =>
  simp only [Bool.or_eq_true, Bool.and_eq_true, decide_eq_true_eq, not_or, not_and, not_lt,
    not_le] at hroom
  exact .inr ⟨rfl, hroom.1.1.1, hroom.1.1.2, hroom.1.2, hroom.2⟩

/-- The invariant of a run. -/
structure Held (pools : Table String Pool) (b : Book) : Prop where
  same : b.gateway.pools = pools
  keyed : ∀ id p, pools.find id = some p → p.id = id
  kept : ∀ id p, pools.find id = some p →
    Kept (limitOf b.gateway id) b.admitted (b.inFlight id) id p

theorem Kept.other {a : Admission} (h : Kept limit as flying poolId p) (ha : a.poolId ≠ poolId) :
    Kept limit (a :: as) flying poolId p := by
  have htotal : ∀ (k : Meter) m, k.total poolId m (a :: as) = k.total poolId m as := by
    intro k m
    rw [Meter.total_cons, if_neg fun hc => ha hc.1, Int.zero_add]
  refine ⟨fun a' ha' hid => ?_, fun k => ?_, fun k m => ?_, h.active, h.pulls⟩
  · rcases List.mem_cons.mp ha' with rfl | ha'
    · exact absurd hid ha
    · exact h.past a' ha' hid
  · rw [htotal]
    exact h.counted k
  · rw [htotal]
    exact h.within k m

theorem inFlight_admit (b : Book) (g : Gateway) (poolId id : String) (m : Time) :
    Book.inFlight ⟨g, ⟨poolId, m, bytes, isPull, isResult⟩ :: b.admitted, b.released⟩ id =
      if isPull = true ∧ poolId = id then b.inFlight id + 1 else b.inFlight id := by
  rw [Book.inFlight, Book.inFlight, List.countP_cons]
  cases isPull <;> by_cases hid : poolId = id <;> simp [hid]
  omega

variable {b : Book}

theorem Held.acquire (h : Held pools b) (hbytes : 0 ≤ bytes)
    (hcounts : Counts b.gateway now poolId bytes) :
    Held pools (b.acquire now poolId bytes isPull isResult) := by
  rw [Book.acquire]
  rw [h.same]
  cases hfind : pools.find poolId with
  | none => exact h
  | some p =>
  obtain ⟨hturned, hwindow⟩ := (h.kept poolId p hfind).inMinute hcounts.forward hcounts.nonzero
  have hid := h.keyed poolId p hfind
  dsimp only
  rcases acquire_cases b.gateway now p bytes isPull isResult with hrefused | ⟨hadmitted, hroom⟩
  · rw [hrefused, hid]
    refine ⟨h.same, h.keyed, fun id q hq => ?_⟩
    dsimp only [limitOf]
    rw [Table.find_put_eq]
    split
    · next heq =>
      subst heq
      cases hfind.symm.trans hq
      exact hturned
    · exact h.kept id q hq
  · rw [hid] at hroom hadmitted
    rw [hadmitted]
    refine ⟨h.same, h.keyed, fun id q hq => ?_⟩
    dsimp only [limitOf]
    rw [Table.find_put_eq, inFlight_admit]
    split
    · next heq =>
      subst heq
      cases hfind.symm.trans hq
      have hnonzero : (current b.gateway id now).window ≠ zeroTime := by
        rw [current, hwindow]
        exact hcounts.nonzero
      have hcharged := hturned.charge hnonzero hbytes hroom
        ⟨hcounts.requests, hcounts.bytes, hcounts.results⟩
      rw [hwindow] at hcharged
      simpa [current] using hcharged
    · next hne =>
      rw [if_neg fun hc => hne hc.2.symm]
      exact (h.kept id q hq).other (Ne.symm hne)

theorem inFlight_release (b : Book) (g : Gateway) (id : String) :
    Book.inFlight ⟨g, b.admitted, poolId :: b.released⟩ id =
      if id = poolId then b.inFlight id - 1 else b.inFlight id := by
  rw [Book.inFlight, Book.inFlight, List.count_cons]
  by_cases hid : id = poolId
  · simp only [hid, beq_self_eq_true, if_true]
    omega
  · simp [hid, Ne.symm hid]

theorem releasePull_pools (g : Gateway) (poolId : String) :
    (g.releasePull poolId).pools = g.pools := by
  rw [Gateway.releasePull]
  cases g.limits.find poolId with
  | none => rfl
  | some limit =>
    dsimp only
    split <;> rfl

theorem limitOf_releasePull (g : Gateway) (poolId id : String) :
    limitOf (g.releasePull poolId) id = if id = poolId ∧ 0 < (limitOf g id).activePull then
      { limitOf g id with activePull := (limitOf g id).activePull - 1 }
    else limitOf g id := by
  rw [Gateway.releasePull]
  by_cases hid : id = poolId
  · subst hid
    cases hfind : g.limits.find id with
    | none => simp [limitOf, hfind]
    | some limit => by_cases hactive : 0 < limit.activePull <;> simp [limitOf, hfind, hactive]
  rw [if_neg fun h => hid h.1]
  cases g.limits.find poolId with
  | none => rfl
  | some limit =>
  dsimp only
  split
  · rw [limitOf, limitOf, Table.find_put_ne _ _ hid]
  · rfl

theorem Held.release (h : Held pools b) (hflying : 0 < b.inFlight poolId) :
    Held pools (b.call now (.release poolId)) := by
  rw [Book.call]
  refine ⟨(releasePull_pools _ _).trans h.same, h.keyed, fun id q hq => ?_⟩
  have hkept := h.kept id q hq
  rw [inFlight_release]
  dsimp only
  rw [limitOf_releasePull]
  by_cases hid : id = poolId
  · subst hid
    rw [← hkept.active] at hflying
    rw [if_pos ⟨rfl, hflying⟩, if_pos rfl]
    refine ⟨hkept.past, fun k => ?_, hkept.within, congrArg (· - 1) hkept.active,
      Int.le_trans (Int.sub_le_self _ (by decide)) hkept.pulls⟩
    rw [← hkept.counted k]
    cases k <;> rfl
  · rw [if_neg hid, if_neg fun h => hid h.1]
    exact hkept

theorem Held.call {c : Call} (h : Held pools b) (hproper : Proper b c)
    (hfits : Fits b.gateway now c) : Held pools (b.call now c) := by
  cases c with
  | pull poolId => exact h.acquire (Int.le_refl 0) hfits
  | action poolId contentLength => exact h.acquire (Int.le_max_left 0 _) hfits
  | result poolId length => exact h.acquire (Int.natCast_nonneg length) hfits
  | release poolId => exact h.release hproper

theorem Held.calls {cs : List (Time × Call)} (h : Held pools b)
    (hcalls : ∀ before c rest, cs = before ++ c :: rest →
      Proper (b.calls before) c.2 ∧ Fits (b.calls before).gateway c.1 c.2) :
    Held pools (b.calls cs) := by
  induction cs generalizing b with
  | nil => exact h
  | cons c cs ih =>
    obtain ⟨hproper, hfits⟩ := hcalls [] c cs rfl
    refine ih (h.call hproper hfits) fun before c' rest hcs => ?_
    exact hcalls (c :: before) c' rest (congrArg (c :: ·) hcs)

/-- Nothing is admitted beyond the limits of a pool, as long as the sums fit and the
clock goes forward. -/
theorem limits_hold (ps : List Pool) (key : Bytes) (tolerance : Time) (g : Gateway)
    (hnew : newGateway ps key tolerance = some g) (cs : List (Time × Call))
    (hcalls : ∀ before c rest, cs = before ++ c :: rest →
      Proper (Book.calls ⟨g, [], []⟩ before) c.2 ∧
        Fits (Book.calls ⟨g, [], []⟩ before).gateway c.1 c.2)
    (poolId : String) (p : Pool) (hp : g.pools.find poolId = some p) :
    (∀ (k : Meter) minute, k.total poolId minute (Book.calls ⟨g, [], []⟩ cs).admitted ≤ k.max p) ∧
      (limitOf (Book.calls ⟨g, [], []⟩ cs).gateway poolId).activePull =
        (Book.calls ⟨g, [], []⟩ cs).inFlight poolId ∧
      (Book.calls ⟨g, [], []⟩ cs).inFlight poolId ≤ p.maxConcurrentPulls := by
  have hconfigured := configured hnew
  have hinit : Held g.pools ⟨g, [], []⟩ := by
    refine ⟨rfl, fun id p hp => (hconfigured.pools id p hp).1, fun id p hp => ?_⟩
    have hlimit : limitOf g id = {} := by
      rw [limitOf]
      rcases hconfigured.limits id with hfind | hfind <;> rw [hfind] <;> rfl
    have hnormal := (hconfigured.pools id p hp).2
    rw [hlimit]
    refine ⟨nofun, fun k => by cases k <;> rfl, fun k m => ?_, rfl,
      Int.le_trans (by decide : (0 : Int) ≤ 1) hnormal.pulls⟩
    cases k with
    | requests => exact Int.le_trans (by decide : (0 : Int) ≤ 1) hnormal.requests
    | bytes => exact Int.le_trans (by decide : (0 : Int) ≤ 1024) hnormal.bytes
    | results => exact Int.le_trans (by decide : (0 : Int) ≤ 1) hnormal.results
  have hkept := (hinit.calls hcalls).kept poolId p hp
  exact ⟨hkept.within, hkept.active, hkept.pulls⟩

/-- Two requests whose declared lengths add up to `2 ^ 63` are both admitted. So are
twice as many requests of a minute as a pool may make, if the clock goes back to it. -/
theorem limits_overflow : newGateway [pool] (List.replicate 32 0) (5 * second) = some gateway ∧
      Meter.bytes.max normal < Meter.bytes.total "hosted" 0 (Book.calls ⟨gateway, [], []⟩
          [(0, .action "hosted" 1), (0, .action "hosted" (2 ^ 63 - 1))]).admitted ∧
      Meter.bytes.max normal < Meter.bytes.total "hosted" 0
        (Book.calls ⟨gateway, [], []⟩ [(0, .action "hosted" (8 * 1024 * 1024)),
          (minute, .pull "hosted"), (0, .action "hosted" 1)]).admitted := by
  refine ⟨newGateway_pool, ?_, ?_⟩ <;> decide +kernel

theorem limits_hold_sample : Meter.bytes.total "hosted" 0 (Book.calls ⟨gateway, [], []⟩
      [(0, .action "hosted" 1000)]).admitted ≤ Meter.bytes.max normal := by
  refine (limits_hold _ _ _ _ newGateway_pool [(0, .action "hosted" 1000)] (fun before c rest hcs => ?_) "hosted" normal rfl).1
    .bytes 0
  cases before with
  | nil =>
    cases hcs
    exact ⟨trivial, ⟨by decide +kernel, by decide +kernel, by decide +kernel, by decide,
      fun h => absurd rfl h⟩⟩
  | cons c' before => cases before <;> cases hcs

end WatchTrace.Proofs.Gateway
