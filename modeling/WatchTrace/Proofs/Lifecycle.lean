import WatchTrace.Model.Recovery
import WatchTrace.Proofs.Config
import WatchTrace.Tx.Terms

/-!
# The lifecycle of a pool, under any interleaving

A pool that is revoked or being deleted has no credential left that is not
revoked (`Sealed`). One call alone obviously keeps that; the question is what
a call does that has read the pool before another one revoked it. The answer
is the row lock: `Register`, `Activate` and `Transition` own the key of the
pool from their first look at it until they commit, so what they decided on
still stands when their writes are applied.

Every write of such a call is local to its pool: the rows of other pools stay,
and what becomes of the pool's own rows depends on nothing else. That is all
that has to be known of the statements; the rest is following the calls.
-/

namespace WatchTrace.Proofs

open Tx Model Spec Protocol

/-! ## The rows of one pool -/

def credentialsOf (c : Core) (id : String) : List WorkerPoolCredential :=
  c.credentials.filter fun k => k.workerPoolId == id

variable {c : Core} {id : String}

variable {k : WorkerPoolCredential}

theorem mem_credentialsOf :
    k ∈ credentialsOf c id ↔ k ∈ c.credentials ∧ k.workerPoolId = id := by
  simp [credentialsOf]

/-- A pool is the same in two cores, its row and its credentials. -/
structure SamePool (id : String) (c c' : Core) : Prop where
  pool : c'.pools.find id = c.pools.find id
  credentials : credentialsOf c' id = credentialsOf c id

theorem SamePool.refl (id : String) (c : Core) : SamePool id c c := ⟨rfl, rfl⟩

theorem SamePool.trans {d e : Core} (h : SamePool id c d) (h' : SamePool id d e) :
    SamePool id c e :=
  ⟨h'.pool.trans h.pool, h'.credentials.trans h.credentials⟩

variable {c' : Core}

theorem SameConfig.samePool (h : SameConfig c c') (id : String) : SamePool id c c' :=
  ⟨by rw [h.pools], by unfold credentialsOf; rw [h.credentials]⟩

/-- If the pool is revoked or being deleted, so are its credentials. -/
def Safe (id : String) (c : Core) : Prop :=
  ∀ pool, c.pools.find id = some pool → revokes pool.lifecycleState = true →
    ∀ k ∈ credentialsOf c id, k.status = .revoked

theorem Safe.congr (h : Safe id c) (hs : SamePool id c c') : Safe id c' := by
  intro pool hpool hrev k hk
  rw [hs.pool] at hpool
  rw [hs.credentials] at hk
  exact h pool hpool hrev k hk

/-- No pool that is revoked or being deleted has a credential left. -/
def Sealed (c : Core) : Prop := ∀ id, Safe id c

/-- While a pool's key is owned its rows stay; and what is sealed stays
sealed. -/
def lifecycle : Protocol Database Key World Unit where
  init := ()
  move := fun _ _ _ _ _ => True
  rely := fun L x y => (Sealed x.1.core → Sealed y.1.core) ∧
    ∀ id, L (.pool id) → SamePool id x.1.core y.1.core
  good := fun x => Sealed x.1.core
  rely_refl := fun _ x => ⟨fun h => h, fun id _ => .refl id x.1.core⟩
  rely_trans := fun h h' => ⟨fun hx => h'.1 (h.1 hx), fun id hL => (h.2 id hL).trans (h'.2 id hL)⟩
  rely_anti := fun hL h => ⟨h.1, fun id hid => h.2 id (hL _ hid)⟩
  good_rely := fun h hx => h.1 hx

/-! ## Local writes -/

/-- A write that leaves other pools alone, and looks at its own only. -/
structure OnPool (id : String) (w : Database → Database) : Prop where
  others : ∀ u p, p ≠ id → SamePool p u.core (w u).core
  own : ∀ u v, SamePool id u.core v.core → SamePool id (w u).core (w v).core

theorem onPool_same (id : String) : OnPool id fun db => db :=
  ⟨fun u p _ => .refl p u.core, fun _ _ h => h⟩

theorem OnPool.comp {v w : Database → Database} (hv : OnPool id v) (hw : OnPool id w) :
    OnPool id fun db => w (v db) :=
  ⟨fun u p hp => (hv.others u p hp).trans (hw.others (v u) p hp),
    fun _ _ h => hw.own _ _ (hv.own _ _ h)⟩

/-- Replacing the row of the pool. -/
theorem local_putPool (id : String) (pool : WorkerPool) :
    OnPool id fun db => { db with core := { db.core with pools := db.core.pools.put id pool } } := by
  constructor
  · intro u p hp
    exact ⟨Table.find_put_ne _ _ hp, rfl⟩
  · intro u v h
    refine ⟨?_, h.credentials⟩
    show (v.core.pools.put id pool).find id = (u.core.pools.put id pool).find id
    rw [Table.find_put, Table.find_put]

/-- Adding a credential of the pool. -/
theorem local_addCredential (hk : k.workerPoolId = id) :
    OnPool id fun db => { db with
      core := { db.core with credentials := db.core.credentials ++ [k] } } := by
  constructor
  · intro u p hp
    refine ⟨rfl, ?_⟩
    have hne : (k.workerPoolId == p) = false := by
      rw [hk]
      exact beq_eq_false_iff_ne.mpr (Ne.symm hp)
    simp [credentialsOf, List.filter_append, hne]
  · intro u v h
    refine ⟨h.pool, ?_⟩
    have hs : v.core.credentials.filter (fun k => k.workerPoolId == id) =
      u.core.credentials.filter fun k => k.workerPoolId == id := h.credentials
    simp only [credentialsOf, List.filter_append, hs]

/-- Changing credentials one by one, none of them another pool's. -/
theorem local_mapCredentials {f : WorkerPoolCredential → WorkerPoolCredential}
    (hpool : ∀ k, (f k).workerPoolId = k.workerPoolId)
    (hothers : ∀ k, k.workerPoolId ≠ id → f k = k) :
    OnPool id fun db => { db with
      core := { db.core with credentials := db.core.credentials.map f } } := by
  have hmap : ∀ (ks : List WorkerPoolCredential) (p : String),
      (ks.map f).filter (fun k => k.workerPoolId == p) =
        (ks.filter fun k => k.workerPoolId == p).map f := by
    intro ks p
    rw [List.filter_map]
    congr 2
    funext k
    simp only [Function.comp_apply, hpool]
  constructor
  · intro u p hp
    refine ⟨rfl, ?_⟩
    show (u.core.credentials.map f).filter (fun k => k.workerPoolId == p) = _
    rw [hmap]
    refine (List.map_congr_left fun k hk => ?_).trans (List.map_id _)
    have hkp : k.workerPoolId = p := by simpa using (List.mem_filter.mp hk).2
    exact hothers k (by rw [hkp]; exact hp)
  · intro u v h
    refine ⟨h.pool, ?_⟩
    have hs : v.core.credentials.filter (fun k => k.workerPoolId == id) =
      u.core.credentials.filter fun k => k.workerPoolId == id := h.credentials
    show (v.core.credentials.map f).filter (fun k => k.workerPoolId == id) =
      (u.core.credentials.map f).filter fun k => k.workerPoolId == id
    rw [hmap, hmap, hs]

/-! ## A call that owns the key of its pool -/

abbrev Transaction := Open Database Key Env

/-- The transaction owns the key, and has written nowhere else. -/
structure Holding (id : String) (o : Transaction) : Prop where
  key : .pool id ∈ o.locks
  writes : OnPool id o.write

variable {id : String} {o : Transaction} {x y : State} {i : Nat}

/-- What the transaction sees of its pool stays as it is. -/
theorem Holding.later (h : Holding id o) (hy : lifecycle.rely (· ∈ o.locks) x y) :
    SamePool id (o.write x.1).core (o.write y.1).core :=
  h.writes.own _ _ (hy.2 id h.key)

variable {α : Type}

variable {e : Effect Database Key α}

theorem Holding.extend (h : Holding id o) (he : OnPool id e.write) : Holding id (o.extend e) :=
  ⟨List.mem_append_right _ h.key, h.writes.comp he⟩

/-- One statement more: what it makes of the pool is still so when the others
have moved. -/
theorem Holding.step (h : Holding id o) (he : OnPool id e.write)
    (hy : lifecycle.rely (· ∈ e.locks ++ o.locks) x y) :
    Holding id (o.extend e) ∧ SamePool id (e.write (o.write x.1)).core
      ((o.extend e).write y.1).core :=
  ⟨h.extend he, (h.extend he).later hy⟩

/-- It may commit whatever keeps the pool safe. -/
theorem Holding.moves (h : Holding id o) (hsafe : Safe id (o.write x.1).core) :
    lifecycle.Moves i o.locks () x () (o.write x.1, x.2) := by
  refine ⟨trivial, fun L hL => ⟨fun hx p => ?_, fun p hp => ?_⟩⟩
  · by_cases hpid : p = id
    · rw [hpid]
      exact hsafe
    · exact (hx p).congr (h.writes.others x.1 p hpid)
  · refine h.writes.others x.1 p fun hpid => ?_
    rw [hpid] at hp
    exact hL _ hp h.key

theorem auditAndCommit_meets {event : AuditEvent} (h : Holding id o)
    (hsafe : Safe id (o.write x.1).core) :
    lifecycle.Meets remote i (auditAndCommit event) (.active o) () x := by
  unfold auditAndCommit audit
  split
  · trivial
  refine meets_query (fun env busy e he y hy => ?_) fun _ _ _ => trivial
  obtain ⟨e', -, -, -, hwrite⟩ := onJournal_some he
  have hlocal : OnPool id e.write := by
    constructor
    · intro u p _
      rw [hwrite]
      exact .refl p u.core
    · intro u v hs
      rw [hwrite, hwrite]
      exact hs
  have hsame : SamePool id (o.write x.1).core (e.write (o.write y.1)).core := by
    rw [hwrite]
    exact h.later (lifecycle.rely_anti (fun κ hκ => List.mem_append_right _ hκ) hy)
  refine meets_commit ⟨(), (h.extend hlocal).moves (hsafe.congr hsame), fun r _ _ => ?_⟩ ?_
  · cases r <;> trivial
  · exact fun _ _ => trivial

/-! ## The statements -/

variable {begun env : Env} {busy : Key → Bool} {db : Database}

/-- What a look at the pool's row answers and locks. -/
theorem lockWorkerPoolLifecycleState_some {e : Effect Database Key (Option PoolState)}
    {current : PoolState} (hv : e.value = some current)
    (h : lockWorkerPoolLifecycleState id begun env busy db = some e) :
    .pool id ∈ e.locks ∧ (∀ u, e.write u = u) ∧
      ∃ pool, db.core.pools.find id = some pool := by
  obtain ⟨e', he', hvalue, hlocks, hwrite⟩ := onCore_some h
  split at he'
  · cases he'
    rw [hv] at hvalue
    cases hvalue
  · next pool hpool =>
    cases he'
    exact ⟨by rw [hlocks]; exact List.mem_singleton.mpr rfl, hwrite, pool, hpool⟩

theorem lockWorkerPoolActivationReadiness_some
    {e : Effect Database Key (Option Bool)} {ready : Bool} (hv : e.value = some ready)
    (h : lockWorkerPoolActivationReadiness id begun env busy db = some e) :
    .pool id ∈ e.locks ∧ (∀ u, e.write u = u) ∧
      ∃ pool, db.core.pools.find id = some pool := by
  obtain ⟨e', he', hvalue, hlocks, hwrite⟩ := onCore_some h
  split at he'
  · cases he'
    rw [hv] at hvalue
    cases hvalue
  · next pool hpool =>
    cases he'
    exact ⟨by rw [hlocks]; exact List.mem_singleton.mpr rfl, hwrite, pool, hpool⟩

variable {e : Effect Database Key Unit}

variable {change : WorkerPool → WorkerPool}

/-- A new row of a pool that is there. -/
theorem updateWorkerPool_some {pool : WorkerPool} (hpool : db.core.pools.find id = some pool)
    (h : updateWorkerPool id change begun env busy db = some e) :
    ∀ u, e.write u = { u with
      core := { u.core with pools := u.core.pools.put id (change pool) } } := by
  obtain ⟨e', he', -, -, hwrite⟩ := onCore_some h
  rw [hpool] at he'
  cases he'
  exact hwrite

variable {affects : CredentialStatus → Bool}

/-- The credentials an update found, and what it makes of them. -/
theorem updateCredentials_some {change : Time → WorkerPoolCredential → WorkerPoolCredential}
    (h : updateCredentials id affects change begun env busy db = some e) :
    ∃ keys : List (String × CredentialPurpose × String),
      (∀ κ, κ ∈ keys ↔ ∃ k ∈ credentialsOf db.core id, affects k.status = true ∧ k.key = κ) ∧
      ∀ u, e.write u = { u with core := { u.core with
        credentials := u.core.credentials.map fun k =>
          if keys.contains k.key then change begun.now k else k } } := by
  obtain ⟨e', he', -, -, hwrite⟩ := onCore_some h
  cases he'
  refine ⟨_, fun κ => ?_, hwrite⟩
  simp only [List.mem_map, List.mem_filter, Bool.and_eq_true, beq_iff_eq, mem_credentialsOf]
  constructor
  · intro hκ
    obtain ⟨k, ⟨hmem, hid, haff⟩, hkey⟩ := hκ
    exact ⟨k, ⟨hmem, hid⟩, haff, hkey⟩
  · intro hκ
    obtain ⟨k, ⟨hmem, hid⟩, haff, hkey⟩ := hκ
    exact ⟨k, ⟨hmem, hid, haff⟩, hkey⟩

variable {credential : Time → WorkerPoolCredential}

theorem insertCredential_some (h : insertCredential credential begun env busy db = some e) :
    ∀ u, e.write u = { u with core := { u.core with
      credentials := u.core.credentials ++ [credential begun.now] } } := by
  obtain ⟨e', he', -, -, hwrite⟩ := onCore_some h
  dsimp only at he'
  split at he'
  · cases he'
  · cases he'
    exact hwrite

/-! ## The calls -/

/-- The state of a pool. -/
def InState (id : String) (s : PoolState) (c : Core) : Prop :=
  ∃ pool, c.pools.find id = some pool ∧ pool.lifecycleState = s

variable {s : PoolState}

theorem InState.congr (h : InState id s c) (hs : SamePool id c c') : InState id s c' := by
  obtain ⟨pool, hpool, hstate⟩ := h
  exact ⟨pool, by rw [hs.pool]; exact hpool, hstate⟩

theorem InState.safe (h : InState id s c) (hs : revokes s = false) : Safe id c := by
  obtain ⟨pool, hpool, rfl⟩ := h
  intro pool' hpool' hrev
  rw [hpool] at hpool'
  cases hpool'
  rw [hs] at hrev
  cases hrev

theorem lifecycle_world (x : State) (w : World) : lifecycle.Moves i [] () x () (x.1, w) :=
  ⟨trivial, fun _ _ => ⟨fun h => h, fun id _ => .refl id x.1.core⟩⟩

/-- A transaction that has just begun, and has looked at its pool. -/
theorem holding_locked {e : Effect Database Key α} (hkey : .pool id ∈ e.locks)
    (hwrite : ∀ u, e.write u = u) (hpool : ∃ pool, x.1.core.pools.find id = some pool)
    (hy : lifecycle.rely (· ∈ e.locks ++ (Open.fresh begun : Transaction).locks) x y) :
    Holding id ((Open.fresh begun).extend e) ∧
      ∃ pool, (((Open.fresh begun).extend e).write y.1).core.pools.find id =
        some pool := by
  have hview : ∀ u, ((Open.fresh begun).extend e).write u = u := hwrite
  have h : Holding id ((Open.fresh begun).extend e) := by
    refine ⟨List.mem_append_left _ hkey, ?_⟩
    rw [funext hview]
    exact onPool_same id
  refine ⟨h, ?_⟩
  rw [(h.later hy).pool, hview]
  exact hpool

/-- One credential more leaves the pool in the state it was in. -/
theorem insertCredential_step (h : Holding id o) (hs : InState id s (o.write x.1).core)
    (he : insertCredential credential o.begun env busy (o.write x.1) = some e)
    (hpool : (credential o.begun.now).workerPoolId = id)
    (hy : lifecycle.rely (· ∈ e.locks ++ o.locks) x y) :
    Holding id (o.extend e) ∧ InState id s ((o.extend e).write y.1).core := by
  have hwrite := insertCredential_some he
  have hlocal : OnPool id e.write := by
    rw [funext hwrite]
    exact local_addCredential hpool
  obtain ⟨h', hsame⟩ := h.step hlocal hy
  refine ⟨h', InState.congr ?_ hsame⟩
  rw [hwrite]
  exact hs

theorem register_meets (sha256Hex : Bytes → String) (r : Registration)
    (actor reason : String) (x : State) :
    lifecycle.Meets remote i (register sha256Hex r actor reason) .idle () x := by
  refine meets_call fun env => ⟨(), lifecycle_world _ _, fun y _ => ?_⟩
  split
  · trivial
  refine meets_start (fun begun y _ => ?_) fun _ _ => trivial
  refine meets_query (fun env busy e he z hz => ?_) fun _ _ _ => trivial
  -- the new row: provisioning, under a key nobody else owns
  obtain ⟨hkey, hlocal, hs⟩ : .pool r.id ∈ e.locks ∧ OnPool r.id e.write ∧
      InState r.id .provisioning (e.write y.1).core := by
    obtain ⟨e', he', -, hlocks, hwrite⟩ := onCore_some he
    split at he'
    · cases he'
    cases he'
    refine ⟨by rw [hlocks]; exact List.mem_singleton.mpr rfl, ?_, ?_⟩
    · rw [funext hwrite]
      exact local_putPool r.id r.pool
    · rw [hwrite]
      exact ⟨r.pool, Table.find_put _ _ _, rfl⟩
  have h : Holding r.id ((Open.fresh begun).extend e) :=
    ⟨List.mem_append_left _ hkey, (onPool_same r.id).comp hlocal⟩
  replace hs : InState r.id .provisioning
      (((Open.fresh begun).extend e).write z.1).core := hs.congr (h.later hz)
  refine meets_query (fun env busy e he z hz => ?_) fun _ _ _ => trivial
  obtain ⟨h, hs⟩ := insertCredential_step h hs he rfl hz
  refine meets_query (fun env busy e he z hz => ?_) fun _ _ _ => trivial
  obtain ⟨h, hs⟩ := insertCredential_step h hs he rfl hz
  split
  · refine meets_query (fun env busy e he z hz => ?_) fun _ _ _ => trivial
    obtain ⟨h, hs⟩ := insertCredential_step h hs he rfl hz
    exact auditAndCommit_meets h (hs.safe rfl)
  · exact auditAndCommit_meets h (hs.safe rfl)

/-- A new row of the pool, by a call that has looked at it before. -/
theorem updateWorkerPool_step (hchange : ∀ pool, (change pool).lifecycleState = s)
    (h : Holding id o) (hs : ∃ pool, (o.write x.1).core.pools.find id = some pool)
    (he : updateWorkerPool id change o.begun env busy (o.write x.1) = some e)
    (hy : lifecycle.rely (· ∈ e.locks ++ o.locks) x y) :
    Holding id (o.extend e) ∧ InState id s ((o.extend e).write y.1).core := by
  obtain ⟨pool, hpool⟩ := hs
  have hwrite := updateWorkerPool_some hpool he
  have hlocal : OnPool id e.write := by
    rw [funext hwrite]
    exact local_putPool id (change pool)
  obtain ⟨h', hsame⟩ := h.step hlocal hy
  refine ⟨h', InState.congr ?_ hsame⟩
  rw [hwrite]
  exact ⟨change pool, Table.find_put _ _ _, hchange pool⟩

/-- New states for the credentials of the pool. -/
theorem updateCredentials_step {change : Time → WorkerPoolCredential → WorkerPoolCredential}
    (h : Holding id o) (hs : InState id s (o.write x.1).core)
    (he : updateCredentials id affects change o.begun env busy (o.write x.1) = some e)
    (hchange : ∀ k, (change o.begun.now k).workerPoolId = k.workerPoolId)
    (hy : lifecycle.rely (· ∈ e.locks ++ o.locks) x y) :
    Holding id (o.extend e) ∧ InState id s ((o.extend e).write y.1).core ∧
      ∀ k ∈ credentialsOf ((o.extend e).write y.1).core id,
        affects k.status = false ∨ ∃ k', k = change o.begun.now k' := by
  obtain ⟨keys, hkeys, hwrite⟩ := updateCredentials_some he
  have hlocal : OnPool id e.write := by
    rw [funext hwrite]
    refine local_mapCredentials (fun k => ?_) fun k hk => ?_
    · split
      · exact hchange k
      · rfl
    · -- a key of the list belongs to a credential of this pool
      refine if_neg fun hmem => hk ?_
      obtain ⟨k', hk', -, hkey⟩ := (hkeys _).mp (List.contains_iff_mem.mp hmem)
      rw [← (mem_credentialsOf.mp hk').2]
      exact (congrArg Prod.fst hkey).symm
  obtain ⟨h', hsame⟩ := h.step hlocal hy
  refine ⟨h', InState.congr ?_ hsame, fun k hk => ?_⟩
  · rw [hwrite]
    exact hs
  · rw [hsame.credentials, hwrite] at hk
    obtain ⟨hmem, hid⟩ := mem_credentialsOf.mp hk
    obtain ⟨k', hk', rfl⟩ := List.mem_map.mp hmem
    split at hid
    · next hfound =>
      rw [if_pos hfound]
      exact .inr ⟨k', rfl⟩
    next hfound =>
    rw [if_neg hfound]
    left
    rw [← Bool.not_eq_true]
    intro haff
    refine hfound (List.contains_iff_mem.mpr ((hkeys _).mpr ⟨k', ?_, haff, rfl⟩))
    exact mem_credentialsOf.mpr ⟨hk', hid⟩

theorem activate_meets (id : String) (manifestDigest : Bytes) (gatewayMapped : Bool)
    (actor reason : String) (x : State) :
    lifecycle.Meets remote i (activate id manifestDigest gatewayMapped actor reason)
      .idle () x := by
  unfold activate
  split
  · trivial
  refine meets_start (fun begun y _ => ?_) fun _ _ => trivial
  refine meets_query (fun env busy e he z hz => ?_) fun _ _ _ => trivial
  cases hv : e.value with
  | none => trivial
  | some ready =>
  obtain ⟨hkey, hwrite, hpool⟩ := lockWorkerPoolActivationReadiness_some hv he
  obtain ⟨h, hs⟩ := holding_locked hkey hwrite hpool hz
  dsimp only
  split
  · trivial
  refine meets_query (fun env busy e he z hz => ?_) fun _ _ _ => trivial
  obtain ⟨h, hs⟩ := updateWorkerPool_step (s := .active) (fun _ => rfl) h hs he hz
  refine meets_query (fun env busy e he z hz => ?_) fun _ _ _ => trivial
  obtain ⟨h, hs, -⟩ := updateCredentials_step h hs he (fun _ => rfl) hz
  exact auditAndCommit_meets h (hs.safe rfl)

theorem transition_meets (id : String) (target : PoolState) (actor reason : String) (x : State) :
    lifecycle.Meets remote i (transition id target actor reason) .idle () x := by
  unfold transition
  split
  · next action _ =>
    refine meets_start (fun begun y _ => ?_) fun _ _ => trivial
    refine meets_query (fun env busy e he z hz => ?_) fun _ _ _ => trivial
    cases hv : e.value with
    | none => trivial
    | some current =>
    obtain ⟨hkey, hwrite, hpool⟩ := lockWorkerPoolLifecycleState_some hv he
    obtain ⟨h, hs⟩ := holding_locked hkey hwrite hpool hz
    dsimp only
    split
    · trivial
    refine meets_query (fun env busy e he z hz => ?_) fun _ _ _ => trivial
    obtain ⟨h, hs⟩ := updateWorkerPool_step (s := target) (fun _ => rfl) h hs he hz
    by_cases hrev : revokes target = true
    · simp only [hrev, if_true]
      refine meets_query (fun env busy e he z hz => ?_) fun _ _ _ => trivial
      obtain ⟨h, -, hcred⟩ := updateCredentials_step h hs he (fun _ => rfl) hz
      refine auditAndCommit_meets h fun _ _ _ k hk => ?_
      rcases hcred k hk with hold | ⟨k', rfl⟩
      · simpa using hold
      · rfl
    · simp only [hrev]
      exact auditAndCommit_meets h (hs.safe (Bool.eq_false_iff.mpr hrev))
  · trivial

/-! ## Runs -/

/-- The calls of an operator, next to any that leave the configuration alone:
`ConsumeNext` and the recovery command are two of them. -/
inductive Operation (P : Primitives) : Prog Unit → Prop
  | register (sha256Hex : Bytes → String) (r : Registration) (actor reason : String) :
      Operation P (register sha256Hex r actor reason >>= fun _ => pure ())
  | activate (id : String) (manifestDigest : Bytes) (gatewayMapped : Bool) (actor reason : String) :
      Operation P (activate id manifestDigest gatewayMapped actor reason >>= fun _ => pure ())
  | transition (id : String) (target : PoolState) (actor reason : String) :
      Operation P (transition id target actor reason >>= fun _ => pure ())
  | consumeNext : Operation P (consumeNext P >>= fun _ => pure ())
  | recover (queueUrl : String) (id : Uuid) (execute : Bool) (approver reason : String) :
      Operation P (recover P queueUrl id execute approver reason >>= fun _ => pure ())
  | bystander (p : Prog Unit) (hp : Prog.Confined Derived p) : Operation P p

theorem meets_derived {p : Prog α} (hp : Prog.Confined Derived p) (x : State) :
    lifecycle.Meets remote i p .idle () x := by
  have hwrite : ∀ {w : Database → Database}, Derived w → ∀ L x,
      lifecycle.Moves i L () x () (w x.1, x.2) := by
    intro w hw L x
    have hsame : ∀ id, SamePool id x.1.core (w x.1).core := (hw x.1).samePool
    exact ⟨trivial, fun _ _ => ⟨fun hx id => (hx id).congr (hsame id), fun id _ => hsame id⟩⟩
  exact meets_confined derived_id Derived.comp hwrite lifecycle_world hp of_idle x

theorem recover_confined (P : Primitives) (queueUrl : String) (id : Uuid)
    (execute : Bool) (approver reason : String) :
    Prog.Confined Derived (recover P queueUrl id execute approver reason) := by
  have hrecord : ∀ r, Prog.Within WritesDerived (recordRedrive id approver reason r) := by
    simp [recordRedrive, markQuarantineRedriven, insertWorkerPoolAudit,
      insertQueueRecoveryOperationalEvent, writesDerived_ledger, writesDerived_journal]
  have hsend : ∀ r, Prog.Within WritesDerived
      (sendRedrive P queueUrl id execute approver reason r) := by
    simp [sendRedrive, hrecord]
  have hsingle : ∀ {α : Type} {q : Stmt α}, WritesDerived q →
      Prog.Within WritesDerived (single q) := by
    intro α q hq
    simp [single, hq]
  refine Prog.Within.mono (S := WritesDerived) ?_ fun h => h
  unfold recover
  split
  · trivial
  refine Prog.within_then (hsingle (writesDerived_ledger _)) (fun found => ?_) fun _ => trivial
  cases found with
  | none => trivial
  | some record =>
  refine Prog.within_bind Prog.within_call fun now => ?_
  split
  · trivial
  refine Prog.within_then (hsingle (writesDerived_read _)) (fun found => ?_) fun _ => trivial
  cases found with
  | none => trivial
  | some v =>
  dsimp only
  split
  · trivial
  · exact hsend _

variable {P : Primitives}

theorem operation_meets {p : Prog Unit} (hp : Operation P p) (i : Nat) (x : State) :
    lifecycle.Meets remote i p .idle () x := by
  cases hp with
  | register => exact (register_meets _ _ _ _ x).void
  | activate => exact (activate_meets _ _ _ _ _ x).void
  | transition => exact (transition_meets _ _ _ _ x).void
  | consumeNext => exact (meets_derived (consumeNext_confined P) x).void
  | recover => exact (meets_derived (recover_confined P _ _ _ _ _) x).void
  | bystander _ hp => exact meets_derived hp x

/-- Whatever runs next to whatever, a pool that is revoked or being deleted has
no credential left. -/
theorem sealed_of_run {w : World} {s : Sys Database Key Env Call World} (h : Sealed db.core)
    (hrun : Steps remote (Operation P) (.quiet db w) s) :
    Sealed s.db.core := by
  have hrel : Related lifecycle remote (.quiet db w) [] :=
    related_quiet (x := (db, w)) h
  obtain ⟨as, hs⟩ := related_steps (fun p hp i x _ => operation_meets hp i x) hrel hrun
  exact hs.good

end WatchTrace.Proofs
