import WatchTrace.Tx.Rowwise
import WatchTrace.Tx.Terms

/-!
# Counting before inserting

A quota is a limit on the rows of one table that count. Most calls never make
a row count that did not: such statements are *tame*, and a call of tame
statements can do the quota no harm, whatever others do. A call that does
insert a row that counts looks first how many there are. That is right only as
long as nobody else inserts between the look and the commit, so it has to own
the token of the quota by then.

While the token is owned the rows that count can only become fewer, so a list
that contained them when they were counted goes on containing them; each
insert adds one entry to it. `Held S` says that much of an open transaction:
what counts in its view is in the list `S`. At the commit the length of the
list is all that matters.
-/

namespace WatchTrace.Tx

variable {DB Key Env : Type} {Call : Type → Type} {World Own κ ρ : Type}
variable {α β : Type}

/-- A limit on the rows of a table that count. `key` is the lock of a row; `row`
and `token` are what a call owns that has locked the row, or may insert. -/
structure Quota (DB Key Own κ ρ : Type) where
  table : DB → Table κ ρ
  key : κ → Key
  row : κ → Own
  token : Own
  counts : ρ → Bool
  limit : Nat

variable {x : DB} {k : κ} {v : DB} {e : Effect DB Key β} {r : ρ} {q : Stmt DB Key Env β}

namespace Quota

variable (W : Quota DB Key Own κ ρ)

/-- The rows that count. -/
def counted (x : DB) : List κ :=
  ((W.table x).rows.filter fun e => W.counts e.2).map Prod.fst

theorem length_counted (x : DB) :
    (W.counted x).length = (W.table x).rows.countP fun e => W.counts e.2 := by
  rw [counted, List.length_map, List.countP_eq_length_filter]

/-- Terms under which a call owns the rows it has locked, and lets go of nothing
before its transaction ends. Nothing else is asked of it. -/
structure Fits (W : Quota DB Key Own κ ρ) (T : Terms DB Key Env Own) : Prop where
  rows : ∀ {o : Open DB Key Env} {k : κ}, W.key k ∈ o.locks → T.own (.active o) (W.row k)
  grows : ∀ {β : Type} {o : Open DB Key Env} {e : Effect DB Key β} {κ : Own},
    T.own (.active o) κ → T.own (.active (o.extend e)) κ
  free : ∀ {β : Type} (q : Stmt DB Key Env β), ¬ T.must q
  plain : ∀ o x, T.vow o x

/-- Going by locks only. -/
theorem fits_lockTerms {W : Quota DB Key Key κ ρ} (h : W.row = W.key) :
    W.Fits (lockTerms : Terms DB Key Env Key) where
  rows := fun hk => by
    rw [h]
    exact hk
  grows := fun hκ => List.mem_append_right _ hκ
  free := fun _ h => h
  plain := fun _ _ => trivial

variable [DecidableEq κ]

/-- The row is there, and counts. -/
def Counted (x : DB) (k : κ) : Prop :=
  ∃ r, (W.table x).find k = some r ∧ W.counts r = true

theorem mem_counted : k ∈ W.counted x ↔ W.Counted x k :=
  Table.mem_keys_filter

/-- Rows that are all in a list are no more than its entries. -/
theorem length_counted_le {S : List κ} (h : ∀ k, W.Counted x k → k ∈ S) :
    (W.counted x).length ≤ S.length := by
  have hnodup : (W.counted x).Nodup :=
    (W.table x).nodup_keys.sublist (List.Sublist.map _ List.filter_sublist)
  exact (List.subperm_of_subset hnodup fun k hk => h k (W.mem_counted.mp hk)).length_le

/-- The changes of the table are row by row, under locks. -/
abbrev Local (locks : List Key) (w : DB → DB) : Prop := RowLocal W.table W.key locks w

/-- On the rows in view, nothing counts that did not before. -/
structure Tame (v : DB) (e : Effect DB Key α) : Prop where
  isLocal : W.Local e.locks e.write
  fewer : ∀ {k : κ}, W.Counted (e.write v) k → W.Counted v k

/-- A statement whose effects are tame. -/
def TameStmt (q : Stmt DB Key Env β) : Prop :=
  ∀ begun env busy v e, q begun env busy v = some e → W.Tame v e

variable {W}

theorem Tame.same {e : Effect DB Key α} (h : ∀ x, W.table (e.write x) = W.table x) :
    W.Tame v e where
  isLocal := .same h
  fewer := by
    rintro k ⟨r, hr, hc⟩
    rw [h] at hr
    exact ⟨r, hr, hc⟩

/-- What counts once a row has been put. -/
theorem counted_put {y : DB} {k' : κ} (h : W.table y = (W.table x).put k r) (hc : W.Counted y k') :
    (k' = k ∧ W.counts r = true) ∨ W.Counted x k' := by
  obtain ⟨r', hr', hcounts⟩ := hc
  rw [h, Table.find_put_some] at hr'
  rcases hr' with ⟨rfl, rfl⟩ | ⟨-, hold⟩
  · exact .inl ⟨rfl, hcounts⟩
  · exact .inr ⟨r', hold, hcounts⟩

theorem Tame.put {e : Effect DB Key α} (h : ∀ x, W.table (e.write x) = (W.table x).put k r)
    (hlock : W.key k ∈ e.locks) (hc : W.counts r = true → W.Counted v k) : W.Tame v e where
  isLocal := .put h hlock
  fewer := by
    intro k' hk'
    rcases counted_put (h v) hk' with ⟨rfl, hr⟩ | hold
    · exact hc hr
    · exact hold

theorem tameStmt_of_revises {follows : ρ → ρ → Prop} (h : Revises W.table W.key follows q)
    (hcounts : ∀ {r r'}, follows r r' → W.counts r' = true → W.counts r = true) :
    W.TameStmt q := by
  intro begun env busy v e he
  rcases h begun env busy v e he with hsame | ⟨k, r, r', hfind, hlock, hfollows, hput⟩
  · exact .same hsame
  · exact .put hput hlock fun hr' => ⟨r, hfind, hcounts hfollows hr'⟩

/-! ## The protocol -/

variable (W) in
/-- Locked rows stand still, and while the token is owned nothing begins to
count. -/
def protocol : Protocol DB Own World Unit where
  init := ()
  move := fun _ _ _ _ _ => True
  rely := fun L x y =>
    (∀ k, L (W.row k) → (W.table y.1).find k = (W.table x.1).find k) ∧
    (L W.token → ∀ k, W.Counted y.1 k → W.Counted x.1 k) ∧
    ((W.counted x.1).length ≤ W.limit → (W.counted y.1).length ≤ W.limit)
  good := fun x => (W.counted x.1).length ≤ W.limit
  rely_refl := fun _ _ => ⟨fun _ _ => rfl, fun _ _ h => h, id⟩
  rely_trans := fun h h' =>
    ⟨fun k hk => (h'.1 k hk).trans (h.1 k hk),
      fun ht k hk => h.2.1 ht k (h'.2.1 ht k hk), fun hx => h'.2.2 (h.2.2 hx)⟩
  rely_anti := fun hL h => ⟨fun k hk => h.1 k (hL _ hk), fun ht => h.2.1 (hL _ ht), h.2.2⟩
  good_rely := fun h => h.2.2

variable {R : Remote Env World Call} {T : Terms DB Key Env Own} {i : Nat}
variable {o : Open DB Key Env} {x y : DB × World} {S : List κ}

/-- What counts in the view of an open transaction after others have acted. -/
theorem counted_later (fits : W.Fits T) (h : W.Local o.locks o.write)
    (hxy : (W.protocol : Protocol DB Own World Unit).rely (T.own (.active o)) x y)
    (hk : W.Counted (o.write y.1) k) :
    (W.key k ∈ o.locks ∧ W.Counted (o.write x.1) k) ∨
      (W.key k ∉ o.locks ∧ W.Counted y.1 k) := by
  obtain ⟨r, hr, hc⟩ := hk
  by_cases hlock : W.key k ∈ o.locks
  · rw [h.rowwise (hxy.1 k (fits.rows hlock))] at hr
    exact .inl ⟨hlock, r, hr, hc⟩
  · rw [h.locked hlock] at hr
    exact .inr ⟨hlock, r, hr, hc⟩

/-- What others own is not touched by a commit. -/
theorem rows_kept (fits : W.Fits T) (h : W.Local o.locks o.write) {L : Own → Prop}
    (hL : ∀ κ, L κ → ¬ T.own (.active o) κ) (hk : L (W.row k)) :
    (W.table (o.write x.1)).find k = (W.table x.1).find k :=
  h.locked fun hlock => hL _ hk (fits.rows hlock)

/-! ## Calls that do no harm -/

/-- So far the transaction has been tame. -/
structure Pending (W : Quota DB Key Own κ ρ) (o : Open DB Key Env) (x : DB) : Prop where
  isLocal : W.Local o.locks o.write
  fewer : ∀ {k : κ}, W.Counted (o.write x) k → W.Counted x k

theorem pending_fresh (env : Env) (x : DB) : W.Pending (.fresh env) x :=
  ⟨⟨fun h => h, fun _ => rfl⟩, fun h => h⟩

theorem Pending.extend (h : W.Pending o v) (he : W.Tame (o.write v) e) : W.Pending (o.extend e) v :=
  ⟨h.isLocal.comp he.isLocal, fun hk => h.fewer (he.fewer hk)⟩

theorem Pending.later (fits : W.Fits T) (h : W.Pending o x.1)
    (hxy : (W.protocol : Protocol DB Own World Unit).rely (T.own (.active o)) x y) :
    W.Pending o y.1 where
  isLocal := h.isLocal
  fewer := by
    intro k hk
    rcases counted_later fits h.isLocal hxy hk with ⟨hlock, hold⟩ | ⟨-, hnew⟩
    · obtain ⟨r, hr, hc⟩ := h.fewer hold
      exact ⟨r, (hxy.1 k (fits.rows hlock)).trans hr, hc⟩
    · exact hnew

theorem Pending.takes (fits : W.Fits T) (h : W.Pending o x.1) :
    W.protocol.Takes T i (.active o) () x () (o.write x.1, x.2) := by
  refine ⟨trivial, fun L hL => ⟨fun k hk => rows_kept fits h.isLocal hL hk,
    fun _ k hk => h.fewer hk, fun hx => ?_⟩⟩
  refine Nat.le_trans (W.length_counted_le fun k hk => ?_) hx
  exact W.mem_counted.mpr (h.fewer hk)

theorem worldly (T : Terms DB Key Env Own) : (W.protocol : Protocol DB Own World Unit).Worldly T :=
  fun _ _ _ _ _ => ⟨trivial, fun _ _ => ⟨fun _ _ => rfl, fun _ _ h => h, id⟩⟩

/-! ## Calls that insert -/

/-- The transaction owns the token, and what counts in its view is in `S`. -/
structure Held (W : Quota DB Key Own κ ρ) (T : Terms DB Key Env Own) (S : List κ)
    (o : Open DB Key Env) (x : DB) : Prop where
  isLocal : W.Local o.locks o.write
  token : T.own (.active o) W.token
  inside : ∀ {k : κ}, W.Counted (o.write x) k → k ∈ S

/-- The token is owned from here on: the rows that count are the list. -/
theorem Pending.held (h : W.Pending o x.1) (ht : T.own (.active o) W.token) :
    W.Held T (W.counted (o.write x.1)) o x.1 :=
  ⟨h.isLocal, ht, W.mem_counted.mpr⟩

theorem Held.later (fits : W.Fits T) (h : W.Held T S o x.1)
    (hxy : (W.protocol : Protocol DB Own World Unit).rely (T.own (.active o)) x y) :
    W.Held T S o y.1 where
  isLocal := h.isLocal
  token := h.token
  inside := by
    intro k hk
    rcases counted_later fits h.isLocal hxy hk with ⟨-, hold⟩ | ⟨hfree, hnew⟩
    · exact h.inside hold
    · obtain ⟨r, hr, hc⟩ := hxy.2.1 h.token k hnew
      exact h.inside ⟨r, (h.isLocal.locked hfree).trans hr, hc⟩

theorem Held.extend (fits : W.Fits T) (h : W.Held T S o v) (he : W.Tame (o.write v) e) :
    W.Held T S (o.extend e) v :=
  ⟨h.isLocal.comp he.isLocal, fits.grows h.token, fun hk => h.inside (he.fewer hk)⟩

/-- An insert is one more entry. -/
theorem Held.insert (fits : W.Fits T) (h : W.Held T S o x.1)
    (he : ∀ x, W.table (e.write x) = (W.table x).put k r) (hlock : W.key k ∈ e.locks) :
    W.Held T (k :: S) (o.extend e) x.1 where
  isLocal := h.isLocal.comp (.put he hlock)
  token := fits.grows h.token
  inside := by
    intro k' hk'
    rcases counted_put (he _) hk' with ⟨rfl, -⟩ | hold
    · exact List.mem_cons_self
    · exact List.mem_cons_of_mem _ (h.inside hold)

theorem Held.takes (fits : W.Fits T) (h : W.Held T S o x.1) (hS : S.length ≤ W.limit) :
    W.protocol.Takes T i (.active o) () x () (o.write x.1, x.2) := by
  refine ⟨trivial, fun L hL => ⟨fun k hk => rows_kept fits h.isLocal hL hk,
    fun ht => absurd h.token (hL _ ht), fun _ => ?_⟩⟩
  exact Nat.le_trans (W.length_counted_le fun k hk => h.inside hk) hS

/-! ## Calls that may commit at any time -/

/-- The transaction has been tame, or has no more in its view than is allowed. -/
def Guarded (W : Quota DB Key Own κ ρ) (T : Terms DB Key Env Own) (o : Open DB Key Env)
    (x : DB) : Prop :=
  W.Pending o x ∨ ∃ S, S.length ≤ W.limit ∧ W.Held T S o x

theorem Guarded.isLocal (h : W.Guarded T o v) : W.Local o.locks o.write := by
  rcases h with h | ⟨S, -, h⟩
  · exact h.isLocal
  · exact h.isLocal

theorem Guarded.extend (fits : W.Fits T) (h : W.Guarded T o v) (he : W.Tame (o.write v) e) :
    W.Guarded T (o.extend e) v := by
  rcases h with h | ⟨S, hS, h⟩
  · exact .inl (h.extend he)
  · exact .inr ⟨S, hS, h.extend fits he⟩

theorem Guarded.safe (fits : W.Fits T) :
    (W.protocol : Protocol DB Own World Unit).Safe T (W.Guarded T) where
  fresh := fun env x => .inl (pending_fresh env x)
  lasting := by
    rintro o x y (h | ⟨S, hS, h⟩) hxy _
    · exact .inl (h.later (x := x) fits hxy)
    · exact .inr ⟨S, hS, h.later (x := x) fits hxy⟩
  commits := by
    rintro o x i a (h | ⟨S, hS, h⟩)
    · exact ⟨fits.plain _ _, (), h.takes fits⟩
    · exact ⟨fits.plain _ _, (), h.takes fits hS⟩

theorem TameStmt.upholds (fits : W.Fits T) (hq : W.TameStmt q) : Protocol.Upholds (W.Guarded T) q :=
  fun _ _ _ _ _ h he => h.extend fits (hq _ _ _ _ _ he)

/-- A call of tame statements keeps the quota. -/
theorem honours_within (fits : W.Fits T) {p : Prog DB Key Env Call α}
    (hp : p.Within W.TameStmt) {ses : Session DB Key Env}
    (hses : ∀ o, ses = .active o → W.Guarded T o x.1) :
    W.protocol.Honours T R i Protocol.Done p ses () x :=
  Protocol.honours_upheld fits.free (worldly T) (Guarded.safe fits)
    (hp.mono fun h => h.upholds fits) hses

/-- The rest of a call after its insert. -/
theorem Held.rest (fits : W.Fits T) {p : Prog DB Key Env Call α} (h : W.Held T S o x.1)
    (hS : S.length ≤ W.limit) (hp : p.Within W.TameStmt) :
    W.protocol.Honours T R i Protocol.Done p (.active o) () x :=
  honours_within fits hp fun _ ho => Session.active.inj ho ▸ .inr ⟨S, hS, h⟩

/-! ## The rules of a call, statement by statement -/

/-- A condition on an open transaction that tame statements keep, and others. -/
structure Carried (W : Quota DB Key Own κ ρ) (T : Terms DB Key Env Own) (World : Type)
    (I : Open DB Key Env → DB → Prop) : Prop where
  lasting : (W.protocol : Protocol DB Own World Unit).Lasting T I
  extend : ∀ {β : Type} {o : Open DB Key Env} {x : DB} {e : Effect DB Key β}, I o x →
    W.Tame (o.write x) e → I (o.extend e) x

theorem Pending.carried (fits : W.Fits T) : W.Carried T World W.Pending where
  lasting := fun _ x _ h hxy _ => Pending.later (x := x) fits h hxy
  extend := fun h he => h.extend he

theorem Held.carried (fits : W.Fits T) (S : List κ) : W.Carried T World (W.Held T S) where
  lasting := fun _ x _ h hxy _ => Held.later (x := x) fits h hxy
  extend := fun h he => h.extend fits he

section Rules

variable {Q : α → Session DB Key Env → Unit → DB × World → Prop}
variable {I : Open DB Key Env → DB → Prop}

/-- One tame statement. -/
theorem carried_query {k : Except Fault β → Prog DB Key Env Call α} (fits : W.Fits T)
    (hI : W.Carried T World I) (h : I o x.1) (hq : W.TameStmt q)
    (hok : ∀ env busy e, q o.begun env busy (o.write x.1) = some e →
      ∀ y : DB × World, I (o.extend e) y.1 →
        W.protocol.Honours T R i Q (k (.ok e.value)) (.active (o.extend e)) () y)
    (herr : ∀ f y, W.protocol.Honours T R i Q (k (.error f)) .failed () y) :
    W.protocol.Honours T R i Q (query q >>= k) (.active o) () x := by
  refine Protocol.lasting_query (fits.free q) (fun env busy e he => ?_) herr
  exact ⟨I, hI.lasting, hI.extend h (hq _ _ _ _ _ he), fun y hy _ => hok env busy e he y hy⟩

/-- One statement under the token; how it changes the list is up to the caller
to say. -/
theorem held_query {k : Except Fault β → Prog DB Key Env Call α} (fits : W.Fits T)
    (hok : ∀ env busy e, q o.begun env busy (o.write x.1) = some e →
      ∃ S', W.Held T S' (o.extend e) x.1 ∧ ∀ y : DB × World, W.Held T S' (o.extend e) y.1 →
        W.protocol.Honours T R i Q (k (.ok e.value)) (.active (o.extend e)) () y)
    (herr : ∀ f y, W.protocol.Honours T R i Q (k (.error f)) .failed () y) :
    W.protocol.Honours T R i Q (query q >>= k) (.active o) () x := by
  refine Protocol.lasting_query (fits.free q) (fun env busy e he => ?_) herr
  obtain ⟨S', hheld, hk⟩ := hok env busy e he
  exact ⟨W.Held T S', (Held.carried fits S').lasting, hheld, fun y hy _ => hk y hy⟩

theorem held_commit {k : Except Fault Unit → Prog DB Key Env Call α} (fits : W.Fits T)
    (h : W.Held T S o x.1) (hS : S.length ≤ W.limit)
    (hk : ∀ r y, W.protocol.Honours T R i Q (k r) .idle () y) :
    W.protocol.Honours T R i Q (commit >>= k) (.active o) () x :=
  Protocol.honours_commit (fits.plain _ _) ⟨(), h.takes fits hS, fun r y _ _ => hk r y⟩
    fun y _ _ => hk _ y

end Rules

end Quota

end WatchTrace.Tx
