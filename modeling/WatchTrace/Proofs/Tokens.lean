import WatchTrace.Tx.Rowwise
import WatchTrace.Tx.Terms
import WatchTrace.Spec.Sessions

/-!
# The tokens of the tables

The book of the sessions is read off the rows, and every statement of the
service is one of a few things to it: it leaves the book alone, it enters a
token, it revokes one, or it replaces a password. What a transaction has written
so far is known row by row, because every row it has written is locked.

Locks on rows are not enough for a revocation, which has to be about rows that do
not exist yet. The terms on which the calls run here are that nobody else works
on a row of the same user meanwhile. On these terms what a transaction has found
out about the tokens of its user is still true when it commits.
-/

namespace WatchTrace.Proofs.Sessions

open Tx Model.Auth Spec.Sessions
open Model (Uuid Time Bytes Failure)

/-! ## Rows -/

/-- What matters of a row. -/
inductive Info
  | token (s : Standing)
  | hash (h : PasswordHash)
  | owner (userId : Uuid)

def rowOf : TokenId → RowKey
  | .refresh id => .refreshToken id
  | .access id => .authSession id

def info (t : Tables) : RowKey → Option Info
  | .refreshToken id => (t.refreshTokens.find id).map fun r =>
    .token ⟨r.userId, r.familyId, r.revokedAt.isNone⟩
  | .authSession id => (t.authSessions.find id).map fun r =>
    .token ⟨r.userId, r.familyId, r.revokedAt.isNone⟩
  | .user id => (t.users.find id).map fun r => .hash r.passwordHash
  | .actionToken id => (t.userActionTokens.find id).map fun r => .owner r.userId
  | .refreshDigest _ => none
  | .sessionDigest _ => none

def Info.standing? : Info → Option Standing
  | .token s => some s
  | _ => none

def Info.hash? : Info → Option PasswordHash
  | .hash h => some h
  | _ => none

def standings (t : Tables) (id : TokenId) : Option Standing :=
  (info t (rowOf id)).bind Info.standing?

def hashes (t : Tables) (u : Uuid) : Option PasswordHash :=
  (info t (.user u)).bind Info.hash?

def book (db : Database) : Book :=
  { token := standings db.rows, hash := hashes db.rows, notes := db.notes }

variable {id : Uuid}

variable {t : Tables}

theorem standings_refresh {row : RefreshToken} (h : t.refreshTokens.find id = some row) :
    standings t (.refresh id) = some ⟨row.userId, row.familyId, row.revokedAt.isNone⟩ := by
  simp [standings, rowOf, info, Info.standing?, h]

theorem standings_access {row : AuthSession} (h : t.authSessions.find id = some row) :
    standings t (.access id) = some ⟨row.userId, row.familyId, row.revokedAt.isNone⟩ := by
  simp [standings, rowOf, info, Info.standing?, h]

/-! ## Statements -/

/-- The change of a row depends on that row, which is locked. -/
abbrev Rowwise {α : Type} (e : Effect Tables Key α) : Prop :=
  Pointwise info Key.row e.locks e.write

/-- A statement that changes nothing that matters. -/
def Quiet {α : Type} (e : Effect Tables Key α) : Prop := ∀ y, info (e.write y) = info y

/-- A statement that enters one row. -/
structure Sets {α : Type} (r : RowKey) (i : Info) (e : Effect Tables Key α) : Prop where
  write : ∀ y, info (e.write y) = Function.update (info y) r (some i)
  lock : .row r ∈ e.locks

section Effects

variable {α : Type} {e : Effect Tables Key α} {r : RowKey} {i : Info} {t : TokenId}
variable {s : Standing} {y : Tables}

theorem Quiet.rowwise (h : Quiet e) : Rowwise e := .same h

theorem Sets.rowwise (h : Sets r i e) : Rowwise e := .update h.write h.lock

theorem Quiet.standings (h : Quiet e) : standings (e.write y) = standings y := by
  funext t
  simp only [Sessions.standings, h y]

theorem Quiet.hashes (h : Quiet e) : hashes (e.write y) = hashes y := by
  funext u
  simp only [Sessions.hashes, h y]

theorem rowOf_injective {t' : TokenId} (h : rowOf t = rowOf t') : t = t' := by
  cases t <;> cases t' <;> cases h <;> rfl

theorem Sets.standings (h : Sets (rowOf t) (.token s) e) :
    standings (e.write y) = Function.update (standings y) t (some s) := by
  funext t'
  rw [Function.update_apply, Sessions.standings, h.write]
  split
  · next heq =>
    rw [heq, Function.update_self]
    rfl
  · next hne =>
    rw [Function.update_of_ne fun heq => hne (rowOf_injective heq)]
    rfl

theorem Sets.hashes (h : Sets (rowOf t) (.token s) e) : hashes (e.write y) = hashes y := by
  funext u
  have hne : RowKey.user u ≠ rowOf t := by
    cases t <;> exact RowKey.noConfusion
  rw [Sessions.hashes, h.write, Function.update_of_ne hne]
  rfl

end Effects

variable {digest : Bytes} {e : Effect Tables Key Nat} {u f : Uuid} {expiresAt : Time}
variable {scope : Scope}

section Statements

variable {begun env : Env} {busy : Key → Bool} {v : Tables}

theorem lockRefreshTokenForRotation_some {e : Effect Tables Key (Option StoredRefreshToken)}
    (h : lockRefreshTokenForRotation digest begun env busy v = some e) :
    Quiet e ∧ ∀ stored, e.value = some stored → standings v (.refresh stored.id) =
        some ⟨stored.userId, stored.familyId, stored.revokedAt.isNone⟩ ∧
      .owned stored.userId (.refreshToken stored.id) ∈ e.locks := by
  unfold lockRefreshTokenForRotation at h
  repeat' split at h
  all_goals cases h
  all_goals refine ⟨fun _ => rfl, fun stored hv => ?_⟩
  all_goals cases hv
  next id token hfound _ _ _ =>
    have hfind := Table.mem_rows.mp (List.mem_of_find?_eq_some hfound)
    exact ⟨standings_refresh hfind, List.mem_cons_of_mem _ List.mem_cons_self⟩

theorem info_put_refresh (y : Tables) (id : Uuid) (row : RefreshToken) :
    info { y with refreshTokens := y.refreshTokens.put id row } =
      Function.update (info y) (.refreshToken id)
        (some (.token ⟨row.userId, row.familyId, row.revokedAt.isNone⟩)) := by
  funext r
  cases r <;> simp only [info, Table.find_put_eq, Function.update_apply,
    RowKey.refreshToken.injEq, reduceCtorEq, if_false]
  split <;> rfl

theorem info_put_access (y : Tables) (id : Uuid) (row : AuthSession) :
    info { y with authSessions := y.authSessions.put id row } =
      Function.update (info y) (.authSession id)
        (some (.token ⟨row.userId, row.familyId, row.revokedAt.isNone⟩)) := by
  funext r
  cases r <;> simp only [info, Table.find_put_eq, Function.update_apply,
    RowKey.authSession.injEq, reduceCtorEq, if_false]
  split <;> rfl

theorem info_put_action (y : Tables) (id : Uuid) (row : UserActionToken) :
    info { y with userActionTokens := y.userActionTokens.put id row } =
      Function.update (info y) (.actionToken id) (some (.owner row.userId)) := by
  funext r
  cases r <;> simp only [info, Table.find_put_eq, Function.update_apply,
    RowKey.actionToken.injEq, reduceCtorEq, if_false]
  split <;> rfl

/-- What an insert does, in either table. -/
structure Inserts {α : Type} (u f : Uuid) (t : TokenId) (v : Tables)
    (e : Effect Tables Key α) : Prop where
  absent : standings v t = none
  sets : Sets (rowOf t) (.token ⟨u, f, true⟩) e
  owner : .owned u (rowOf t) ∈ e.locks

theorem insertRefreshToken_some {e : Effect Tables Key Uuid}
    (h : insertRefreshToken u f digest expiresAt begun env busy v = some e) :
    Inserts u f (.refresh env.uuid) v e := by
  unfold insertRefreshToken at h
  split at h
  · cases h
  cases h
  constructor
  case sets => exact ⟨fun y => info_put_refresh y _ _, by simp [rowOf, locksOf]⟩
  all_goals simp_all [standings, rowOf, info, locksOf]

theorem createRefreshTokenFamily_some {e : Effect Tables Key (Uuid × Uuid)}
    (h : createRefreshTokenFamily u digest expiresAt begun env busy v = some e) :
    e.value.2 = env.family ∧ Inserts u env.family (.refresh env.uuid) v e := by
  obtain ⟨e', he', rfl⟩ := Option.map_eq_some_iff.mp h
  obtain ⟨habsent, ⟨hwrite, hlock⟩, howner⟩ := insertRefreshToken_some he'
  exact ⟨rfl, habsent, ⟨hwrite, hlock⟩, howner⟩

theorem createAuthSession_some {e : Effect Tables Key Unit}
    (h : createAuthSession u f digest expiresAt begun env busy v = some e) :
    Inserts u f (.access env.uuid) v e := by
  unfold createAuthSession at h
  split at h
  · cases h
  cases h
  constructor
  case sets => exact ⟨fun y => info_put_access y _ _, by simp [rowOf, locksOf]⟩
  all_goals simp_all [standings, rowOf, info, locksOf]

/-- A rotated token keeps its standing. -/
theorem markRefreshTokenRotated_some {replacedById : Uuid}
    (h : markRefreshTokenRotated replacedById id begun env busy v = some e) :
    Quiet e ∨ ∃ s, standings v (.refresh id) = some s ∧
      Sets (rowOf (.refresh id)) (.token s) e := by
  unfold markRefreshTokenRotated at h
  repeat' split at h
  all_goals cases h
  all_goals first
    | exact .inl fun _ => rfl
    | refine .inr ⟨_, standings_refresh ‹_›, ?_, List.mem_cons_self⟩
      exact fun y => info_put_refresh y _ _

/-- One row of a revocation: it is not among those to be revoked, or it is. -/
def Kills {α : Type} (scope : Scope) (t : TokenId) (v : Tables) (e : Effect Tables Key α) :
    Prop :=
  (Quiet e ∧ ∀ s, standings v t = some s →
    scope.covers s.userId s.familyId = true → s.live = false) ∨
  ∃ s, standings v t = some s ∧ scope.covers s.userId s.familyId = true ∧
    Sets (rowOf t) (.token s.revoked) e

theorem revokeRefreshToken_some (h : revokeRefreshToken scope id begun env busy v = some e) :
    Kills scope (.refresh id) v e := by
  unfold revokeRefreshToken at h
  repeat' split at h
  all_goals cases h
  all_goals first
    | refine .inr ⟨_, standings_refresh ‹_›, ?_, fun y => info_put_refresh y _ _, List.mem_cons_self⟩
      simp_all [RefreshToken.affected]
    | refine .inl ⟨fun _ => rfl, ?_⟩
      simp_all [standings, rowOf, info, Info.standing?, RefreshToken.affected,
        Option.isSome_iff_ne_none]

theorem revokeAccessToken_some (h : revokeAccessToken scope id begun env busy v = some e) :
    Kills scope (.access id) v e := by
  unfold revokeAccessToken at h
  repeat' split at h
  all_goals cases h
  all_goals first
    | refine .inr ⟨_, standings_access ‹_›, ?_, fun y => info_put_access y _ _, List.mem_cons_self⟩
      simp_all [AuthSession.affected]
    | refine .inl ⟨fun _ => rfl, ?_⟩
      simp_all [standings, rowOf, info, Info.standing?, AuthSession.affected,
        Option.isSome_iff_ne_none]

/-- A listing has all the live tokens of its kind in the scope. -/
def Lists (scope : Scope) (kind : Uuid → TokenId) (v : Tables)
    (e : Effect Tables Key (List Uuid)) : Prop :=
  Quiet e ∧ ∀ id s, standings v (kind id) = some s →
    scope.covers s.userId s.familyId = true → s.live = true → id ∈ e.value

theorem affectedRefreshTokens_some {e : Effect Tables Key (List Uuid)}
    (h : affectedRefreshTokens scope begun env busy v = some e) :
    Lists scope .refresh v e := by
  cases h
  refine ⟨fun _ => rfl, fun id s hs hcovers hlive => ?_⟩
  cases hfind : v.refreshTokens.find id with
  | none => simp [standings, rowOf, info, hfind] at hs
  | some token =>
  rw [standings_refresh hfind, Option.some.injEq] at hs
  subst hs
  refine Table.mem_keys_filter.mpr ⟨token, hfind, ?_⟩
  exact Bool.and_eq_true_iff.mpr ⟨hcovers, hlive⟩

theorem affectedAccessTokens_some {e : Effect Tables Key (List Uuid)}
    (h : affectedAccessTokens scope begun env busy v = some e) :
    Lists scope .access v e := by
  cases h
  refine ⟨fun _ => rfl, fun id s hs hcovers hlive => ?_⟩
  cases hfind : v.authSessions.find id with
  | none => simp [standings, rowOf, info, hfind] at hs
  | some session =>
  rw [standings_access hfind, Option.some.injEq] at hs
  subst hs
  refine Table.mem_keys_filter.mpr ⟨session, hfind, ?_⟩
  exact Bool.and_eq_true_iff.mpr ⟨hcovers, hlive⟩

theorem lockPasswordResetToken_some {e : Effect Tables Key (Option StoredResetToken)}
    (h : lockPasswordResetToken digest begun env busy v = some e) :
    Quiet e ∧ ∀ stored, e.value = some stored →
      info v (.actionToken stored.id) = some (.owner stored.userId) ∧
      .row (.actionToken stored.id) ∈ e.locks ∧
      .owned stored.userId (.actionToken stored.id) ∈ e.locks := by
  unfold lockPasswordResetToken at h
  split at h
  · cases h
    exact ⟨fun _ => rfl, nofun⟩
  next id token hfound =>
  cases h
  refine ⟨fun _ => rfl, fun stored hv => ?_⟩
  cases hv
  have hfind := Table.mem_rows.mp (List.mem_of_find?_eq_some hfound)
  refine ⟨by simp [info, hfind], List.mem_cons_self, ?_⟩
  exact List.mem_cons_of_mem _ List.mem_cons_self

/-- The rows of a password reset. -/
def completed (u tokenId : Uuid) (passwordHash : PasswordHash) : RowKey → Option (Option Info)
  | .user w => if w = u then some (some (.hash passwordHash)) else none
  | .actionToken w => if w = tokenId then some (some (.owner u)) else none
  | _ => none

/-- Only the password of the token's user is replaced. -/
theorem completePasswordReset_some {tokenId : Uuid} {passwordHash : PasswordHash}
    (howner : info v (.actionToken tokenId) = some (.owner u))
    (h : completePasswordReset tokenId passwordHash begun env busy v = some e) :
    Rowwise e ∧ ∀ y, standings (e.write y) = standings y ∧
      ∀ w, w ≠ u → hashes (e.write y) w = hashes y w := by
  have hquiet : ∀ {e : Effect Tables Key Nat}, (∀ y, e.write y = y) → Rowwise e ∧
      ∀ y, standings (e.write y) = standings y ∧
        ∀ w, w ≠ u → hashes (e.write y) w = hashes y w := by
    intro e hid
    refine ⟨.same fun y => by rw [hid], fun y => ?_⟩
    rw [hid]
    exact ⟨rfl, fun _ _ => rfl⟩
  unfold completePasswordReset at h
  split at h
  · cases h
    exact hquiet fun _ => rfl
  next token hfind =>
  split at h
  · split at h
    · cases h
    · split at h
      · cases h
        exact hquiet fun _ => rfl
      · cases h
        have hu : token.userId = u := by simpa [info, hfind] using howner
        subst hu
        refine ⟨.patch (f := completed token.userId tokenId passwordHash) ?_ ?_, fun y => ⟨?_, ?_⟩⟩
        · intro y r
          cases r with
          | user | actionToken =>
            simp only [info, completed, Table.find_put_eq]
            split <;> rfl
          | _ => rfl
        · intro r hr
          cases r with
          | user w =>
            by_cases hw : w = token.userId
            · exact hw ▸ List.mem_cons_self
            · simp [completed, hw] at hr
          | actionToken w =>
            by_cases hw : w = tokenId
            · exact hw ▸ List.mem_cons_of_mem _ List.mem_cons_self
            · simp [completed, hw] at hr
          | _ => exact absurd rfl hr
        · funext t
          cases t <;> rfl
        · intro w hw
          simp only [hashes, info, Table.find_put_ne _ _ hw]
  · cases h
    exact hquiet fun _ => rfl

theorem invalidatePasswordResetToken_some
    (h : invalidatePasswordResetToken u id begun env busy v = some e) :
    Rowwise e ∧ ∀ y, standings (e.write y) = standings y ∧ hashes (e.write y) = hashes y := by
  unfold invalidatePasswordResetToken at h
  repeat' split at h
  all_goals cases h
  all_goals first
    | exact ⟨.same fun _ => rfl, fun _ => ⟨rfl, rfl⟩⟩
    | refine ⟨.update (fun y => info_put_action y _ _) List.mem_cons_self, fun y => ⟨?_, rfl⟩⟩
      funext t
      cases t <;> rfl

end Statements

/-! ## The protocol -/

/-- What the others may do to a transaction that owns `L`: leave its rows alone
and the tokens of its users, those that do not exist yet included. -/
structure Tolerates (L : Key ⊕ Uuid → Prop) (x y : Database) : Prop where
  rows : ∀ r, L (.inl (.row r)) → info y.rows r = info x.rows r
  users : ∀ u, L (.inr u) → ∀ t s, s.userId = u →
    ((book y).token t = some s ↔ (book x).token t = some s)
  sound : (book x).Sound → (book y).Sound

/-- Every commit is a change of the book; a family is opened only if `Opens`. -/
def sessions (Opens : Prop) : Protocol Database (Key ⊕ Uuid) Unit Unit where
  init := ()
  move _ _ x _ y := y.1 = x.1 ∨
    (Change (book x.1) (book y.1) ∧ (¬ Opens → Unopened (book x.1) (book y.1)))
  rely L x y := Tolerates L x.1 y.1
  good x := (book x.1).Sound
  rely_refl _ _ := ⟨fun _ _ => rfl, fun _ _ _ _ _ => Iff.rfl, fun h => h⟩
  rely_trans h h' :=
    { rows := fun r hr => (h'.rows r hr).trans (h.rows r hr)
      users := fun u hu t s hs => (h'.users u hu t s hs).trans (h.users u hu t s hs)
      sound := fun hx => h'.sound (h.sound hx) }
  rely_anti hL h :=
    { rows := fun r hr => h.rows r (hL _ hr)
      users := fun u hu => h.users u (hL _ hu)
      sound := h.sound }
  good_rely h hx := h.sound hx

/-- A transaction owns the rows it has locked and all the tokens of their users. -/
def sessionTerms (Fair : Open Database Key Env → Database → Prop) :
    Terms Database Key Env (Key ⊕ Uuid) where
  own ses
    | .inl κ => κ ∈ ses.locks
    | .inr u => ∃ r, .owned u r ∈ ses.locks
  fair
    | .active o, db => Fair o db
    | _, _ => True

/-! ## An open transaction -/

/-- A transaction at work on the tokens of the user `u`, with what it will have
noted. -/
structure Working (u : Uuid) (new : List Note) (o : Open Database Key Env) : Prop where
  owner : ∃ r, .owned u r ∈ o.locks
  rows : Pointwise (fun db : Database => info db.rows) Key.row o.locks o.write
  notes : ∀ y, (o.write y).notes = y.notes ++ new

/-- What the book and the view of a transaction have become, `b'` and `v'`, while
others were at work: on what the transaction has written, all is as it was. -/
structure Since (u : Uuid) (b v b' v' : Book) : Prop where
  sound : b'.Sound
  same : ∀ t s, s.userId = u → (b'.token t = some s ↔ b.token t = some s)
  token : ∀ t, (b'.token t = b.token t ∧ v'.token t = v.token t) ∨
    (v.token t = b.token t ∧ v'.token t = b'.token t)
  hash : ∀ w, (b'.hash w = b.hash w ∧ v'.hash w = v.hash w) ∨
    (v.hash w = b.hash w ∧ v'.hash w = b'.hash w)

/-- A fact about the book and the view that the others leave true. -/
def Persistent (u : Uuid) (Fact : Book → Book → Prop) : Prop :=
  ∀ b v b' v', Fact b v → Since u b v b' v' → Fact b' v'

/-- A transaction at work of which `Fact` is known. -/
structure Doing (u : Uuid) (new : List Note) (Fact : Book → Book → Prop)
    (o : Open Database Key Env) (x : Database) : Prop where
  working : Working u new o
  sound : (book x).Sound
  fact : Fact (book x) (book (o.write x))

variable {b b' : Book}

section Transactions

variable {Opens : Prop} {Fair : Open Database Key Env → Database → Prop}
variable {u : Uuid} {new : List Note} {Fact : Book → Book → Prop}
variable {o : Open Database Key Env} {x y : Database × Unit}

theorem Working.since (h : Working u new o) (hx : (book x.1).Sound)
    (hy : (sessions Opens).rely ((sessionTerms Fair).own (.active o)) x y) :
    Since u (book x.1) (book (o.write x.1)) (book y.1) (book (o.write y.1)) := by
  have hrows := fun r => h.rows.later (x := x.1) (y := y.1) r (hy.rows r)
  refine ⟨hy.sound hx, hy.users u h.owner, fun t => ?_, fun w => ?_⟩
  · rcases hrows (rowOf t) with ⟨-, hnow, hview⟩ | ⟨-, hview, hnow⟩
    · exact .inl ⟨congrArg (·.bind Info.standing?) hnow, congrArg (·.bind Info.standing?) hview⟩
    · exact .inr ⟨congrArg (·.bind Info.standing?) hview, congrArg (·.bind Info.standing?) hnow⟩
  · rcases hrows (.user w) with ⟨-, hnow, hview⟩ | ⟨-, hview, hnow⟩
    · exact .inl ⟨congrArg (·.bind Info.hash?) hnow, congrArg (·.bind Info.hash?) hview⟩
    · exact .inr ⟨congrArg (·.bind Info.hash?) hview, congrArg (·.bind Info.hash?) hnow⟩

theorem doing_lasting (hFact : Persistent u Fact) :
    (sessions Opens).Lasting (sessionTerms Fair) (Doing u new Fact) := by
  intro o x y h hy _
  have hsince := h.working.since h.sound hy
  exact ⟨h.working, hsince.sound, hFact _ _ _ _ h.fact hsince⟩

theorem sessions_worldly : (sessions Opens).Worldly (sessionTerms Fair) :=
  fun _ _ _ _ _ => ⟨.inl rfl, fun _ _ => ⟨fun _ _ => rfl, fun _ _ _ _ _ => Iff.rfl, id⟩⟩

theorem rowwise_noted {w : Database → Database} {v : Tables → Tables} {n : List Note}
    {locks : List Key} (hwrite : ∀ y, w y = ⟨v y.rows, y.notes ++ n⟩)
    (h : Pointwise info Key.row locks v) :
    Pointwise (fun db : Database => info db.rows) Key.row locks w where
  rowwise := by
    intro x y r hxy
    rw [hwrite, hwrite]
    exact h.rowwise hxy
  locked := by
    intro x r hfree
    rw [hwrite]
    exact h.locked hfree

/-- A statement of a transaction, and what becomes of the transaction. -/
theorem Working.extend {α : Type} (h : Working u new o) {q : Stmt α}
    {note : Env → List Note} {env : Env} {busy : Key → Bool} {v : Database}
    {e : Effect Database Key α} (he : q.noting note o.begun env busy v = some e)
    (hq : ∀ e', q o.begun env busy v.rows = some e' → Rowwise e') :
    Working u (new ++ note env) (o.extend e) := by
  obtain ⟨e', he', -, hlocks, hwrite⟩ := Stmt.noting_some he
  have hrows := hq e' he'
  refine ⟨?_, ?_, fun y => ?_⟩
  · obtain ⟨r, hr⟩ := h.owner
    exact ⟨r, List.mem_append_right _ hr⟩
  · exact h.rows.comp (rowwise_noted hwrite (hlocks ▸ hrows))
  · show (e.write (o.write y)).notes = y.notes ++ (new ++ note env)
    rw [hwrite, ← List.append_assoc, ← h.notes y]

/-- Only tokens of the user `u` differ. -/
def Touches (u : Uuid) (b b' : Book) : Prop :=
  ∀ t, b'.token t = b.token t ∨
    ((∀ s, b.token t = some s → s.userId = u) ∧ ∀ s, b'.token t = some s → s.userId = u)

theorem adds_touches (h : Adds u f b b') : Touches u b b' := by
  intro t
  rcases h.token t with hsame | ⟨hnone, hnew⟩
  · exact .inl hsame
  · refine .inr ⟨fun s hs => ?_, fun s hs => ?_⟩
    · rw [hnone] at hs
      cases hs
    · rw [hnew] at hs
      cases hs
      rfl

theorem revokes_touches {left : TokenId → Prop} (h : Revokes u scope left b b') :
    Touches u b b' := by
  intro t
  rcases h.token t with hsame | ⟨s₀, hs₀, hu, hdead⟩
  · exact .inl hsame
  · refine .inr ⟨fun s hs => ?_, fun s hs => ?_⟩
    · rw [hs₀] at hs
      cases hs
      exact hu
    · rw [hdead] at hs
      cases hs
      exact hu

/-- The commit of a transaction that changes the book. -/
theorem Working.commits (h : Working u new o) (hchange : Change (book x.1) (book (o.write x.1)))
    (hopens : ¬ Opens → Unopened (book x.1) (book (o.write x.1)))
    (htouches : Touches u (book x.1) (book (o.write x.1))) (i : Nat) :
    (sessions Opens).Takes (sessionTerms Fair) i (.active o) () x () (o.write x.1, x.2) := by
  refine ⟨.inr ⟨hchange, hopens⟩, fun L hL => ⟨fun r hr => ?_, fun w hw t s hs => ?_, ?_⟩⟩
  · exact h.rows.locked (hL _ hr)
  · have hne : w ≠ u := fun hwu => hL _ hw (hwu ▸ h.owner)
    rcases htouches t with hsame | ⟨hbefore, hafter⟩
    · rw [hsame]
    · constructor
      · intro hnow
        exact absurd (hs.symm.trans (hafter s hnow)) hne
      · intro hthen
        exact absurd (hs.symm.trans (hbefore s hthen)) hne
  · exact hchange.sound

end Transactions

end WatchTrace.Proofs.Sessions
