import WatchTrace.Proofs.Refresh
import WatchTrace.Proofs.SignOut

/-!
# Calls in sequence

Logins, refreshes, logouts, password resets and clean-ups that run one after
another, at times that do not go back. After each of them the families are in
order, and what was rotated once is never accepted again: as long as its row is
there it counts as replayed, and when the clean-up has taken the row away the
token had expired in any case.
-/

namespace WatchTrace.Proofs.Rotation

open Tx Tx.Prog Model.Auth Arith
open Model (Uuid Time Bytes Failure)

inductive Op
  | login (email password : String)
  | refresh (refreshToken : String)
  | logout (refreshToken : String) (allSessions : Bool)
  | resetPassword (token newPassword : String)
  | cleanupSessions

/-- The database a call leaves that runs alone. -/
def Op.run (L : Library) (env : Nat → Env) (db : Database) : Op → Database
  | .login email password => ((Model.Auth.login L email password).solo remote 0 env 0 .idle db ()).2.1
  | .refresh token => ((Model.Auth.refresh L token).solo remote 0 env 0 .idle db ()).2.1
  | .logout token allSessions =>
    ((Model.Auth.logout L token allSessions).solo remote 0 env 0 .idle db ()).2.1
  | .resetPassword token newPassword =>
    ((Model.Auth.resetPassword L token newPassword).solo remote 0 env 0 .idle db ()).2.1
  | .cleanupSessions => (Model.Auth.cleanupSessions.solo remote 0 env 0 .idle db ()).2.1

/-- A sequence of calls: the states it has passed, where it is, and a time that
no clock has passed yet. -/
inductive History (L : Library) (start : Database) (t₀ : Time) :
    List Tables → Database → Time → Prop
  | start : History L start t₀ [] start t₀
  | turn {seen : List Tables} {db : Database} {lo hi : Time} (op : Op) (env : Nat → Env)
      (h : History L start t₀ seen db lo)
      (hdraw : ∀ n, Draw L (db.rows :: seen) lo hi (env n)) :
      History L start t₀ (db.rows :: seen) (op.run L env db) hi

variable {L : Library} {start db : Database} {t₀ now : Time} {seen : List Tables}

/-- What every call does. -/
theorem Op.moves {lo hi : Time} {env : Nat → Env} (op : Op) (hmem : db.rows ∈ seen)
    (hdraw : ∀ n, Draw L seen lo hi (env n)) :
    Move seen lo hi db.rows (op.run L env db).rows := by
  cases op with
  | login email password => exact solo_leaves hdraw (login_moves hmem email password) 0 ()
  | refresh token => exact solo_leaves hdraw (refresh_moves hmem token) 0 ()
  | logout token allSessions => exact solo_leaves hdraw (logout_moves token allSessions) 0 ()
  | resetPassword token newPassword =>
    exact solo_leaves hdraw (resetPassword_moves token newPassword) 0 ()
  | cleanupSessions =>
    obtain ⟨_, _, _, hcleaned⟩ := solo_leaves hdraw cleanupSessions_ends 0 ()
    exact hcleaned.move

variable {id : Uuid} {token : RefreshToken}

/-- Rotated tokens of a state in order are spent. -/
theorem Linear.spent {t : Tables} (hlin : Linear now t)
    (hfind : t.refreshTokens.find id = some token) (hrotated : token.rotatedAt.isSome = true) :
    Spent t token.tokenDigest := by
  intro id' token' hfind' hdigest
  have hid : id' = id := hlin.digests hfind' hfind hdigest
  rw [hid, hfind, Option.some.injEq] at hfind'
  rw [← hfind']
  exact hrotated

/-- What holds after every sequence of calls. -/
structure InOrder (now : Time) (seen : List Tables) (t : Tables) : Prop where
  linear : Linear now t
  spent : ∀ s ∈ t :: seen, ∀ id token, s.refreshTokens.find id = some token →
    token.rotatedAt.isSome = true → Spent t token.tokenDigest

theorem History.inOrder (h₀ : Linear t₀ start.rows)
    (h : History L start t₀ seen db now) : InOrder now seen db.rows := by
  induction h with
  | start =>
    refine ⟨h₀, fun s hs id token hfind hrotated => ?_⟩
    rw [List.mem_singleton.mp hs] at hfind
    exact h₀.spent hfind hrotated
  | @turn seen db lo hi op env _ hdraw ih =>
    have hmem : db.rows ∈ db.rows :: seen := List.mem_cons_self
    have hmove := op.moves hmem hdraw
    have hle : lo ≤ hi := Int.le_trans (hdraw 0).lo_now (hdraw 0).now_hi
    have hlin := ih.linear.move hle hmem hmove
    refine ⟨hlin, fun s hs id token hfind hrotated => ?_⟩
    rcases List.mem_cons.mp hs with rfl | hs
    · exact hlin.spent hfind hrotated
    · exact (ih.spent s hs id token hfind hrotated).move ⟨s, hs, id, token, hfind, rfl⟩ hmove

/-- Families rotate in a line: in a state, after the states `seen` and up to the
time `now`. -/
structure RotatesLinearly (L : Library) (seen : List Tables) (db : Database)
    (now : Time) : Prop where
  /-- one token of a family at most is neither rotated nor revoked -/
  one_active : ∀ {a b : Uuid} {x y : RefreshToken},
    db.rows.refreshTokens.find a = some x → db.rows.refreshTokens.find b = some y →
    x.familyId = y.familyId → x.rotatedAt = none ∧ x.revokedAt = none →
    y.rotatedAt = none ∧ y.revokedAt = none → a = b
  /-- the links are one chain, from the first token to the newest -/
  chain : ∀ familyId, ∃ ids, Lineage (successor db.rows) (InFamily db.rows familyId) ids ∧
    ids.IsChain fun a b => ∃ x y, db.rows.refreshTokens.find a = some x ∧
      db.rows.refreshTokens.find b = some y ∧ x.createdAt ≤ y.createdAt
  /-- what was rotated, in this state or an earlier one, yields no session -/
  refused : ∀ {t : Tables} {id : Uuid} {token : RefreshToken} {text : String},
    t ∈ db.rows :: seen → t.refreshTokens.find id = some token →
    token.rotatedAt.isSome = true → token.tokenDigest = L.digest text →
    ∀ env outcome, ((refresh L text).solo remote 0 env 0 .idle db ()).1 ≠ .ok outcome
  /-- presenting it while its row is there ends the family -/
  replayed : ∀ {id : Uuid} {token : RefreshToken} {text : String},
    db.rows.refreshTokens.find id = some token → token.rotatedAt.isSome = true →
    token.tokenDigest = L.digest text → validRefreshToken L text = true →
    ∀ env : Nat → Env, (∀ n, now ≤ (env n).now) →
      let after := ((Op.refresh text).run L env db).rows
      (∀ id' x, after.refreshTokens.find id' = some x → x.familyId = token.familyId →
        x.revokedAt.isSome = true) ∧
      ∀ id' s, after.authSessions.find id' = some s → s.familyId = token.familyId →
        ∀ time, s.usable time = false
  /-- a token whose family the clean-up takes away would not have been accepted
  from then on -/
  forgotten : ∀ {env : Nat → Env} {later : Time} {id : Uuid} {gone : RefreshToken},
    (∀ n, (env n).now ≤ later) → db.rows.refreshTokens.find id = some gone →
    (Op.cleanupSessions.run L env db).rows.refreshTokens.find id = none →
    ∀ {id' : Uuid} {token : RefreshToken} {text : String},
      db.rows.refreshTokens.find id' = some token → token.familyId = gone.familyId →
      (Op.cleanupSessions.run L env db).rows.refreshTokens.find id' = none ∧
      (token.tokenDigest = L.digest text → ∀ env' : Nat → Env, (∀ n, later ≤ (env' n).wall) →
        ∀ outcome, ((refresh L text).solo remote 0 env' 0 .idle db ()).1 ≠ .ok outcome)

variable {text : String}

section Assembly

variable (h : InOrder now seen db.rows)

include h

theorem InOrder.one_active {a b : Uuid} {x y : RefreshToken}
    (hx : db.rows.refreshTokens.find a = some x) (hy : db.rows.refreshTokens.find b = some y)
    (hfamily : x.familyId = y.familyId) (hax : x.rotatedAt = none) (hay : y.rotatedAt = none) :
    a = b := by
  have hnone : ∀ {c z}, db.rows.refreshTokens.find c = some z → z.rotatedAt = none →
      successor db.rows c = none := by
    intro c z hz hrotated
    have hboth := h.linear.rotated hz
    rw [hrotated] at hboth
    rw [successor_of_find hz]
    exact Option.isNone_iff_eq_none.mp (by simpa using hboth)
  obtain ⟨ids, hline⟩ := h.linear.line y.familyId
  exact hline.last_unique ⟨x, hx, hfamily⟩ ⟨y, hy, rfl⟩ (hnone hx hax) (hnone hy hay)

theorem InOrder.chain (familyId : Uuid) : ∃ ids,
    Lineage (successor db.rows) (InFamily db.rows familyId) ids ∧
    ids.IsChain fun a b => ∃ x y, db.rows.refreshTokens.find a = some x ∧
      db.rows.refreshTokens.find b = some y ∧ x.createdAt ≤ y.createdAt := by
  obtain ⟨ids, hline⟩ := h.linear.line familyId
  refine ⟨ids, hline, hline.linked.imp_of_mem_imp fun a b ha _ hab => ?_⟩
  obtain ⟨x, hx, -⟩ := (hline.mem_iff a).mp ha
  rw [successor_of_find hx] at hab
  obtain ⟨y, hy, hle⟩ := h.linear.ordered hx hab
  exact ⟨x, y, hx, hy, hle⟩

theorem InOrder.refused {t : Tables} (ht : t ∈ db.rows :: seen)
    (hfind : t.refreshTokens.find id = some token) (hrotated : token.rotatedAt.isSome = true)
    (hdigest : token.tokenDigest = L.digest text) (env : Nat → Env) (outcome : Outcome) :
    ((refresh L text).solo remote 0 env 0 .idle db ()).1 ≠ .ok outcome := by
  intro hok
  obtain ⟨id', token', -, hfind', hdigest', hunrotated, -⟩ :=
    refresh_ok (C := fun _ => True) (fun _ => trivial) hok
  have hspent := h.spent t ht id token hfind hrotated id' token' hfind'
    (hdigest'.trans hdigest.symm)
  rw [hunrotated] at hspent
  cases hspent

theorem InOrder.replayed (hfind : db.rows.refreshTokens.find id = some token)
    (hrotated : token.rotatedAt.isSome = true) (hdigest : token.tokenDigest = L.digest text)
    (hvalid : validRefreshToken L text = true) {env : Nat → Env} (henv : ∀ n, now ≤ (env n).now) :
    let after := ((Op.refresh text).run L env db).rows
    (∀ id' x, after.refreshTokens.find id' = some x → x.familyId = token.familyId →
      x.revokedAt.isSome = true) ∧
    ∀ id' s, after.authSessions.find id' = some s → s.familyId = token.familyId →
      ∀ time, s.usable time = false := by
  intro after
  obtain ⟨revokedAt, hrevoked⟩ : ∃ time, Revoked (.family token.familyId) time db.rows after :=
    solo_leaves (C := fun env : Env => now ≤ env.now) henv
      (refresh_replayed h.linear hvalid hfind hdigest hrotated) 0 ()
  refine ⟨fun id' x hx hfamily => ?_, fun id' s hs hfamily time => ?_⟩
  · rw [hrevoked.tokens] at hx
    obtain ⟨old, -, rfl⟩ := Option.map_eq_some_iff.mp hx
    have hcovered : Scope.covers (.family token.familyId) old.userId old.familyId = true :=
      beq_iff_eq.mpr hfamily
    cases hold : old.revokedAt <;> simp [revokedToken, RefreshToken.affected, hcovered, hold]
  · rw [hrevoked.sessions] at hs
    obtain ⟨old, -, rfl⟩ := Option.map_eq_some_iff.mp hs
    have hcovered : Scope.covers (.family token.familyId) old.userId old.familyId = true :=
      beq_iff_eq.mpr hfamily
    cases hold : old.revokedAt <;>
      simp [revokedSession, AuthSession.affected, AuthSession.usable, hcovered, hold]

omit h in
theorem forgotten {env : Nat → Env} {later : Time} {gone : RefreshToken}
    (hlater : ∀ n, (env n).now ≤ later) (hgone : db.rows.refreshTokens.find id = some gone)
    (hnone : (Op.cleanupSessions.run L env db).rows.refreshTokens.find id = none) {id' : Uuid}
    (hfind : db.rows.refreshTokens.find id' = some token)
    (hfamily : token.familyId = gone.familyId)
    (hunique : ∀ {a x}, db.rows.refreshTokens.find a = some x →
      x.tokenDigest = token.tokenDigest → a = id') :
    (Op.cleanupSessions.run L env db).rows.refreshTokens.find id' = none ∧
    (token.tokenDigest = L.digest text → ∀ env' : Nat → Env, (∀ n, later ≤ (env' n).wall) →
      ∀ outcome, ((refresh L text).solo remote 0 env' 0 .idle db ()).1 ≠ .ok outcome) := by
  obtain ⟨env₀, families, henv₀, hcleaned⟩ :=
    solo_leaves (C := fun env : Env => env.now ≤ later) hlater cleanupSessions_ends 0 ()
  have htaken : families gone.familyId = true := by
    have htokens := hcleaned.tokens id
    rw [hgone, Option.filter_some] at htokens
    cases hfamilies : families gone.familyId with
    | true => rfl
    | false =>
    rw [hfamilies] at htokens
    have hsome := htokens.symm.trans hnone
    cases hsome
  rw [← hfamily] at htaken
  refine ⟨?_, fun hdigest env' henv' outcome hok => ?_⟩
  · have htokens := hcleaned.tokens id'
    rw [hfind, Option.filter_some, htaken] at htokens
    exact htokens
  · obtain ⟨a, x, env, ha, hxdigest, -, -, hwall, hunexpired⟩ :=
      refresh_ok (C := fun env : Env => later ≤ env.wall) henv' hok
    have hid := hunique ha (hxdigest.trans hdigest.symm)
    rw [hid, hfind, Option.some.injEq] at ha
    subst ha
    have hexpired := hcleaned.expired id' token hfind htaken
    exact Int.lt_irrefl _ (Int.lt_of_le_of_lt
      (Int.le_trans hexpired (Int.le_trans henv₀ hwall)) hunexpired)

end Assembly

/-- Whatever calls have been made one after another, families rotate in a line. -/
theorem refresh_families_linear (h₀ : Linear t₀ start.rows)
    (h : History L start t₀ seen db now) : RotatesLinearly L seen db now := by
  have hin := h.inOrder h₀
  refine ⟨fun hx hy hfamily hax hay => hin.one_active hx hy hfamily hax.1 hay.1, hin.chain,
    fun ht hfind hrotated hdigest env outcome => hin.refused ht hfind hrotated hdigest env outcome,
    fun hfind hrotated hdigest hvalid env henv => hin.replayed hfind hrotated hdigest hvalid henv,
    fun hlater hgone hnone _ _ _ hfind hfamily => ?_⟩
  exact forgotten hlater hgone hnone hfind hfamily fun ha hdigest =>
    hin.linear.digests ha hfind hdigest

namespace Sample

open Sessions.Sample (library tables)

/-- The user has not signed in yet. -/
def newcomer : Database := ⟨{ tables with refreshTokens := .empty }, []⟩

/-- At the time `k`, when the generators hand out `k`. -/
def env (k : Nat) : Env :=
  { now := k, wall := k, uuid := k, family := k
    random := some (List.replicate 32 (UInt8.ofNat (64 + k))) }

def signedIn : Database :=
  (Op.login "a@b" "old-password").run library (fun _ => env 1) newcomer

/-- The token of that login is exchanged. -/
def exchanged : Database :=
  (Op.refresh "wt_refresh_AAAAAAAAAAAAAAAAAAAAAAAAAAAAAAAA").run library (fun _ => env 2) signedIn

/-- No state has had what the generators hand out at the time `k`. -/
def new (seen : List Tables) (k : Nat) : Bool :=
  seen.all fun t => t.refreshTokens.rows.all fun r =>
    r.2.familyId != k && r.2.tokenDigest !=
      library.digest (refreshTokenPrefix ++ library.encode (List.replicate 32 (UInt8.ofNat (64 + k))))

theorem draw {lo : Time} {k : Nat} (hlo : lo ≤ k) (h : new seen k = true) :
    Draw library seen lo k (env k) := by
  have hrow : ∀ t ∈ seen, ∀ id token, t.refreshTokens.find id = some token →
      token.familyId ≠ k ∧ token.tokenDigest ≠ library.digest (refreshTokenPrefix ++
        library.encode (List.replicate 32 (UInt8.ofNat (64 + k)))) := by
    intro t ht id token hfind
    have hall := List.all_eq_true.mp (List.all_eq_true.mp h t ht) (id, token)
      (Table.mem_rows.mpr hfind)
    rw [Bool.and_eq_true, bne_iff_ne, bne_iff_ne] at hall
    exact hall
  refine ⟨hlo, Int.le_refl _, hlo, Int.le_refl _, fun t ht id hmem => ?_, fun raw hraw => ?_⟩
  · obtain ⟨token, hfind, hfamily⟩ := hmem
    exact (hrow t ht id token hfind).1 hfamily
  · cases hraw
    exact fun t ht id token hfind => (hrow t ht id token hfind).2

theorem newcomer_linear : Linear 0 newcomer.rows := .empty rfl rfl 0

theorem history :
    History library newcomer 0 [signedIn.rows, newcomer.rows] exchanged 2 := by
  have hfirst : History library newcomer 0 [newcomer.rows] signedIn 1 :=
    .turn (.login "a@b" "old-password") (fun _ => env 1) .start fun _ =>
      draw (by decide) (by decide +kernel)
  exact .turn (.refresh "wt_refresh_AAAAAAAAAAAAAAAAAAAAAAAAAAAAAAAA") (fun _ => env 2) hfirst
    fun _ => draw (by decide) (by decide +kernel)

end Sample

open Sample

/-- A login and a refresh: the first token has a successor and is never accepted
again. -/
theorem refresh_families_linear_sample :
    ((exchanged.rows.refreshTokens.find 1).map RefreshToken.replacedById = some (some 2)) ∧
    RotatesLinearly Sessions.Sample.library [signedIn.rows, newcomer.rows]
      exchanged 2 := by
  refine ⟨by decide +kernel, ?_⟩
  exact refresh_families_linear newcomer_linear history

end WatchTrace.Proofs.Rotation
