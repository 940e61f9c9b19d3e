import WatchTrace.Proofs.Rotation

/-!
# The calls that issue and revoke tokens

What each call of the service does to the tokens when it runs alone.
-/

namespace WatchTrace.Proofs.Rotation

open Tx Tx.Prog Model.Auth Arith
open Model (Uuid Time Bytes Failure)

variable {L : Library} {seen : List Tables} {lo hi : Time} {db : Database}
variable {C : Env → Prop}

/-! ## Statements -/

variable {digest : Bytes} {e : Effect Tables Key Nat} {id : Uuid} {token : RefreshToken}

variable {u f : Uuid} {expiresAt : Time}

section Statements

variable {α : Type} {begun env : Env} {v : Tables}

/-- What the service knows of the token it has locked. -/
structure Describes (stored : StoredRefreshToken) (token : RefreshToken) : Prop where
  userId : stored.userId = token.userId
  familyId : stored.familyId = token.familyId
  expiresAt : stored.expiresAt = token.expiresAt
  rotatedAt : stored.rotatedAt = token.rotatedAt
  revokedAt : stored.revokedAt = token.revokedAt

theorem lockRefreshTokenForRotation_eq {e : Effect Tables Key (Option StoredRefreshToken)}
    (h : lockRefreshTokenForRotation digest begun env nobody v = some e) :
    (e.write = fun t => t) ∧ ∀ stored, e.value = some stored → ∃ token,
      v.refreshTokens.find stored.id = some token ∧ token.tokenDigest = digest ∧
      Describes stored token := by
  unfold lockRefreshTokenForRotation at h
  split at h
  · cases h
    exact ⟨rfl, fun _ h => by cases h⟩
  next id token hfound =>
  split at h
  · cases h
    exact ⟨rfl, fun _ h => by cases h⟩
  cases h
  refine ⟨rfl, fun stored hv => ?_⟩
  cases hv
  refine ⟨token, Table.mem_rows.mp (List.mem_of_find?_eq_some hfound), ?_, rfl, rfl, rfl, rfl, rfl⟩
  simpa using List.find?_some hfound

/-- The token with a digest that exists is found. -/
theorem lockRefreshTokenForRotation_found (hlin : Linear lo v)
    (hfind : v.refreshTokens.find id = some token)
    {e : Effect Tables Key (Option StoredRefreshToken)}
    (h : lockRefreshTokenForRotation token.tokenDigest begun env nobody v = some e) :
    ∃ stored, e.value = some stored ∧ Describes stored token := by
  unfold lockRefreshTokenForRotation at h
  split at h
  · next hnone =>
    have hno := List.find?_eq_none.mp hnone (id, token) (Table.mem_rows.mpr hfind)
    simp at hno
  next id' token' hfound =>
  have hfind' := Table.mem_rows.mp (List.mem_of_find?_eq_some hfound)
  have hid : id' = id := hlin.digests hfind' hfind (by simpa using List.find?_some hfound)
  subst hid
  rw [hfind, Option.some.injEq] at hfind'
  subst hfind'
  split at h
  · next huser =>
    have howned := hlin.owned hfind
    rw [huser] at howned
    cases howned
  · cases h
    exact ⟨_, rfl, rfl, rfl, rfl, rfl, rfl⟩

theorem insertRefreshToken_eq {e : Effect Tables Key Uuid}
    (h : insertRefreshToken u f digest expiresAt begun env nobody v = some e) :
    e.value = env.uuid ∧ v.refreshTokens.find env.uuid = none ∧
      (v.users.find u).isSome = true ∧ ∀ v', e.write v' = { v' with
        refreshTokens := v'.refreshTokens.put env.uuid
          { userId := u, familyId := f, tokenDigest := digest, expiresAt := expiresAt
            createdAt := begun.now } } := by
  unfold insertRefreshToken at h
  split at h
  · cases h
  next hfree =>
  cases h
  simp only [Bool.or_eq_true, not_or, Bool.not_eq_true, Option.isSome_eq_false_iff,
    Option.isNone_iff_eq_none] at hfree
  exact ⟨rfl, hfree.1.1.1, Option.isSome_iff_ne_none.mpr hfree.1.2, fun _ => rfl⟩

theorem createAuthSession_eq {e : Effect Tables Key Unit}
    (h : createAuthSession u f digest expiresAt begun env nobody v = some e) (v' : Tables) :
    e.write v' = { v' with
      authSessions := v'.authSessions.put env.uuid
        { userId := u, familyId := f, tokenDigest := digest, expiresAt := expiresAt
          createdAt := begun.now } } := by
  unfold createAuthSession at h
  split at h
  · cases h
  · cases h
    rfl

/-- A token is marked once. -/
theorem markRefreshTokenRotated_eq {replacedById : Uuid}
    (h : markRefreshTokenRotated replacedById id begun env nobody v = some e)
    (hone : e.value = 1) : ∃ token, v.refreshTokens.find id = some token ∧
      token.rotatedAt = none ∧ ∀ v', e.write v' = { v' with
        refreshTokens := v'.refreshTokens.put id { token with
          rotatedAt := some begun.now, replacedById := some replacedById } } := by
  unfold markRefreshTokenRotated at h
  repeat' split at h
  all_goals cases h
  all_goals first
    | exact ⟨_, ‹_›, by simp_all, fun _ => rfl⟩
    | cases hone

end Statements

/-! ## Revocation -/

def revokedToken (scope : Scope) (now : Time) (token : RefreshToken) : RefreshToken :=
  { token with
    revokedAt := if token.affected scope then some now else token.revokedAt }

def revokedSession (scope : Scope) (now : Time) (session : AuthSession) : AuthSession :=
  { session with
    revokedAt := if session.affected scope then some now else session.revokedAt }

/-- Everything a scope covers is revoked, and nothing else happens. -/
structure Revoked (scope : Scope) (now : Time) (t t' : Tables) : Prop where
  tokens : ∀ id, t'.refreshTokens.find id = (t.refreshTokens.find id).map (revokedToken scope now)
  sessions : ∀ id, t'.authSessions.find id = (t.authSessions.find id).map (revokedSession scope now)
  users : t'.users = t.users

/-- Some token is from the future, which is why it cannot be revoked. -/
def Ahead (now : Time) (t : Tables) : Prop :=
  (∃ id token, t.refreshTokens.find id = some token ∧ now < token.createdAt) ∨
    ∃ id session, t.authSessions.find id = some session ∧ now < session.createdAt

variable {begun env : Env} {v v' : Tables} {familyId userId : Uuid}

variable {ρ : Type}

section Revocation

variable {o : Open Database Key Env} {scope : Scope}

theorem revokeRefreshToken_alters (h : revokeRefreshToken scope id begun env nobody v = some e) :
    Alters (fun t : Tables => t.refreshTokens) (fun t => (t.users, t.authSessions))
      (fun token => some (revokedToken scope begun.now token)) id v (e.write v) := by
  unfold revokeRefreshToken at h
  repeat' split at h
  all_goals cases h
  all_goals refine ⟨rfl, fun id' => ?_⟩
  all_goals split <;> simp_all [Table.find_put_eq, revokedToken]

theorem revokeAccessToken_alters (h : revokeAccessToken scope id begun env nobody v = some e) :
    Alters (fun t : Tables => t.authSessions) (fun t => (t.users, t.refreshTokens))
      (fun session => some (revokedSession scope begun.now session)) id v (e.write v) := by
  unfold revokeAccessToken at h
  repeat' split at h
  all_goals cases h
  all_goals refine ⟨rfl, fun id' => ?_⟩
  all_goals split <;> simp_all [Table.find_put_eq, revokedSession]

theorem revokeRefreshToken_refused (h : revokeRefreshToken scope id begun env nobody v = none) :
    ∃ token, v.refreshTokens.find id = some token ∧ begun.now < token.createdAt := by
  unfold revokeRefreshToken at h
  repeat' split at h
  all_goals first | exact ⟨_, ‹_›, ‹_›⟩ | cases h

theorem revokeAccessToken_refused (h : revokeAccessToken scope id begun env nobody v = none) :
    ∃ session, v.authSessions.find id = some session ∧ begun.now < session.createdAt := by
  unfold revokeAccessToken at h
  repeat' split at h
  all_goals first | exact ⟨_, ‹_›, ‹_›⟩ | cases h

/-- What is listed is revoked, and what is not listed need not be. -/
private theorem revoked_all {δ : Type} {get : Tables → Table Uuid ρ} {rest : Tables → δ}
    (affected : ρ → Bool) {revoked : ρ → ρ} (h : AltersAll get rest (fun r => some (revoked r))
      (((get v).rows.filter fun r => affected r.2).map Prod.fst) v v')
    (hkept : ∀ r, affected r = false → revoked r = r) :
    rest v' = rest v ∧ ∀ id, (get v').find id = ((get v).find id).map revoked := by
  refine ⟨h.1, fun id => ?_⟩
  rw [h.2]
  split
  · cases (get v).find id <;> rfl
  next hunlisted =>
  cases hfind : (get v).find id with
  | none => rfl
  | some r =>
  have haffected : affected r = false := by
    rw [← Bool.not_eq_true]
    intro hyes
    exact hunlisted (Table.mem_keys_filter.mpr ⟨r, hfind, hyes⟩)
  rw [Option.map_some, hkept r haffected]

theorem revokeRefreshTokens_ends :
    Ends remote C (Stretch o.begun db (Ahead o.begun.now (o.write db).rows)
        fun _ v => (v.rows.users, v.rows.authSessions) =
            ((o.write db).rows.users, (o.write db).rows.authSessions) ∧
          ∀ id, v.rows.refreshTokens.find id = ((o.write db).rows.refreshTokens.find id).map
            (revokedToken scope o.begun.now))
      (revokeRefreshTokens scope) (.active o) db := by
  have h : Ends remote C _ (revokeRefreshTokens scope) (.active o) db :=
    ends_forRows_noting _ _ (fun env _ => rfl) (Table.nodup_keys_filter _ _)
      (fun id v env e _ he => revokeRefreshToken_alters he)
      fun id v env _ he => revokeRefreshToken_refused he
  refine h.mono fun r s d hr => ?_
  cases hr with
  | done hbegun hpost =>
    have hall := revoked_all (·.affected scope : RefreshToken → Bool) hpost
      fun token htoken => by simp [revokedToken, htoken]
    exact .done hbegun hall
  | refused hbad => exact .refused (.inl hbad)

theorem revokeAccessTokens_ends :
    Ends remote C (Stretch o.begun db (Ahead o.begun.now (o.write db).rows)
        fun _ v => (v.rows.users, v.rows.refreshTokens) =
            ((o.write db).rows.users, (o.write db).rows.refreshTokens) ∧
          ∀ id, v.rows.authSessions.find id = ((o.write db).rows.authSessions.find id).map
            (revokedSession scope o.begun.now))
      (revokeAccessTokens scope) (.active o) db := by
  have h : Ends remote C _ (revokeAccessTokens scope) (.active o) db :=
    ends_forRows_noting _ _ (fun env _ => rfl) (Table.nodup_keys_filter _ _)
      (fun id v env e _ he => revokeAccessToken_alters he)
      fun id v env _ he => revokeAccessToken_refused he
  refine h.mono fun r s d hr => ?_
  cases hr with
  | done hbegun hpost =>
    have hall := revoked_all (·.affected scope : AuthSession → Bool) hpost
      fun session hsession => by simp [revokedSession, hsession]
    exact .done hbegun hall
  | refused hbad => exact .refused (.inr hbad)

/-- Both updates of a revocation. -/
private theorem revoke_ends {p q : Prog (Except Fault Nat)}
    (hp : p = revokeRefreshTokens scope) (hq : q = revokeAccessTokens scope) :
    Ends remote C (Stretch o.begun db (Ahead o.begun.now (o.write db).rows)
        fun _ v => Revoked scope o.begun.now (o.write db).rows v.rows)
      (do
        let .ok _ ← p | return .error Failure.database
        let .ok _ ← q | return .error Failure.database
        return .ok ()) (.active o) db := by
  subst hp hq
  refine ends_stretch revokeRefreshTokens_ends (fun _ o₁ hb₁ h₁ => ?_) fun _ hbad => .refused hbad
  obtain ⟨hrest₁, htokens⟩ := h₁
  obtain ⟨husers₁, hsessions₁⟩ := Prod.mk.inj hrest₁
  refine ends_stretch revokeAccessTokens_ends (fun _ o₂ hb₂ h₂ => ?_) fun _ hbad => ?_
  · obtain ⟨hrest₂, hsessions⟩ := h₂
    obtain ⟨husers₂, htokens₂⟩ := Prod.mk.inj hrest₂
    refine .done (hb₂.trans hb₁) ⟨fun id => ?_, fun id => ?_, husers₂.trans husers₁⟩
    · rw [htokens₂, htokens]
    · rw [hsessions, hsessions₁, hb₁]
  · -- a revoked token is as old as it was
    refine .refused ?_
    rw [hb₁] at hbad
    rcases hbad with ⟨id, token, hfind, hahead⟩ | ⟨id, session, hfind, hahead⟩
    · rw [htokens] at hfind
      obtain ⟨old, hold, rfl⟩ := Option.map_eq_some_iff.mp hfind
      exact .inl ⟨id, old, hold, hahead⟩
    · rw [hsessions₁] at hfind
      exact .inr ⟨id, session, hfind, hahead⟩

theorem revokeTokenFamily_ends :
    Ends remote C (Stretch o.begun db (Ahead o.begun.now (o.write db).rows)
        fun _ v => Revoked (.family familyId) o.begun.now (o.write db).rows v.rows)
      (revokeTokenFamily familyId) (.active o) db :=
  revoke_ends rfl rfl

theorem revokeUserSessions_ends :
    Ends remote C (Stretch o.begun db (Ahead o.begun.now (o.write db).rows)
        fun _ v => Revoked (.user userId) o.begun.now (o.write db).rows v.rows)
      (revokeUserSessions userId) (.active o) db :=
  revoke_ends rfl rfl

end Revocation

variable {t t' : Tables} {now : Time}

theorem Revoked.move {scope : Scope} (h : Revoked scope now t t') : Move seen lo hi t t' where
  users u hu := by
    rw [h.users]
    exact hu
  sessions id session hfind := by
    rw [h.sessions] at hfind
    obtain ⟨old, hold, rfl⟩ := Option.map_eq_some_iff.mp hfind
    exact .inr ⟨old, hold, rfl⟩
  tokens := .revokes _ h.tokens

/-- Nothing in order is from the future. -/
theorem Linear.not_ahead (hlin : Linear lo t) (h : lo ≤ now) :
    ¬ Ahead now t := by
  rintro (⟨id, token, hfind, hahead⟩ | ⟨id, session, hfind, hahead⟩)
  · have hcreated := hlin.created hfind
    exact Int.lt_irrefl _ (Int.lt_of_lt_of_le hahead (Int.le_trans hcreated h))
  · have hopened := hlin.opened hfind
    exact Int.lt_irrefl _ (Int.lt_of_lt_of_le hahead (Int.le_trans hopened h))

/-! ## Issuing tokens -/

section Issue

variable {ses : Session Database Key Env}

theorem newOpaqueToken_ends (leader : String) :
    Ends remote C (fun r s d => (s = ses ∧ d = db) ∧ ∀ token digest,
        r = some (token, digest) → ∃ env raw, C env ∧ env.random = some raw ∧
          digest = L.digest (leader ++ L.encode raw))
      (newOpaqueToken L leader) ses db := by
  refine ends_call fun env henv => ?_
  cases hraw : (remote.answer env (.random sessionTokenBytes) : Option Bytes) with
  | none => exact ⟨⟨rfl, rfl⟩, nofun⟩
  | some raw =>
  refine ⟨⟨rfl, rfl⟩, fun token digest h => ⟨env, raw, henv, ?_, ?_⟩⟩
  · exact (Option.filter_eq_some_iff.mp hraw).1
  · cases h
    rfl

theorem issueTokenPair_ends :
    Ends remote (Draw L seen lo hi) (fun r s d => (s = ses ∧ d = db) ∧ ∀ tokens,
        r = some tokens → Unissued seen tokens.refreshDigest)
      (issueTokenPair L) ses db := by
  refine ends_bind (newOpaqueToken_ends accessTokenPrefix) fun r s d h => ?_
  obtain ⟨⟨rfl, rfl⟩, -⟩ := h
  cases r with
  | none => exact ⟨⟨rfl, rfl⟩, nofun⟩
  | some access =>
  refine ends_bind (newOpaqueToken_ends refreshTokenPrefix) fun r s d h => ?_
  obtain ⟨⟨rfl, rfl⟩, hdraw⟩ := h
  cases r with
  | none => exact ⟨⟨rfl, rfl⟩, nofun⟩
  | some refresh =>
  refine ends_call fun env henv => ⟨⟨rfl, rfl⟩, fun tokens h => ?_⟩
  cases h
  obtain ⟨env, raw, henv, hraw, hdigest⟩ := hdraw _ _ rfl
  show Unissued seen refresh.2
  rw [hdigest]
  exact henv.token raw hraw

end Issue

/-! ## The calls -/

variable {o : Open Database Key Env}

/-- The access token that goes with a refresh token. -/
theorem createAccessToken_ends {tokens : TokenPair} :
    Ends remote C (Stretch o.begun db True fun _ v =>
        v.rows.users = (o.write db).rows.users ∧
        v.rows.refreshTokens = (o.write db).rows.refreshTokens ∧
        ∀ id session, v.rows.authSessions.find id = some session → session.createdAt = o.begun.now ∨
            (o.write db).rows.authSessions.find id = some session)
      (createAccessToken userId familyId tokens) (.active o) db := by
  refine ends_noting (fun env _ e o' he hbegun hrows => ?_) fun _ _ _ => .refused trivial
  refine .done hbegun ?_
  rw [hrows, createAuthSession_eq he]
  refine ⟨rfl, rfl, fun id session hfind => ?_⟩
  rcases Table.find_put_some.mp hfind with ⟨_, rfl⟩ | ⟨_, hold⟩
  · exact .inl rfl
  · exact .inr hold

/-- Sessions that were there, or have just been opened. -/
private theorem sessions_of_created (hnow : now ≤ hi)
    (h : ∀ id session, t'.authSessions.find id = some session →
      session.createdAt = now ∨ t.authSessions.find id = some session) :
    ∀ id session, t'.authSessions.find id = some session → session.createdAt ≤ hi ∨
      ∃ old, t.authSessions.find id = some old ∧ session.createdAt = old.createdAt := by
  intro id session hfind
  rcases h id session hfind with hnew | hold
  · rw [hnew]
    exact .inl hnow
  · exact .inr ⟨session, hold, rfl⟩

theorem createTokenFamily_moves (hmem : db.rows ∈ seen) (verified : PasswordHash) (userId : Uuid) :
    Ends remote (Draw L seen lo hi) (fun _ _ d => Move seen lo hi db.rows d.rows)
      (createTokenFamily L verified userId) .idle db := by
  refine ends_bind issueTokenPair_ends fun r s d h => ?_
  obtain ⟨⟨rfl, rfl⟩, hdraw⟩ := h
  cases r with
  | none => exact .refl _
  | some tokens =>
  have hunissued := hdraw tokens rfl
  refine ends_start fun env₀ henv₀ => ends_bind ?_ fun _ _ _ h => h
  refine ends_noting (fun env henv e o₁ he hb₁ hrows₁ => ?_) fun _ _ _ => .refl _
  obtain ⟨e', he', rfl⟩ := Option.map_eq_some_iff.mp he
  obtain ⟨-, habsent, howned, hwrite⟩ := insertRefreshToken_eq he'
  refine createAccessToken_ends.mono fun r s d h => ?_
  cases h with
  | refused _ => exact .refl _
  | @done _ o₂ hb₂ hpost =>
  obtain ⟨husers, htokens, hsessions⟩ := hpost
  have hrows₁ : (o₁.write d).rows = e'.write d.rows := hrows₁
  rw [hrows₁, hwrite] at husers htokens hsessions
  refine ends_commit ?_
  refine ⟨fun u hu => ?_, ?_, ?_⟩
  · rw [husers]
    exact hu
  · rw [hb₁] at hsessions
    exact sessions_of_created henv₀.now_hi hsessions
  · refine .opens env.uuid
      { userId := userId, familyId := env.family, tokenDigest := tokens.refreshDigest
        expiresAt := tokens.refreshExpiresAt, createdAt := env₀.now }
      ⟨habsent, hunissued, howned, henv₀.now_hi, rfl, rfl⟩ ?_ htokens
    exact henv.family d.rows hmem

theorem login_moves (hmem : db.rows ∈ seen) (email password : String) :
    Ends remote (Draw L seen lo hi) (fun _ _ d => Move seen lo hi db.rows d.rows)
      (login L email password) .idle db := by
  unfold login
  cases validateCredentials L email password with
  | none => exact .refl _
  | some normalized =>
  refine ends_start fun env₀ _ => ends_noting (fun env₁ _ e₁ o₁ _ _ _ => ?_) fun _ _ _ => .refl _
  refine ends_rollback ?_
  cases e₁.value with
  | none => exact .refl _
  | some found =>
  obtain ⟨id, stored⟩ := found
  show Ends _ _ _ (if _ then _ else _) _ _
  split
  · exact .refl _
  · refine ends_bind (createTokenFamily_moves hmem _ id) fun r s d h => ?_
    cases r with
    | error | ok => exact h

/-- What a refresh does with a token that is in order. -/
theorem rotate_moves (hmem : db.rows ∈ seen) (hbegun : Draw L seen lo hi o.begun)
    (hrows : (o.write db).rows = db.rows) {stored : StoredRefreshToken}
    (hfind : db.rows.refreshTokens.find stored.id = some token)
    (hdescribes : Describes stored token) :
    Ends remote (Draw L seen lo hi) (fun _ _ d => Move seen lo hi db.rows d.rows)
      (rotate L stored) (.active o) db := by
  refine ends_bind issueTokenPair_ends fun r s d h => ?_
  obtain ⟨⟨rfl, rfl⟩, hdraw⟩ := h
  cases r with
  | none => exact .refl _
  | some tokens =>
  refine ends_noting (fun env henv e₁ o₁ he₁ hb₁ hrows₁ => ?_) fun _ _ _ => .refl _
  obtain ⟨hvalue, habsent, howned, hwrite₁⟩ := insertRefreshToken_eq he₁
  rw [hrows] at habsent howned
  refine ends_noting (fun env₂ _ e₂ o₂ he₂ hb₂ hrows₂ => ?_) fun _ _ _ => .refl _
  show Ends _ _ _ (if _ then _ else _) _ _
  split
  · exact .refl _
  next hone =>
  obtain ⟨old, hold, hunrotated, hwrite₂⟩ :=
    markRefreshTokenRotated_eq he₂ (Decidable.not_not.mp hone)
  rw [hrows₁, hwrite₁, hrows] at hold hrows₂
  -- the token is the one that was locked
  rcases Table.find_put_some.mp hold with ⟨heq, _⟩ | ⟨_, hold⟩
  · rw [heq, habsent] at hfind
    cases hfind
  rw [hfind, Option.some.injEq] at hold
  subst hold
  refine ends_stretch createAccessToken_ends (fun _ o₃ hb₃ hpost => ?_) fun _ _ => .refl _
  obtain ⟨husers, htokens, hsessions⟩ := hpost
  rw [hrows₂, hwrite₂] at husers htokens hsessions
  refine ends_commit ?_
  refine ⟨fun u hu => ?_, ?_, ?_⟩
  · rw [husers]
    exact hu
  · rw [hb₂, hb₁] at hsessions
    exact sessions_of_created hbegun.now_hi hsessions
  · rw [hvalue] at htokens
    exact .rotates stored.id env.uuid token
      { userId := stored.userId, familyId := stored.familyId
        tokenDigest := tokens.refreshDigest, expiresAt := tokens.refreshExpiresAt
        createdAt := o.begun.now } _ hfind hunrotated
      ⟨habsent, hdraw tokens rfl, howned, hbegun.now_hi, rfl, rfl⟩
      hdescribes.familyId hbegun.lo_now htokens

theorem refresh_moves (hmem : db.rows ∈ seen) (text : String) :
    Ends remote (Draw L seen lo hi) (fun _ _ d => Move seen lo hi db.rows d.rows)
      (refresh L text) .idle db := by
  unfold refresh
  split
  · exact .refl _
  refine ends_start fun env₀ henv₀ => ends_noting (fun env₁ _ e o₁ he hb₁ hrows => ?_)
    fun _ _ _ => .refl _
  obtain ⟨hid, hstored⟩ := lockRefreshTokenForRotation_eq he
  have hrows : (o₁.write db).rows = db.rows := by
    rw [hrows, hid]
    rfl
  cases hvalue : e.value with
  | none => exact .refl _
  | some stored =>
  obtain ⟨token, hfind, -, hdescribes⟩ := hstored stored hvalue
  show Ends _ _ _ (if _ then _ else _) _ _
  split
  · refine ends_stretch revokeTokenFamily_ends (fun _ o₂ _ hrevoked => ?_) fun _ _ => .refl _
    refine ends_commit ?_
    rw [hrows] at hrevoked
    exact hrevoked.move
  refine ends_call fun env _ => ?_
  show Ends _ _ _ (if _ then _ else _) _ _
  split
  · exact .refl _
  have hbegun : Draw L seen lo hi o₁.begun := by
    rw [hb₁]
    exact henv₀
  exact rotate_moves hmem hbegun hrows hfind hdescribes

theorem logout_moves (text : String) (allSessions : Bool) :
    Ends remote C (fun _ _ d => Move seen lo hi db.rows d.rows)
      (logout L text allSessions) .idle db := by
  unfold logout
  split
  · exact .refl _
  refine ends_start fun env₀ henv₀ => ends_noting (fun env₁ _ e o₁ he hb₁ hrows => ?_)
    fun _ _ _ => .refl _
  have hrows : (o₁.write db).rows = db.rows := by
    rw [hrows, (lockRefreshTokenForRotation_eq he).1]
    rfl
  cases e.value with
  | none => exact .refl _
  | some stored =>
  refine ends_call fun env _ => ?_
  split
  · refine ends_stretch revokeUserSessions_ends (fun _ o₂ _ hrevoked => ?_) fun _ _ => .refl _
    refine ends_commit ?_
    rw [hrows] at hrevoked
    exact hrevoked.move
  refine ends_stretch revokeTokenFamily_ends (fun _ o₂ _ hrevoked => ?_) fun _ _ => .refl _
  refine ends_commit ?_
  rw [hrows] at hrevoked
  exact hrevoked.move

/-- The tokens and sessions are the same, and so are the users. -/
structure Aside (t t' : Tables) : Prop where
  tokens : t'.refreshTokens = t.refreshTokens
  sessions : t'.authSessions = t.authSessions
  users : ∀ u, (t.users.find u).isSome = true → (t'.users.find u).isSome = true

theorem Aside.refl (t : Tables) : Aside t t := ⟨rfl, rfl, fun _ h => h⟩

theorem completePasswordReset_aside {tokenId : Uuid} {passwordHash : PasswordHash}
    (h : completePasswordReset tokenId passwordHash begun env nobody v = some e) :
    Aside v (e.write v) := by
  unfold completePasswordReset at h
  repeat' split at h
  all_goals cases h
  all_goals first
    | exact .refl v
    | refine ⟨rfl, rfl, fun u hu => ?_⟩
      rw [Table.find_put_eq]
      split
      · rfl
      · exact hu

theorem invalidateActivePasswordResetTokens_ends :
    Ends remote C (Stretch o.begun db True fun _ v => Aside (o.write db).rows v.rows)
      (invalidateActivePasswordResetTokens userId) (.active o) db := by
  refine ends_noting (fun env _ e o₁ he hb₁ hrows => ?_) fun _ _ _ => .refused trivial
  cases he
  refine ends_forEach (fun _ v => Aside (o.write db).rows v.rows)
    (fun id rest v env e _ hinv he => ?_) (fun _ _ _ _ _ _ _ => trivial) hb₁ ?_
  · obtain ⟨e', he', -, -, hwrite⟩ := Stmt.noting_some he
    rw [hwrite]
    have hsame : Aside v.rows (e'.write v.rows) := by
      unfold invalidatePasswordResetToken at he'
      repeat' split at he'
      all_goals cases he'
      all_goals exact ⟨rfl, rfl, fun _ h => h⟩
    exact ⟨hsame.tokens.trans hinv.tokens, hsame.sessions.trans hinv.sessions,
      fun u hu => hsame.users u (hinv.users u hu)⟩
  · rw [hrows]
    exact .refl _

theorem resetPassword_moves (text newPassword : String) :
    Ends remote C (fun _ _ d => Move seen lo hi db.rows d.rows)
      (resetPassword L text newPassword) .idle db := by
  unfold resetPassword
  split
  · exact .refl _
  split
  · exact .refl _
  refine ends_bind (ends_call fun env _ => ?_) fun _ _ _ h => h
  cases (remote.answer env (.random argonSaltLength) : Option Bytes) with
  | none => exact .refl _
  | some salt =>
  show Ends _ _ _ (Tx.start >>= _) .idle db
  refine ends_start fun env₀ _ => ends_noting (fun env₁ _ e₁ o₁ he₁ hb₁ hrows₁ => ?_)
    fun _ _ _ => .refl _
  have hrows₁ : (o₁.write db).rows = db.rows := by
    rw [hrows₁]
    unfold lockPasswordResetToken at he₁
    split at he₁ <;> cases he₁ <;> rfl
  cases e₁.value with
  | none => exact .refl _
  | some stored =>
  refine ends_call fun env _ => ?_
  show Ends _ _ _ (if _ then _ else _) _ _
  split
  · exact .refl _
  refine ends_noting (fun env₂ _ e₂ o₂ he₂ hb₂ hrows₂ => ?_) fun _ _ _ => .refl _
  have haside₂ : Aside db.rows (o₂.write db).rows := by
    rw [hrows₂, ← hrows₁]
    exact completePasswordReset_aside he₂
  show Ends _ _ _ (if _ then _ else _) _ _
  split
  · exact .refl _
  refine ends_stretch invalidateActivePasswordResetTokens_ends
    (fun _ o₃ hb₃ haside₃ => ?_) fun _ _ => .refl _
  refine ends_stretch revokeUserSessions_ends (fun _ o₄ _ hrevoked => ?_) fun _ _ => .refl _
  refine ends_commit ?_
  refine ⟨fun u hu => ?_, fun id session hfind => ?_, .revokes
    (fun token => (revokedToken (.user stored.userId) o₃.begun.now token).revokedAt)
    fun id => ?_⟩
  · rw [hrevoked.users]
    exact haside₃.users u (haside₂.users u hu)
  · rw [hrevoked.sessions, haside₃.sessions, haside₂.sessions] at hfind
    obtain ⟨old, hold, rfl⟩ := Option.map_eq_some_iff.mp hfind
    exact .inr ⟨old, hold, rfl⟩
  · rw [hrevoked.tokens, haside₃.tokens, haside₂.tokens]
    rfl

/-! ## The clean-up -/

variable {batchSize : Nat}

theorem mem_expiredFamilies (id : Uuid) (hmem : familyId ∈ expiredFamilies t now batchSize)
    (hfind : t.refreshTokens.find id = some token) (hfamily : token.familyId = familyId) :
    token.expiresAt ≤ now := by
  have hlisted := (List.mem_filter.mp ((List.mem_insertionSort _).mp (List.mem_of_mem_take hmem))).2
  cases hlatest : familyExpiresAt t familyId with
  | none =>
    rw [hlatest] at hlisted
    cases hlisted
  | some latest =>
  rw [hlatest] at hlisted
  have hall := (List.max?_le_iff hlatest).mp (of_decide_eq_true hlisted)
  refine hall _ (List.mem_map_of_mem (List.mem_filter.mpr ⟨Table.mem_rows.mpr hfind, ?_⟩))
  simp [hfamily]

/-- Some tokens are gone, and with each of them its whole family, which has expired. -/
structure Cleaned (now : Time) (gone : Uuid → Bool) (t t' : Tables) : Prop where
  users : t'.users = t.users
  sessions : ∀ id session, t'.authSessions.find id = some session →
    t.authSessions.find id = some session
  tokens : ∀ id, t'.refreshTokens.find id =
    (t.refreshTokens.find id).filter fun token => !gone token.familyId
  expired : ∀ id token, t.refreshTokens.find id = some token →
    gone token.familyId = true → token.expiresAt ≤ now

theorem deleteAccessToken_alters (h : deleteAccessToken id begun env nobody v = some e) :
    Alters (fun t : Tables => t.authSessions) (fun t => (t.users, t.refreshTokens))
      (fun _ => none) id v (e.write v) := by
  unfold deleteAccessToken at h
  split at h
  all_goals cases h
  all_goals refine ⟨rfl, fun id' => ?_⟩
  all_goals split <;> simp_all [Table.find_drop_eq]

theorem deleteRefreshToken_alters (h : deleteRefreshToken id begun env nobody v = some e) :
    Alters (fun t : Tables => t.refreshTokens) (fun t => (t.users, t.authSessions))
      (fun _ => none) id v (e.write v) := by
  unfold deleteRefreshToken at h
  split at h
  all_goals cases h
  all_goals refine ⟨rfl, fun id' => ?_⟩
  all_goals split <;> simp_all [Table.find_drop_eq]

/-- A row is deleted, or is not there. -/
theorem deleteAccessToken_total (h : deleteAccessToken id begun env nobody v = none) :
    ∃ session, v.authSessions.find id = some session ∧ False := by
  unfold deleteAccessToken at h
  split at h <;> cases h

theorem deleteRefreshToken_total (h : deleteRefreshToken id begun env nobody v = none) :
    ∃ token, v.refreshTokens.find id = some token ∧ False := by
  unfold deleteRefreshToken at h
  split at h <;> cases h

theorem nodup_take_insertionSort {κ : Type} {l : List (κ × ρ)} {le : κ × ρ → κ × ρ → Prop}
    [DecidableRel le] (h : (l.map Prod.fst).Nodup) (n : Nat) :
    (((l.insertionSort le).take n).map Prod.fst).Nodup := by
  have hperm := (List.perm_insertionSort le l).map Prod.fst
  exact (hperm.nodup_iff.mpr h).sublist ((List.take_sublist _ _).map _)

theorem deleteExpiredOrRevokedAccessTokens_ends :
    Ends remote C (Stretch o.begun db True fun _ v =>
        (v.rows.users, v.rows.refreshTokens) =
          ((o.write db).rows.users, (o.write db).rows.refreshTokens) ∧
        ∀ id session, v.rows.authSessions.find id = some session →
          (o.write db).rows.authSessions.find id = some session)
      (deleteExpiredOrRevokedAccessTokens batchSize) (.active o) db := by
  have h : Ends remote C _ (deleteExpiredOrRevokedAccessTokens batchSize) (.active o) db :=
    ends_forRows_noting _ _
      (fun env _ => rfl) (nodup_take_insertionSort (Table.nodup_keys_filter _ _) _)
      (fun id v env e _ he => deleteAccessToken_alters he)
      fun id v env _ he => deleteAccessToken_total he
  refine h.mono fun r s d hr => ?_
  cases hr with
  | refused _ => exact .refused trivial
  | done hbegun hpost =>
  refine .done hbegun ⟨hpost.1, fun id session hfind => ?_⟩
  rw [hpost.2] at hfind
  split at hfind
  · simp at hfind
  · exact hfind

theorem deleteExpiredRefreshTokenFamilies_ends :
    Ends remote C (Stretch o.begun db True fun _ v =>
        (v.rows.users, v.rows.authSessions) =
          ((o.write db).rows.users, (o.write db).rows.authSessions) ∧
        ∀ id, v.rows.refreshTokens.find id =
          ((o.write db).rows.refreshTokens.find id).filter fun token =>
            !(expiredFamilies (o.write db).rows o.begun.now batchSize).contains token.familyId)
      (deleteExpiredRefreshTokenFamilies batchSize) (.active o) db := by
  refine ends_noting (fun env _ e o₁ he hb₁ hrows₁ => ?_) fun _ _ _ => .refused trivial
  cases he
  have hrows₁ : (o₁.write db).rows = (o.write db).rows := hrows₁
  refine ends_stretch (ends_alter _ _
    (fun id v env e _ he => plain_alters _ _ (fun v e he => deleteRefreshToken_alters he) he)
    (fun id v env _ he => deleteRefreshToken_total (Option.map_eq_none_iff.mp he))
    (Table.nodup_keys_filter _ _) hb₁ rfl) (fun _ o₂ hb₂ hpost => ?_)
    fun _ _ => .refused trivial
  obtain ⟨hrest, hfind⟩ := hpost
  dsimp only at hrest hfind
  refine ends_noting (fun env _ e o₃ he hb₃ hrows₃ => ?_) fun _ _ _ => .refused trivial
  have hrows₃ : (o₃.write db).rows = (o₂.write db).rows := by
    rw [hrows₃]
    unfold replacementsPresent at he
    split at he
    · cases he
    · cases he
      rfl
  refine .done (hb₃.trans hb₂) ?_
  rw [hrows₃, hrest, hrows₁]
  refine ⟨rfl, fun id => ?_⟩
  rw [hfind, hrows₁]
  cases hold : (o.write db).rows.refreshTokens.find id with
  | none => split <;> rfl
  | some token =>
  by_cases hgone : (expiredFamilies (o.write db).rows o.begun.now
      batchSize).contains token.familyId = true
  · rw [if_pos (Table.mem_keys_filter.mpr ⟨token, hold, hgone⟩), Option.filter_some, hgone]
    rfl
  · rw [if_neg, Option.filter_some, Bool.eq_false_iff.mpr hgone]
    · rfl
    · intro hlisted
      obtain ⟨token', hfind', hgone'⟩ := Table.mem_keys_filter.mp hlisted
      rw [hold, Option.some.injEq] at hfind'
      subst hfind'
      exact hgone hgone'

theorem Cleaned.refl (now : Time) (t : Tables) : Cleaned now (fun _ => false) t t where
  users := rfl
  sessions _ _ h := h
  tokens id := by cases t.refreshTokens.find id <;> rfl
  expired _ _ _ h := by cases h

theorem cleanupSessions_ends :
    Ends remote C (fun _ _ d => ∃ env gone, C env ∧ Cleaned env.now gone db.rows d.rows)
      cleanupSessions .idle db := by
  refine ends_start fun env henv => ?_
  refine ends_stretch deleteExpiredOrRevokedAccessTokens_ends (fun _ o₁ hb₁ h₁ => ?_)
    fun _ _ => ⟨env, _, henv, .refl _ _⟩
  obtain ⟨hrest₁, hsessions⟩ := h₁
  obtain ⟨husers₁, htokens₁⟩ := Prod.mk.inj hrest₁
  refine ends_stretch deleteExpiredRefreshTokenFamilies_ends (fun _ o₂ hb₂ h₂ => ?_)
    fun _ _ => ⟨env, _, henv, .refl _ _⟩
  obtain ⟨hrest₂, htokens⟩ := h₂
  obtain ⟨husers₂, hsessions₂⟩ := Prod.mk.inj hrest₂
  refine ends_commit ⟨env, fun f =>
    (expiredFamilies (o₁.write db).rows env.now cleanupFamilyBatch).contains f, henv, ?_⟩
  rw [hb₁] at htokens
  refine ⟨husers₂.trans husers₁, fun id session hfind => ?_, fun id => ?_,
    fun id token hfind hgone => ?_⟩
  · rw [hsessions₂] at hfind
    exact hsessions id session hfind
  · rw [htokens, htokens₁]
    rfl
  · refine mem_expiredFamilies id (List.contains_iff_mem.mp hgone) ?_ rfl
    rw [htokens₁]
    exact hfind

theorem Cleaned.move {gone : Uuid → Bool} (h : Cleaned now gone t t') : Move seen lo hi t t' where
  users u hu := by
    rw [h.users]
    exact hu
  sessions id session hfind := .inr ⟨session, h.sessions id session hfind, rfl⟩
  tokens := .forgets gone h.tokens

/-! ## Which tokens are accepted -/

/-- A session is issued for a token that has not been rotated or revoked, and has
not expired. -/
theorem refresh_accepts (text : String) :
    Ends remote C (fun r _ _ => ∀ outcome, r = .ok outcome → ∃ id token env,
        db.rows.refreshTokens.find id = some token ∧
        token.tokenDigest = L.digest text ∧ token.rotatedAt = none ∧
        token.revokedAt = none ∧ C env ∧ env.wall < token.expiresAt)
      (refresh L text) .idle db := by
  unfold refresh
  split
  · exact fun _ h => by cases h
  refine ends_start fun env₀ henv₀ => ends_noting (fun env₁ _ e o₁ he hb₁ hrows => ?_)
    fun _ _ _ _ h => by cases h
  obtain ⟨-, hstored⟩ := lockRefreshTokenForRotation_eq he
  cases hvalue : e.value with
  | none => exact fun _ h => by cases h
  | some stored =>
  obtain ⟨token, hfind, hdigest, hdescribes⟩ := hstored stored hvalue
  show Ends _ _ _ (if _ then _ else _) _ _
  split
  · refine ends_stretch revokeTokenFamily_ends (fun _ o₂ _ _ => ?_) fun _ _ _ h => by cases h
    exact ends_commit fun _ h => by cases h
  next hrotated =>
  refine ends_call fun env henv => ?_
  show Ends _ _ _ (if _ then _ else _) _ _
  split
  · exact fun _ h => by cases h
  next hlive =>
  refine ends_trivial (fun r s d outcome _ => ?_) _
  simp only [Bool.not_eq_true, Bool.or_eq_false_iff, Option.isSome_eq_false_iff,
    Option.isNone_iff_eq_none, decide_eq_false_iff_not, Int.not_le]
    at hrotated hlive
  refine ⟨stored.id, token, env, hfind, hdigest, ?_, ?_, henv, ?_⟩
  · rw [← hdescribes.rotatedAt]
    exact hrotated
  · rw [← hdescribes.revokedAt]
    exact hlive.1
  · rw [← hdescribes.expiresAt]
    exact hlive.2

variable {text : String}

theorem refresh_ok {env : Nat → Env} (hC : ∀ n, C (env n)) {outcome : Outcome}
    (hok : ((refresh L text).solo remote 0 env 0 .idle db ()).1 = .ok outcome) :
    ∃ id token env', db.rows.refreshTokens.find id = some token ∧
      token.tokenDigest = L.digest text ∧ token.rotatedAt = none ∧
      token.revokedAt = none ∧ C env' ∧ env'.wall < token.expiresAt :=
  solo_leaves hC (refresh_accepts text) 0 () outcome hok

/-- A token that has been rotated is taken for stolen. -/
theorem refresh_replayed (hlin : Linear lo db.rows) (hvalid : validRefreshToken L text = true)
    (hfind : db.rows.refreshTokens.find id = some token)
    (hdigest : token.tokenDigest = L.digest text) (hrotated : token.rotatedAt.isSome = true) :
    Ends remote (fun env => lo ≤ env.now)
      (fun _ _ d => ∃ now, Revoked (.family token.familyId) now db.rows d.rows)
      (refresh L text) .idle db := by
  unfold refresh
  rw [hvalid]
  refine ends_start fun env₀ henv₀ => ends_noting (fun env₁ _ e o₁ he hb₁ hrows => ?_)
    fun _ _ hno => ?_
  · have hrows : (o₁.write db).rows = db.rows := by
      rw [hrows, (lockRefreshTokenForRotation_eq he).1]
      rfl
    rw [← hdigest] at he
    obtain ⟨stored, hvalue, hdescribes⟩ := lockRefreshTokenForRotation_found hlin hfind he
    rw [hvalue]
    show Ends _ _ _ (if stored.rotatedAt.isSome = true then _ else _) _ _
    rw [hdescribes.rotatedAt, if_pos hrotated, hdescribes.familyId]
    refine ends_stretch revokeTokenFamily_ends (fun _ o₂ _ hrevoked => ?_) fun _ hbad => ?_
    · rw [hrows] at hrevoked
      exact ends_commit ⟨_, hrevoked⟩
    · rw [hrows, hb₁] at hbad
      exact (hlin.not_ahead henv₀ hbad).elim
  · unfold lockRefreshTokenForRotation at hno
    split at hno
    · cases hno
    · split at hno <;> cases hno

end WatchTrace.Proofs.Rotation
