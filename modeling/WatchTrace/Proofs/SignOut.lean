import WatchTrace.Proofs.Sessions

/-!
# Signing out

A revocation is meant to be the end of a family, or of all a user's sessions. It
is not if a token is being exchanged at that moment. The exchange holds the row
of the old token and has inserted the new one; the revocation waits for the
first and does not see the second, and when both have committed the new refresh
token is as good as ever. A password reset has the same gap. It has another one
as well: a login verifies the password in one transaction and opens its family
in the next, and a reset may come between the two.

As long as the transactions on the tokens of one user keep out of each other's
way the laws of the book hold in every state.
-/

namespace WatchTrace.Proofs.Sessions

open Tx Model.Auth Spec.Sessions Protocol
open Model (Uuid Time Bytes Failure)

abbrev System := Sys Database Key Env Call Unit

/-- `Refresh`, `Logout` and `ResetPassword`. -/
def SignsOut (L : Library) (p : Prog Unit) : Prop :=
  (∃ token, p = refresh L token >>= fun _ => pure ()) ∨
  (∃ token allSessions, p = logout L token allSessions >>= fun _ => pure ()) ∨
  ∃ token newPassword, p = resetPassword L token newPassword >>= fun _ => pure ()

/-- And `Login`. -/
def SignsIn (L : Library) (p : Prog Unit) : Prop :=
  SignsOut L p ∨ ∃ email password, p = login L email password >>= fun _ => pure ()

/-- No two transactions that are still at work have locked rows of one user. -/
def OneAtATime (s : System) : Prop :=
  ∀ (i j : Nat) (p q : Process Database Key Env Call), s.procs[i]? = some p →
    s.procs[j]? = some q → i ≠ j → ¬ p.Over → ¬ q.Over →
    ∀ u r r', .owned u r ∈ p.session.locks → .owned u r' ∉ q.session.locks

/-- Nor has the password of a user changed since it was verified for a family that
is being opened, and the family is a new one. -/
structure Undisturbed (s : System) : Prop where
  oneAtATime : OneAtATime s
  current : ∀ p ∈ s.procs, ¬ p.Over → ∀ o, p.session = .active o → Current o s.db

/-- A refresh token that `Refresh` would take at the time. -/
def usable (token : RefreshToken) (now : Time) : Bool :=
  token.rotatedAt.isNone && token.revokedAt.isNone && decide (now < token.expiresAt)

variable {L : Library} {Opens : Prop} {Fair : Open Database Key Env → Database → Prop}

variable {p : Prog Unit}

theorem signsOut_honours (h : SignsOut L p) (i : Nat) (x : Database × Unit)
    (hx : (book x.1).Sound) :
    (sessions Opens).Honours (sessionTerms Fair) remote i Done p .idle () x := by
  rcases h with ⟨token, rfl⟩ | ⟨token, allSessions, rfl⟩ | ⟨token, newPassword, rfl⟩
  · exact (refresh_honours hx).void
  · exact (logout_honours hx).void
  · exact (resetPassword_honours hx).void

theorem signsIn_honours (hopens : Opens) (hfair : ∀ o db, Fair o db → Current o db)
    (h : SignsIn L p) (i : Nat) (x : Database × Unit) (hx : (book x.1).Sound) :
    (sessions Opens).Honours (sessionTerms Fair) remote i Done p .idle () x := by
  rcases h with h | ⟨email, password, rfl⟩
  · exact signsOut_honours h i x hx
  · exact (login_honours hopens hfair hx).void

variable {s : System}

variable {F : Prog Unit → Prop} {C : System → Prop}

/-- Runs that keep the transactions of a user apart keep the terms. -/
theorem kept_of_apart (Fair : Open Database Key Env → Database → Prop)
    (hC : ∀ s, C s → OneAtATime s ∧
      ∀ p ∈ s.procs, ¬ p.Over → ∀ o, p.session = .active o → Fair o s.db) {s' : System}
    (hs : s.Apart) (h : StepsThrough remote F C s s') (tags : List Unit) :
    ∃ tags', KeptSteps (fun _ : Unit => sessionTerms Fair) remote (fun _ => F)
      (s, tags) (s', tags') ∧ s'.Apart := by
  obtain ⟨tags', hrun⟩ := h.tagged tags
  refine ⟨tags', TaggedSteps.mono hs hrun fun t ts hapart hc => ?_⟩
  obtain ⟨hone, hfair⟩ := hC t hc
  refine ⟨fun {i p u} hp _ hover => ?_, fun {i j p q u w} hp hq _ _ hij hpo hqo κ hκ => ?_⟩
  · cases hses : p.session with
    | idle | failed => trivial
    | active o => exact hfair p (List.mem_of_getElem? hp) hover o hses
  · cases κ with
    | inl key => exact hapart i j p q hp hq hij key hκ
    | inr user =>
      obtain ⟨r, hr⟩ := hκ
      rintro ⟨r', hr'⟩
      exact hone i j p q hp hq hij hpo hqo user r r' hr hr'

/-- What is not live is not usable. -/
theorem unusable_of_dead {db : Database} {P : Standing → Prop}
    (h : ∀ t s, (book db).token t = some s → P s → s.live = false) (now : Time) :
    (∀ id token, db.rows.refreshTokens.find id = some token →
      P ⟨token.userId, token.familyId, token.revokedAt.isNone⟩ → usable token now = false) ∧
    ∀ id session, db.rows.authSessions.find id = some session →
      P ⟨session.userId, session.familyId, session.revokedAt.isNone⟩ →
      session.usable now = false := by
  refine ⟨fun id token hfind hp => ?_, fun id session hfind hp => ?_⟩
  · have hdead := h (.refresh id) _ (standings_refresh hfind) hp
    simp only at hdead
    simp [usable, hdead]
  · have hdead := h (.access id) _ (standings_access hfind) hp
    simp only at hdead
    simp [AuthSession.usable, hdead]

/-! ## Revocation -/

/-- Once a revocation is noted no token in its scope is usable. -/
theorem revocation_complete {db : Database} {s : System} (hsound : (book db).Sound)
    (hnotes : db.notes = [])
    (hrun : StepsThrough remote (SignsOut L) OneAtATime (Sys.quiet db ()) s) :
    ∀ scope, .revoked scope ∈ s.db.notes → ∀ now,
      (∀ id token, s.db.rows.refreshTokens.find id = some token →
        scope.covers token.userId token.familyId = true → usable token now = false) ∧
      ∀ id session, s.db.rows.authSessions.find id = some session →
        scope.covers session.userId session.familyId = true → session.usable now = false := by
  obtain ⟨tags, hkept, -⟩ := kept_of_apart (fun _ _ => True)
    (fun t ht => ⟨ht, fun _ _ _ _ _ => trivial⟩) (Sys.apart_quiet db ()) hrun []
  have hF : ∀ (_ : Unit) (p : Prog Unit), SignsOut L p → ∀ i x, (sessions False).good x →
      (sessions False).Honours (sessionTerms fun _ _ => True) remote i Done p .idle
        () x := fun _ p hp i x hx => signsOut_honours hp i x hx
  obtain ⟨as, -, hrevoked⟩ := kept_invariant hF (fun p => (book p.1.1).Revoked)
    (fun {p q} hstep _ hp => by
      cases hstep with
      | spawn => exact hp
      | move _ hmove =>
      rcases hmove with hsame | ⟨hchange, hopens⟩
      · rwa [hsame]
      · exact hchange.revoked (hopens id) hp)
    (s := (Sys.quiet db (), [])) (honoured_quiet (x := (db, ())) hsound)
    (by
      intro scope hscope
      have hempty : .revoked scope ∈ db.notes := hscope
      rw [hnotes] at hempty
      cases hempty) hkept
  exact fun scope hscope => unusable_of_dead (P := fun st =>
    scope.covers st.userId st.familyId = true) (hrevoked scope hscope)

/-! ## Passwords -/

/-- Once the password of a user is another one than the login that opened a family
had verified, no token of the family is usable, from then on. -/
theorem reset_ends_sessions {db : Database} {s s' : System} (hsound : (book db).Sound)
    (hnotes : db.notes = [])
    (hrun : StepsThrough remote (SignsIn L) Undisturbed (Sys.quiet db ()) s)
    (hlater : StepsThrough remote (SignsIn L) Undisturbed s s') :
    ∀ familyId userId verified, .opened familyId userId verified ∈ s.db.notes →
      (∀ user, s.db.rows.users.find userId = some user → user.passwordHash ≠ verified) →
      ∀ now, (∀ id token, s'.db.rows.refreshTokens.find id = some token →
          token.familyId = familyId ∧ token.userId = userId → usable token now = false) ∧
        ∀ id session, s'.db.rows.authSessions.find id = some session →
          session.familyId = familyId ∧ session.userId = userId →
          session.usable now = false := by
  have hC : ∀ t : System, Undisturbed t → OneAtATime t ∧
      ∀ p ∈ t.procs, ¬ p.Over → ∀ o, p.session = .active o → Current o t.db :=
    fun t ht => ⟨ht.oneAtATime, ht.current⟩
  obtain ⟨tags, hkept, hapart⟩ := kept_of_apart Current hC (Sys.apart_quiet db ()) hrun []
  have hF : ∀ (_ : Unit) (p : Prog Unit), SignsIn L p → ∀ i x, (sessions True).good x →
      (sessions True).Honours (sessionTerms Current) remote i Done p .idle () x :=
    fun _ p hp i x hx => signsIn_honours trivial (fun _ _ => id) hp i x hx
  obtain ⟨as, has, hsettled⟩ := kept_invariant hF (fun p => (book p.1.1).Settled)
    (fun {p q} hstep _ hp => by
      cases hstep with
      | spawn => exact hp
      | move _ hmove =>
      rcases hmove with hsame | ⟨hchange, -⟩
      · rwa [hsame]
      · exact hchange.settled hp)
    (s := (Sys.quiet db (), [])) (honoured_quiet (x := (db, ())) hsound)
    (by
      intro f u h hnote
      have hempty : .opened f u h ∈ db.notes := hnote
      rw [hnotes] at hempty
      cases hempty) hkept
  intro familyId userId verified hnote hchanged
  have hdead : (book s.db).Dead familyId userId := by
    refine (hsettled familyId userId verified hnote).resolve_left fun hhash => ?_
    cases hfind : s.db.rows.users.find userId with
    | none => simp [book, hashes, info, hfind] at hhash
    | some user =>
      refine hchanged user hfind ?_
      simpa [book, hashes, info, Info.hash?, hfind] using hhash
  -- from here on the family stays dead, and the note of it stays
  obtain ⟨tags', hkept', -⟩ := kept_of_apart Current hC hapart hlater tags
  obtain ⟨as', -, -, hdead'⟩ := kept_invariant hF
    (fun p => .opened familyId userId verified ∈ (book p.1.1).notes ∧
      (book p.1.1).Dead familyId userId)
    (fun {p q} hstep _ hp => by
      cases hstep with
      | spawn => exact hp
      | move _ hmove =>
      rcases hmove with hsame | ⟨hchange, -⟩
      · rwa [hsame]
      · exact ⟨hchange.notes hp.1, hchange.dead hp.2 hp.1⟩)
    (s := (s, tags)) has ⟨hnote, hdead⟩ hkept'
  exact unusable_of_dead (P := fun st => st.familyId = familyId ∧ st.userId = userId)
    fun t st hst hp => hdead' t st hst hp.1 hp.2

/-! ## Two users of one family -/

variable {a : Act Database Key Env Call}

namespace Sample

/-- A library that is easy to compute with. -/
def library : Library where
  digest s := s.toList.map fun c => UInt8.ofNat c.toNat
  idKey password salt := (password.toList.map fun c => UInt8.ofNat c.toNat) ++ salt
  encode raw := String.ofList (raw.map fun b => Char.ofNat b.toNat)
  decode _ := some (List.replicate 32 0)
  fold s := s
  parseAddress s := some s
  foldColumn s := s

def hashed (password : String) (salt : UInt8) : PasswordHash :=
  { salt := List.replicate 16 salt
    key := library.idKey password (List.replicate 16 salt) }

/-- One user with a family of two tokens, the first of which has been rotated, and
with a reset token. -/
def tables : Tables where
  users := Table.empty.put 1
    { email := "a@b", passwordHash := hashed "old-password" 1, emailVerified := true }
  refreshTokens := (Table.empty.put 1
    { userId := 1, familyId := 5, tokenDigest := library.digest "wt_refresh_0"
      expiresAt := 1000, createdAt := 0, rotatedAt := some 1, replacedById := some 2 }).put 2
    { userId := 1, familyId := 5, tokenDigest := library.digest "wt_refresh_1"
      expiresAt := 1000, createdAt := 1 }
  authSessions := Table.empty
  userActionTokens := Table.empty.put 1
    { userId := 1, purpose := .passwordReset, tokenDigest := library.digest "wt_reset_0"
      expiresAt := 1000, createdAt := 0 }

def beginning : System := Sys.quiet ⟨tables, []⟩ ()

/-- Generators that hand out `n`. -/
def env (length : Nat) (n : Nat) : Env :=
  { now := 10, wall := 10, uuid := n, family := n
    random := some (List.replicate length (UInt8.ofNat (64 + n))) }

/-- Process `i` takes some steps. -/
def steps (i : Nat) (e : Env) (count : Nat) : List (Act Database Key Env Call) :=
  List.replicate count (.step i e .done)

theorem steps_within (F : Prog Unit → Prop) (i : Nat) (e : Env) (count : Nat) :
    ∀ a ∈ steps i e count, a.within F :=
  Act.within_replicate

def refreshing : Act Database Key Env Call :=
  .spawn (refresh library "wt_refresh_1" >>= fun _ => pure ())

def leaving : Act Database Key Env Call :=
  .spawn (logout library "wt_refresh_0" false >>= fun _ => pure ())

/-- The family is revoked while its newest token is being exchanged. -/
def exchanged : List (Act Database Key Env Call) :=
  refreshing :: steps 0 (env 32 3) 8 ++ leaving :: steps 1 (env 32 4) 4 ++
    steps 0 (env 32 3) 2 ++ steps 1 (env 32 4) 5

/-- One after the other. -/
def inTurn : List (Act Database Key Env Call) :=
  refreshing :: steps 0 (env 32 3) 11 ++ leaving :: steps 1 (env 32 4) 10

def enteringOld : Act Database Key Env Call :=
  .spawn (login library "a@b" "old-password" >>= fun _ => pure ())

def resetting : Act Database Key Env Call :=
  .spawn (resetPassword library "wt_reset_0" "new-password" >>= fun _ => pure ())

/-- The password is replaced between its verification and the new family. -/
def overtaken : List (Act Database Key Env Call) :=
  enteringOld :: steps 0 (env 32 3) 3 ++ resetting :: steps 1 (env 16 4) 11 ++ steps 0 (env 32 3) 7

/-- The family is there before the password is replaced. -/
def replaced : List (Act Database Key Env Call) :=
  enteringOld :: steps 0 (env 32 3) 11 ++ resetting :: steps 1 (env 16 4) 14

/-- The notes, the user's hash, and the newest token with what replaced the one
before. -/
def outcome (s : System) :
    List Note × Option PasswordHash × Option (Option Uuid) × Option (Uuid × Uuid × Bool) :=
  (s.db.notes, (s.db.rows.users.find 1).map UserRow.passwordHash,
    (s.db.rows.refreshTokens.find 2).map RefreshToken.replacedById,
    (s.db.rows.refreshTokens.find 3).map fun r => (r.userId, r.familyId, usable r 10))

/-- The users whose rows a process has locked. -/
def owners (p : Process Database Key Env Call) : List Uuid :=
  p.session.locks.filterMap fun κ => match κ with
    | .owned u _ => some u
    | .row _ => none

def oneAtATime (s : System) : Bool :=
  s.procs.zipIdx.all fun p => s.procs.zipIdx.all fun q =>
    p.2 == q.2 || (owners p.1).all fun u => !(owners q.1).contains u

theorem oneAtATime_sound (h : oneAtATime s = true) : OneAtATime s := by
  intro i j p q hp hq hij _ _ u r r' hr hr'
  have howner : ∀ {p : Process Database Key Env Call} {r : RowKey},
      .owned u r ∈ p.session.locks → u ∈ owners p :=
    fun hr => List.mem_filterMap.mpr ⟨_, hr, rfl⟩
  have hpair := List.all_eq_true.mp (List.all_eq_true.mp h (p, i)
    (List.mem_zipIdx_iff_getElem?.mpr hp)) (q, j) (List.mem_zipIdx_iff_getElem?.mpr hq)
  rw [Bool.or_eq_true] at hpair
  rcases hpair with heq | hall
  · exact hij (beq_iff_eq.mp heq)
  · have hno := List.all_eq_true.mp hall u (howner hr)
    rw [Bool.not_eq_true', ← Bool.not_eq_true, List.contains_iff_mem] at hno
    exact hno (howner hr')

/-- The note is of a family that is new, for a password that is still in use. -/
def timely (db : Database) : Note → Bool
  | .revoked _ => true
  | .opened f u h =>
    (db.rows.refreshTokens.rows.all fun r => r.2.familyId != f) &&
      (db.rows.authSessions.rows.all fun r => r.2.familyId != f) &&
      (db.notes.all fun n => match n with
        | .opened f' _ _ => f' != f
        | .revoked _ => true) &&
      (db.rows.users.find u).map UserRow.passwordHash == some h

def undisturbed (s : System) : Bool :=
  oneAtATime s && s.procs.all fun p => match p.session with
    | .active o => (o.pending s.db).all (timely s.db)
    | _ => true

theorem undisturbed_sound (h : undisturbed s = true) : Undisturbed s := by
  rw [undisturbed, Bool.and_eq_true] at h
  refine ⟨oneAtATime_sound h.1, fun p hp _ o ho f u g hnote => ?_⟩
  have hp' := List.all_eq_true.mp h.2 p hp
  rw [ho] at hp'
  have htimely := List.all_eq_true.mp hp' _ hnote
  simp only [timely, Bool.and_eq_true, beq_iff_eq, List.all_eq_true] at htimely
  obtain ⟨⟨⟨hrefresh, haccess⟩, hnotes⟩, hhash⟩ := htimely
  refine ⟨⟨fun id row hfind => ?_, fun id row hfind => ?_, fun v k hmem => ?_⟩, ?_⟩
  · exact bne_iff_ne.mp (hrefresh (id, row) (Table.mem_rows.mpr hfind))
  · exact bne_iff_ne.mp (haccess (id, row) (Table.mem_rows.mpr hfind))
  · exact bne_iff_ne.mp (hnotes _ hmem) rfl
  · exact Option.map_eq_some_iff.mp hhash

theorem beginning_sound : (book beginning.db).Sound := by
  have hall : ∀ t s, (book beginning.db).token t = some s → s.userId = 1 := by
    intro t s hs
    cases t with
    | refresh id =>
      cases hfind : tables.refreshTokens.find id with
      | none =>
        have hnone : (book beginning.db).token (.refresh id) = none := by
          simp [book, beginning, Sys.quiet, standings, rowOf, info, hfind]
        rw [hnone] at hs
        cases hs
      | some row =>
      cases (standings_refresh (t := beginning.db.rows) hfind).symm.trans hs
      have hrows : ∀ r ∈ tables.refreshTokens.rows, r.2.userId = 1 := by decide +kernel
      exact hrows (id, row) (Table.mem_rows.mpr hfind)
    | access id => cases hs
  intro t t' s s' hs hs' _
  rw [hall t s hs, hall t' s' hs']

theorem refreshing_within (h : a = refreshing ∨ a = leaving ∨ a = resetting) :
    a.within (SignsOut library) := by
  rcases h with rfl | rfl | rfl
  · exact .inl ⟨_, rfl⟩
  · exact .inr (.inl ⟨_, _, rfl⟩)
  · exact .inr (.inr ⟨_, _, rfl⟩)

theorem entering_within (h : a = enteringOld ∨ a = resetting) :
    a.within (SignsIn library) := by
  rcases h with rfl | rfl
  · exact .inr ⟨_, _, rfl⟩
  · exact .inl (.inr (.inr ⟨_, _, rfl⟩))

theorem exchanged_within : ∀ a ∈ exchanged, a.within (SignsOut library) := by
  simp only [exchanged, List.forall_mem_append, List.forall_mem_cons]
  exact ⟨⟨⟨⟨refreshing_within (.inl rfl), steps_within _ _ _ _⟩,
    refreshing_within (.inr (.inl rfl)), steps_within _ _ _ _⟩, steps_within _ _ _ _⟩,
    steps_within _ _ _ _⟩

theorem inTurn_within : ∀ a ∈ inTurn, a.within (SignsOut library) := by
  simp only [inTurn, List.forall_mem_append, List.forall_mem_cons]
  exact ⟨⟨refreshing_within (.inl rfl), steps_within _ _ _ _⟩,
    refreshing_within (.inr (.inl rfl)), steps_within _ _ _ _⟩

theorem overtaken_within : ∀ a ∈ overtaken, a.within (SignsIn library) := by
  simp only [overtaken, List.forall_mem_append, List.forall_mem_cons]
  exact ⟨⟨⟨entering_within (.inl rfl), steps_within _ _ _ _⟩,
    entering_within (.inr rfl), steps_within _ _ _ _⟩, steps_within _ _ _ _⟩

theorem replaced_within : ∀ a ∈ replaced, a.within (SignsIn library) := by
  simp only [replaced, List.forall_mem_append, List.forall_mem_cons]
  exact ⟨⟨entering_within (.inl rfl), steps_within _ _ _ _⟩,
    entering_within (.inr rfl), steps_within _ _ _ _⟩

/-- What a schedule has come to. -/
theorem outcome_some (test : System → Bool) (htest : ∀ s, test s = true → C s)
    {acts : List (Act Database Key Env Call)} (hacts : ∀ a ∈ acts, a.within F)
    (notes : List Note) (hash : PasswordHash) (next : Option Uuid) (family : Uuid) (good : Bool)
    (h : (beginning.runThrough remote test acts).map outcome =
      some (notes, some hash, some next, some (1, family, good))) :
    ∃ s user old token, StepsThrough remote F C beginning s ∧ s.db.notes = notes ∧
      s.db.rows.users.find 1 = some user ∧ user.passwordHash = hash ∧
      s.db.rows.refreshTokens.find 2 = some old ∧ old.replacedById = next ∧
      s.db.rows.refreshTokens.find 3 = some token ∧ token.userId = 1 ∧
      token.familyId = family ∧ usable token 10 = good := by
  obtain ⟨s, hs, hvalues⟩ := Option.map_eq_some_iff.mp h
  simp only [outcome, Prod.mk.injEq, Option.map_eq_some_iff] at hvalues
  obtain ⟨hnotes, ⟨user, huser, hhash⟩, ⟨old, hold, hnext⟩, token, htoken, hrow⟩ := hvalues
  exact ⟨s, user, old, token, Sys.runThrough_steps htest hacts hs, hnotes, huser, hhash, hold,
    hnext, htoken, hrow.1, hrow.2.1, hrow.2.2⟩

end Sample

open Sample

/-- The token is exchanged, and then the family revoked. -/
theorem revocation_complete_sample : ∃ s token,
    StepsThrough remote (SignsOut library) OneAtATime beginning s ∧
    .revoked (.family 5) ∈ s.db.notes ∧ s.db.rows.refreshTokens.find 3 = some token ∧
    token.familyId = 5 ∧ usable token 10 = false := by
  obtain ⟨s, user, old, token, hrun, hnotes, -, -, -, -, hfind, -, hfamily, -⟩ :=
    outcome_some oneAtATime (fun _ => oneAtATime_sound)
      inTurn_within [.revoked (.family 5)] (hashed "old-password" 1) (some 3) 5
      false
      rfl
  have hnote : .revoked (.family 5) ∈ s.db.notes := hnotes ▸ List.mem_cons_self
  refine ⟨s, token, hrun, hnote, hfind, hfamily, ?_⟩
  exact (revocation_complete beginning_sound rfl hrun _ hnote 10).1 3 token hfind
    (beq_iff_eq.mpr hfamily)

/-- The newest token is being exchanged when the family is revoked, and what it is
exchanged for is still good. -/
theorem revocation_gap : (book beginning.db).Sound ∧ ∃ s old token,
    StepsThrough remote (SignsOut library) (fun _ => True) beginning s ∧
    .revoked (.family 5) ∈ s.db.notes ∧
    s.db.rows.refreshTokens.find 2 = some old ∧ old.replacedById = some 3 ∧
    s.db.rows.refreshTokens.find 3 = some token ∧ token.familyId = 5 ∧
    usable token 10 = true := by
  obtain ⟨s, user, old, token, hrun, hnotes, -, -, hold, hnext, hfind, -, hfamily, hgood⟩ :=
    outcome_some (C := fun _ => True) (fun _ => true) (fun _ _ => trivial)
      exchanged_within [.revoked (.family 5)] (hashed "old-password" 1) (some 3) 5
      true
      rfl
  exact ⟨beginning_sound, s, old, token, hrun, hnotes ▸ List.mem_cons_self, hold, hnext,
    hfind, hfamily, hgood⟩

/-- The family is there when the password is replaced. -/
theorem reset_ends_sessions_sample : ∃ s token,
    StepsThrough remote (SignsIn library) Undisturbed beginning s ∧
    .opened 3 1 (hashed "old-password" 1) ∈ s.db.notes ∧
    s.db.rows.refreshTokens.find 3 = some token ∧ token.familyId = 3 ∧
    usable token 10 = false := by
  obtain ⟨s, user, old, token, hrun, hnotes, huser, hhash, -, -, hfind, hid, hfamily, -⟩ :=
    outcome_some undisturbed (fun _ => undisturbed_sound) replaced_within
      [.opened 3 1 (hashed "old-password" 1), .revoked (.user 1)]
      (hashed "new-password" 68) none 3 false
      rfl
  have hnote : .opened 3 1 (hashed "old-password" 1) ∈ s.db.notes :=
    hnotes ▸ List.mem_cons_self
  refine ⟨s, token, hrun, hnote, hfind, hfamily, ?_⟩
  refine (reset_ends_sessions beginning_sound rfl hrun .refl 3 1 _ hnote ?_ 10).1 3 token
    hfind ⟨hfamily, hid⟩
  intro user' huser'
  rw [huser, Option.some.injEq] at huser'
  rw [← huser', hhash]
  decide +kernel

/-- The password is replaced after the login has verified it, and the family the
login opens is good. -/
theorem reset_gap : (book beginning.db).Sound ∧ ∃ s user token,
    StepsThrough remote (SignsIn library) (fun _ => True) beginning s ∧
    .revoked (.user 1) ∈ s.db.notes ∧
    .opened 3 1 (hashed "old-password" 1) ∈ s.db.notes ∧
    s.db.rows.users.find 1 = some user ∧
    user.passwordHash ≠ hashed "old-password" 1 ∧
    s.db.rows.refreshTokens.find 3 = some token ∧ token.familyId = 3 ∧
    token.userId = 1 ∧ usable token 10 = true := by
  obtain ⟨s, user, old, token, hrun, hnotes, huser, hhash, -, -, hfind, hid, hfamily, hgood⟩ :=
    outcome_some (C := fun _ => True) (fun _ => true) (fun _ _ => trivial) overtaken_within
      [.revoked (.user 1), .opened 3 1 (hashed "old-password" 1)]
      (hashed "new-password" 68) none 3 true
      rfl
  refine ⟨beginning_sound, s, user, token, hrun, ?_, ?_, huser, ?_, hfind, hfamily, hid, hgood⟩
  · exact hnotes ▸ List.mem_cons_self
  · exact hnotes ▸ List.mem_cons_of_mem _ List.mem_cons_self
  · rw [hhash]
    decide +kernel

end WatchTrace.Proofs.Sessions
