import WatchTrace.Proofs.Invitations
import WatchTrace.Tx.Terms

/-!
# A token is good for one membership

The runs of `Invite` and `AcceptInvitation`, read as runs of the protocol. An
answer is preceded by a win, and a win by an open row; closing the row is what the
win consists of. So the digests of answers and of calls that are about to answer are
all different, and all closed (`Wins`). A digest that was closed by another
invitation is closed as well, and nobody can win with it any more (`Barred`).
-/

namespace WatchTrace.Proofs.Joining

open Tx Model Model.Ownership Protocol

variable {L : Library} {x y : Database}

/-! ## What the moves do to a token

A digest whose row is closed stays so, and no call can win with it again. -/

/-- The row with the digest is there, and closed. -/
def Closed (x : Database) (d : Bytes) : Prop :=
  ∃ id r, (Invitations x).find id = some r ∧ r.acceptedAt ≠ none ∧ r.tokenDigest = d

variable {id : Uuid} {r : OrgInvitation}

theorem Constrained.not_closed (h : Constrained L x) (hr : (Invitations x).find id = some r)
    (hopen : r.acceptedAt = none) :
    ¬ Closed x r.tokenDigest := by
  rintro ⟨id', r', hr', hclosed, hdigest⟩
  obtain rfl := h.digest hr' hr hdigest
  rw [hr] at hr'
  cases hr'
  exact hclosed hopen

theorem Spent.closed_self (h : Spent id r x y) :
    Closed y r.tokenDigest := by
  obtain ⟨t, hclosed⟩ := h.closed
  refine ⟨id, _, (hclosed id).trans (if_pos rfl), fun hnone => ?_, rfl⟩
  cases hnone

variable {d : Bytes}

theorem Spent.closed_of (h : Spent id r x y) (hd : Closed x d) : Closed y d := by
  obtain ⟨k, s, hs, hclosed, rfl⟩ := hd
  obtain ⟨t, hrows⟩ := h.closed
  have hne : k ≠ id := by
    rintro rfl
    rw [h.row] at hs
    cases hs
    exact hclosed h.isOpen
  exact ⟨k, s, (hrows k).trans ((if_neg hne).trans hs), hclosed, rfl⟩

theorem Issued.closed_of (h : Issued L id r x y) (hd : Closed x d) : Closed y d := by
  obtain ⟨k, s, hs, hclosed, rfl⟩ := hd
  have hne : k ≠ id := by
    rintro rfl
    rw [h.absent] at hs
    cases hs
  rcases h.others k hne with hsame | ⟨u, u', hu, ⟨hopen, -⟩, -⟩
  · exact ⟨k, s, hsame.trans hs, hclosed, rfl⟩
  · rw [hs] at hu
    cases hu
    exact absurd hopen hclosed

variable {a : Phase}

theorem Move.closed_of {a' : Phase} {X Y : Database × List Response} (h : Move L a X a' Y)
    (hd : Closed X.1 d) : Closed Y.1 d := by
  cases h with
  | stay => exact hd
  | issue h | spend h _ => exact h.closed_of hd
  | accept h => exact h.toSpent.closed_of hd
  | respond => exact hd

/-! ## The calls that have won -/

/-- What is true of the answers and of the calls that are about to answer, where `H`
is what there is to say about each of them. No two of them have used one digest. -/
structure Wins (L : Library) (H : AuthUser → String → Uuid → OrgInvitation → Prop)
    (X : Database × List Response) (as : List Phase) : Prop where
  won : ∀ {i : Nat} {user token id r}, as[i]? = some (.won user token id r) →
    H user token id r ∧ Closed X.1 (L.digest token)
  told : ∀ p ∈ X.2, Closed X.1 (L.digest p.token) ∧
    ∃ id r, H p.user p.token id r ∧ p = OrgInvitation.response r p.user p.token
  apart : ∀ {i j : Nat} {user token id r user' token' id' r'},
    as[i]? = some (.won user token id r) → as[j]? = some (.won user' token' id' r') → i ≠ j →
    L.digest token ≠ L.digest token'
  untold : ∀ p ∈ X.2, ∀ {i : Nat} {user token id r}, as[i]? = some (.won user token id r) →
    L.digest p.token ≠ L.digest token
  once : X.2.Pairwise fun p q => L.digest p.token ≠ L.digest q.token

variable {i : Nat} {user : AuthUser}

variable {j : Nat} {b : Phase} {w : List Response}

section Wins

variable {H H' : AuthUser → String → Uuid → OrgInvitation → Prop}
variable {X Y : Database × List Response} {as bs : List Phase}

theorem wins_nil : Wins L H (x, []) [] where
  won := nofun
  told := nofun
  apart := nofun
  untold := nofun
  once := .nil

/-- Calls that have not won yet, or have answered, come and go. -/
theorem Wins.congr (h : Wins L H X as) (hH : ∀ {user token id r}, H user token id r →
      H' user token id r)
    (hclosed : ∀ {d}, Closed X.1 d → Closed Y.1 d) (hresponses : Y.2 = X.2)
    (hwon : ∀ {i : Nat} {user token id r}, bs[i]? = some (.won user token id r) →
      as[i]? = some (.won user token id r)) : Wins L H' Y bs where
  won := fun hi => ⟨hH (h.won (hwon hi)).1, hclosed (h.won (hwon hi)).2⟩
  told := by
    intro p hp
    rw [hresponses] at hp
    obtain ⟨hused, id, r, hpast, hp⟩ := h.told p hp
    exact ⟨hclosed hused, id, r, hH hpast, hp⟩
  apart := fun hi hj => h.apart (hwon hi) (hwon hj)
  untold := by
    intro p hp i user token id r hi
    rw [hresponses] at hp
    exact h.untold p hp (hwon hi)
  once := by
    rw [hresponses]
    exact h.once

theorem getElem?_spawn {token : String}
    (h : (as ++ [Phase.calling])[i]? = some (.won user token id r)) :
    as[i]? = some (.won user token id r) := by
  rw [List.getElem?_append] at h
  split at h
  · exact h
  rw [List.getElem?_singleton] at h
  split at h
  · cases h
  · cases h

theorem getElem?_set_same (hi : as[i]? = some a) (h : (as.set i a)[j]? = some b) :
    as[j]? = some b := by
  rw [List.getElem?_set] at h
  split at h
  · next hij =>
    subst hij
    split at h
    · rw [hi]
      exact h
    · cases h
  · exact h

theorem getElem?_set_cases (h : (as.set i a)[j]? = some b) :
    (j = i ∧ b = a) ∨ (j ≠ i ∧ as[j]? = some b) := by
  rw [List.getElem?_set] at h
  split at h
  · next hij =>
    split at h
    · cases h
      exact .inl ⟨hij.symm, rfl⟩
    · cases h
  · next hij => exact .inr ⟨fun heq => hij heq.symm, h⟩

/-- A win: the row was open, so nobody has used its digest before. -/
theorem Wins.accept {token : String} (h : Wins L H (x, w) as) (hgood : Constrained L x)
    (haccepted : Accepted L user token id r x y)
    (hH : ∀ {user token id r}, H user token id r → H' user token id r)
    (hnew : H' user token id r) :
    Wins L H' (y, w) (as.set i (.won user token id r)) := by
  have hunused : ¬ Closed x (L.digest token) := by
    rw [← haccepted.digest]
    exact hgood.not_closed haccepted.row haccepted.isOpen
  have hkeep : ∀ {d}, Closed x d → Closed y d := haccepted.toSpent.closed_of
  have hself : Closed y (L.digest token) := by
    rw [← haccepted.digest]
    exact haccepted.toSpent.closed_self
  refine ⟨fun hj => ?_, fun p hp => ?_, fun hj hk hne heq => ?_, fun p hp => ?_, h.once⟩
  · rcases getElem?_set_cases hj with ⟨rfl, heq⟩ | ⟨-, hold⟩
    · cases heq
      exact ⟨hnew, hself⟩
    · exact ⟨hH (h.won hold).1, hkeep (h.won hold).2⟩
  · obtain ⟨hused, id', r', hpast, hp⟩ := h.told p hp
    exact ⟨hkeep hused, id', r', hH hpast, hp⟩
  · rcases getElem?_set_cases hj with ⟨rfl, hnewj⟩ | ⟨-, holdj⟩
    · rcases getElem?_set_cases hk with ⟨rfl, -⟩ | ⟨-, holdk⟩
      · exact hne rfl
      · cases hnewj
        exact hunused (heq ▸ (h.won holdk).2)
    · rcases getElem?_set_cases hk with ⟨rfl, hnewk⟩ | ⟨-, holdk⟩
      · cases hnewk
        exact hunused (heq ▸ (h.won holdj).2)
      · exact h.apart holdj holdk hne heq
  · intro j user' token' id' r' hj heq
    rcases getElem?_set_cases hj with ⟨rfl, hnewj⟩ | ⟨-, holdj⟩
    · cases hnewj
      exact hunused (heq ▸ (h.told p hp).1)
    · exact h.untold p hp holdj heq

/-- An answer. -/
theorem Wins.respond {token : String} (h : Wins L H (x, w) as)
    (hi : as[i]? = some (.won user token id r))
    (hH : ∀ {user token id r}, H user token id r → H' user token id r) :
    Wins L H' (x, w ++ [OrgInvitation.response r user token]) (as.set i .told) := by
  have hold : ∀ {j : Nat} {user' token' id' r'},
      (as.set i .told)[j]? = some (Phase.won user' token' id' r') →
      j ≠ i ∧ as[j]? = some (.won user' token' id' r') := by
    intro j user' token' id' r' hj
    rcases getElem?_set_cases hj with ⟨-, hj⟩ | hj
    · cases hj
    · exact hj
  refine ⟨fun hj => ?_, fun p hp => ?_, fun hj hk => h.apart (hold hj).2 (hold hk).2,
    fun p hp j _ _ _ _ hj => ?_, ?_⟩
  · exact ⟨hH (h.won (hold hj).2).1, (h.won (hold hj).2).2⟩
  · rcases List.mem_append.mp hp with hp | hp
    · obtain ⟨hused, id', r', hpast, hp⟩ := h.told p hp
      exact ⟨hused, id', r', hH hpast, hp⟩
    · obtain rfl := List.mem_singleton.mp hp
      exact ⟨(h.won hi).2, id, r, hH (h.won hi).1, rfl⟩
  · rcases List.mem_append.mp hp with hp | hp
    · exact h.untold p hp (hold hj).2
    · obtain rfl := List.mem_singleton.mp hp
      exact h.apart hi (hold hj).2 fun heq => (hold hj).1 heq.symm
  · refine List.pairwise_append.mpr ⟨h.once, List.pairwise_singleton _ _, fun p hp q hq => ?_⟩
    obtain rfl := List.mem_singleton.mp hq
    exact h.untold p hp hi

theorem Wins.step (h : Wins L H X as) (hgood : Constrained L X.1)
    (hstep : AbsStep (protocol L) (X, as) (Y, bs))
    (hH : ∀ {user token id r}, H user token id r → H' user token id r)
    (hnew : ∀ {user token id r}, Accepted L user token id r X.1 Y.1 → H' user token id r) :
    Wins L H' Y bs := by
  cases hstep with
  | spawn => exact h.congr hH (fun hd => hd) rfl getElem?_spawn
  | @move _ _ _ i a a' hi hm =>
  have hmove : Move L a X a' Y := hm
  cases hmove with
  | stay => exact h.congr hH (fun hd => hd) rfl (getElem?_set_same hi)
  | issue hissued => exact h.congr hH hissued.closed_of rfl (getElem?_set_same hi)
  | spend hspent _ => exact h.congr hH hspent.closed_of rfl (getElem?_set_same hi)
  | accept haccepted => exact h.accept hgood haccepted hH (hnew haccepted)
  | respond => exact h.respond hi hH

end Wins

/-! ## Invitations that have been replaced -/

/-- A new row for the organization and the address of one that was open. -/
structure Replaces (L : Library) (id : Uuid) (r : OrgInvitation) (x y : Database) : Prop where
  row : (Invitations x).find id = some r
  isOpen : r.acceptedAt = none
  another : ∃ id' r', (Invitations x).find id' = none ∧ (Invitations y).find id' = some r' ∧
    addressOf L r' = addressOf L r

/-- Nobody has used the digest, and nobody can. -/
structure Barred (L : Library) (d : Bytes) (X : Database × List Response) (as : List Phase) :
    Prop where
  closed : Closed X.1 d
  told : ∀ p ∈ X.2, L.digest p.token ≠ d
  won : ∀ {i : Nat} {user token id r}, as[i]? = some (.won user token id r) → L.digest token ≠ d

section Barred

variable {H : AuthUser → String → Uuid → OrgInvitation → Prop} {d : Bytes}
variable {X Y : Database × List Response} {as bs : List Phase}

theorem Barred.step (h : Barred L d X as) (hgood : Constrained L X.1)
    (hstep : AbsStep (protocol L) (X, as) (Y, bs)) : Barred L d Y bs := by
  cases hstep with
  | spawn => exact ⟨h.closed, h.told, fun hi => h.won (getElem?_spawn hi)⟩
  | @move _ _ _ i a a' hi hm =>
  have hmove : Move L a X a' Y := hm
  have hclosed : Closed Y.1 d := hmove.closed_of h.closed
  cases hmove with
  | stay | issue | spend => exact ⟨hclosed, h.told, fun hj => h.won (getElem?_set_same hi hj)⟩
  | accept haccepted =>
    refine ⟨hclosed, h.told, fun hj heq => ?_⟩
    rcases getElem?_set_cases hj with ⟨rfl, hnew⟩ | ⟨-, hold⟩
    · -- the row it won with was open
      cases hnew
      rw [← haccepted.digest] at heq
      exact hgood.not_closed haccepted.row haccepted.isOpen (heq ▸ h.closed)
    · exact h.won hold heq
  | respond =>
    refine ⟨hclosed, fun p hp => ?_, fun hj => ?_⟩
    · rcases List.mem_append.mp hp with hp | hp
      · exact h.told p hp
      · obtain rfl := List.mem_singleton.mp hp
        exact h.won hi
    · rcases getElem?_set_cases hj with ⟨-, hnew⟩ | ⟨-, hold⟩
      · cases hnew
      · exact h.won hold

theorem Replaces.not_same (h : Replaces L id r x y) :
    ¬ ∀ k, (Invitations x).find k = none → (Invitations y).find k = none := by
  intro hsame
  obtain ⟨id', r', habsent, hthere, -⟩ := h.another
  rw [hsame id' habsent] at hthere
  cases hthere

theorem Spent.absent (h : Spent id r x y) :
    ∀ k, (Invitations x).find k = none → (Invitations y).find k = none := by
  intro k hk
  obtain ⟨t, hclosed⟩ := h.closed
  rw [hclosed, if_neg]
  · exact hk
  · rintro rfl
    rw [h.row] at hk
    cases hk

/-- The new row is that of an `Invite`, which closes the old one. -/
theorem Issued.closes {id' : Uuid} {r' : OrgInvitation} (h : Issued L id' r' x y)
    (hreplaces : Replaces L id r x y) : Closed y r.tokenDigest := by
  have hne : id ≠ id' := by
    rintro rfl
    have hrow := hreplaces.row
    rw [h.absent] at hrow
    cases hrow
  have hsole := fun s hs hopen => h.sole id s hne hs hopen
  obtain ⟨k, s, habsent, hthere, haddress⟩ := hreplaces.another
  have hk : k = id' := by
    by_contra hk
    rcases h.others k hk with hsame | ⟨u, u', hu, -⟩
    · rw [hsame, habsent] at hthere
      cases hthere
    · rw [habsent] at hu
      cases hu
  subst hk
  rw [h.row] at hthere
  cases hthere
  rcases h.others id hne with hsame | ⟨u, u', hu, ⟨-, t, rfl⟩, hu'⟩
  · exact absurd haddress.symm (hsole r (hsame.trans hreplaces.row) hreplaces.isOpen)
  · rw [hreplaces.row] at hu
    cases hu
    exact ⟨id, _, hu', fun hnone => (by cases hnone), rfl⟩

theorem Wins.barred (h : Wins L H X as) (hgood : Constrained L X.1)
    (hstep : AbsStep (protocol L) (X, as) (Y, bs))
    (hreplaces : Replaces L id r X.1 Y.1) : Barred L r.tokenDigest Y bs := by
  have hunused : ¬ Closed X.1 r.tokenDigest := hgood.not_closed hreplaces.row hreplaces.isOpen
  cases hstep with
  | spawn => exact absurd (fun k hk => hk) hreplaces.not_same
  | @move _ _ _ i a a' hi hm =>
  have hmove : Move L a X a' Y := hm
  cases hmove with
  | stay => exact absurd (fun k hk => hk) hreplaces.not_same
  | issue hissued =>
    refine ⟨hissued.closes hreplaces, fun p hp heq => ?_, fun hj heq => ?_⟩
    · exact hunused (heq ▸ (h.told p hp).1)
    · exact hunused (heq ▸ (h.won (getElem?_set_same hi hj)).2)
  | spend hspent _ => exact absurd hspent.absent hreplaces.not_same
  | accept haccepted => exact absurd haccepted.toSpent.absent hreplaces.not_same
  | respond => exact absurd (fun k hk => hk) hreplaces.not_same

end Barred

/-! ## Runs -/

theorem calls_meet : ∀ p, Calls L p → ∀ i X, (protocol L).good X →
    (protocol L).Meets responses i p .idle (protocol L).init X := by
  intro p hp i X _
  cases hp with
  | invite userId organizationId email role =>
    exact (invite_meets userId organizationId email role).void
  | accept user token => exact acceptInvitationHandler_meets user token

/-- In the run from `db` to `s` there was a step that turned the invitation into a
membership. -/
def Happened (L : Library) (db : Database) (s : Sys Database Key Env Call (List Response))
    (user : AuthUser) (token : String) (id : Uuid) (r : OrgInvitation) : Prop :=
  ∃ t t', Steps responses (Calls L) (.quiet db []) t ∧ Step responses (Calls L) t t' ∧
    Steps responses (Calls L) t' s ∧ Accepted L user token id r t.db t'.db

variable {as : List Phase}

section Runs

variable {db : Database} {s s' : Sys Database Key Env Call (List Response)}

theorem Happened.later {token : String} (h : Happened L db s user token id r)
    (hstep : Step responses (Calls L) s s') :
    Happened L db s' user token id r := by
  obtain ⟨t, t', hbefore, haccept, hafter, haccepted⟩ := h
  exact ⟨t, t', hbefore, haccept, hafter.tail hstep, haccepted⟩

theorem wins_run (hdb : Constrained L db) (hrun : Steps responses (Calls L) (.quiet db []) s) :
    ∃ as, Related (protocol L) responses s as ∧
      Wins L (Happened L db s) (s.db, s.world) as := by
  induction hrun with
  | refl => exact ⟨[], related_quiet (x := (db, [])) hdb, wins_nil⟩
  | @tail s s' hrun hstep ih =>
    obtain ⟨as, hrel, hwins⟩ := ih
    obtain ⟨bs, habs, hrel'⟩ := simulation calls_meet hrel hstep
    refine ⟨bs, hrel', ?_⟩
    rcases (Relation.reflGen_iff _ _ _).mp habs with heq | habs
    · obtain ⟨hX, rfl⟩ := Prod.mk.injEq _ _ _ _ ▸ heq
      rw [hX]
      exact hwins.congr (fun h => h.later hstep) (fun h => h) rfl fun h => h
    · exact hwins.step hrel.good habs (fun h => h.later hstep)
        fun haccepted => ⟨s, s', hrun, hstep, .refl, haccepted⟩

theorem barred_run (hrel : Related (protocol L) responses s as)
    (h : Barred L d (s.db, s.world) as) (hrun : Steps responses (Calls L) s s') :
    ∀ p ∈ s'.world, L.digest p.token ≠ d := by
  have hstep : ∀ {p q}, AbsStep (protocol L) p q → True → (protocol L).good p.1 →
      Barred L d p.1 p.2 → Barred L d q.1 q.2 := fun habs _ hgood hb => hb.step hgood habs
  obtain ⟨bs, -, hbarred⟩ := invariant calls_meet (C := fun _ _ => True) hstep hrel h
    (hrun.lift id fun _ _ hstep => ⟨hstep, trivial⟩)
  exact hbarred.told

/-- What a step does to the members. -/
theorem members_step (hrel : Related (protocol L) responses s as)
    (hstep : Step responses (Calls L) s s') :
    (∀ k, (Members s'.db).find k = (Members s.db).find k) ∨
      ∃ user token id r, Accepted L user token id r s.db s'.db := by
  obtain ⟨bs, habs, -⟩ := simulation calls_meet hrel hstep
  generalize hX : (s.db, s.world) = X at habs
  generalize hY : (s'.db, s'.world) = Y at habs
  rw [show s.db = X.1 from congrArg Prod.fst hX, show s'.db = Y.1 from congrArg Prod.fst hY]
  rcases (Relation.reflGen_iff _ _ _).mp habs with heq | habs
  · cases heq
    exact .inl fun k => rfl
  · cases habs with
    | spawn => exact .inl fun k => rfl
    | @move _ _ _ i a a' hi hm =>
      have hmove : Move L a X a' Y := hm
      cases hmove with
      | stay => exact .inl fun k => rfl
      | issue hissued => exact .inl hissued.members
      | spend _ hmembers => exact .inl hmembers
      | accept haccepted => exact .inr ⟨_, _, _, _, haccepted⟩
      | respond => exact .inl fun k => rfl

end Runs

/-- **Invitations are single use and replaceable.** In every state of every run: an
organization and an address have one open invitation at most; no token has been
answered with a membership twice; every answer goes back to a step that closed the
invitation of its token, addressed to the user, who is verified, and created one
membership, with the invitation's role; no step does anything else to memberships;
and if the next step replaces an open invitation, no answer of any later state has
its token. -/
theorem invitations_single_use (L : Library) (db : Database) (hdb : Constrained L db)
    (s : Sys Database Key Env Call (List Response))
    (hrun : Steps responses (Calls L) (.quiet db []) s) :
    (∀ id id' r r', (Invitations s.db).find id = some r →
      (Invitations s.db).find id' = some r' → r.acceptedAt = none → r'.acceptedAt = none →
      addressOf L r = addressOf L r' → id = id') ∧
    (s.world.Pairwise fun p q => p.token ≠ q.token) ∧
    (∀ p ∈ s.world, ∃ id r, Happened L db s p.user p.token id r ∧
      p.membership = { organizationId := r.organizationId, userId := p.user.id, role := r.role }) ∧
    (∀ s', Step responses (Calls L) s s' → (∀ k, (Members s'.db).find k = (Members s.db).find k) ∨
        ∃ user token id r, Accepted L user token id r s.db s'.db) ∧
    (∀ s' id r, Step responses (Calls L) s s' → Replaces L id r s.db s'.db →
      ∀ later, Steps responses (Calls L) s' later →
        ∀ p ∈ later.world, L.digest p.token ≠ r.tokenDigest) := by
  obtain ⟨as, hrel, hwins⟩ := wins_run hdb hrun
  have hgood : Constrained L s.db := hrel.good
  refine ⟨fun id id' r r' hr hr' hopen hopen' => hgood.sole hr hr' hopen hopen', ?_, ?_,
    fun s' hstep => members_step hrel hstep, ?_⟩
  · exact hwins.once.imp fun hne heq => hne (congrArg L.digest heq)
  · intro p hp
    obtain ⟨-, id, r, hhappened, heq⟩ := hwins.told p hp
    exact ⟨id, r, hhappened, congrArg Response.membership heq⟩
  · intro s' id r hstep hreplaces later hlater
    obtain ⟨bs, habs, hrel'⟩ := simulation calls_meet hrel hstep
    rcases (Relation.reflGen_iff _ _ _).mp habs with heq | habs
    · have hsame : s'.db = s.db := congrArg (fun q => q.1.1) heq
      rw [hsame] at hreplaces
      exact absurd (fun k hk => hk) hreplaces.not_same
    · exact barred_run hrel' (hwins.barred hgood habs hreplaces) hlater

namespace Sample

/-- A library that is easy to compute with. The digest of a token is what follows
its prefix. -/
def library : Library where
  digest s := (s.toList.drop 10).map fun c => UInt8.ofNat c.toNat
  idKey password salt := (password.toList.map fun c => UInt8.ofNat c.toNat) ++ salt
  encode raw := String.ofList (raw.map fun b => Char.ofNat b.toNat)
  decode _ := some (List.replicate 32 0)
  fold s := s
  parseAddress s := some s
  foldColumn s := s
  sameAddress a b := a == b
  uuidPattern _ := true

/-- An organization with its owner, and another user. -/
def database : Database :=
  { ledger := .empty
    core := { Core.empty with
      organizations := Table.empty.put 2 {}
      users := (Table.empty.put 1 { email := "o@w", emailVerifiedAt := some 0 }).put 4
        { email := "a@b", emailVerifiedAt := some 0 }
      members := Table.empty.put (2, 1)
        { role := .owner, incidentNotificationsEnabled := true } }
    journal := .empty }

def guest : AuthUser := { id := 4, email := "a@b", emailVerified := true }

/-- Generators that hand out `n`. -/
def moment (n : Nat) : Env :=
  { now := n, wall := n, uuid := n, pick := 0, sent := .error (), result := .noMessage
    dlq := .noMessage, acknowledged := true, sealed := none, nonce := none
    random := some (List.replicate 32 (UInt8.ofNat (64 + n))) }

def token (n : Nat) : String :=
  invitationTokenPrefix ++ String.ofList (List.replicate 32 (Char.ofNat (64 + n)))

def inviting (i n : Nat) : List (Act Database Key Env Call) :=
  .spawn (invite library 1 2 "a@b" (.known .member) >>= fun _ => pure ()) ::
    List.replicate 12 (.step i (moment n) .done)

def accepting (i n : Nat) (text : String) : List (Act Database Key Env Call) :=
  .spawn (acceptInvitationHandler library guest text) :: List.replicate 8 (.step i (moment n) .done)

/-- The guest is invited twice, and tries the first token, and the second one two
times. -/
def joining : List (Act Database Key Env Call) :=
  inviting 0 1 ++ inviting 1 2 ++ accepting 2 3 (token 1) ++ accepting 3 4 (token 2) ++
    accepting 4 5 (token 2)

theorem inviting_within (i n : Nat) : ∀ a ∈ inviting i n, a.within (Calls library) :=
  List.forall_mem_cons.mpr ⟨.invite 1 2 "a@b" (.known .member), Act.within_replicate⟩

theorem accepting_within (i n : Nat) (text : String) :
    ∀ a ∈ accepting i n text, a.within (Calls library) :=
  List.forall_mem_cons.mpr ⟨.accept guest text, Act.within_replicate⟩

theorem joining_within : ∀ a ∈ joining, a.within (Calls library) := by
  unfold joining
  simp only [List.forall_mem_append]
  exact ⟨⟨⟨⟨inviting_within 0 1, inviting_within 1 2⟩, accepting_within 2 3 (token 1)⟩,
    accepting_within 3 4 (token 2)⟩, accepting_within 4 5 (token 2)⟩

end Sample

open Sample

/-- Only the second token is answered, and only once. -/
theorem invitations_single_use_sample :
    ∃ s, Steps responses (Calls library) (.quiet database []) s ∧
      s.world.map Response.token = [token 2] ∧
      (Members s.db).find (2, 4) = some ⟨.member, true⟩ ∧
      ∀ p ∈ s.world, ∃ id r, Happened library database s p.user p.token id r ∧ p.membership =
          { organizationId := r.organizationId, userId := p.user.id, role := r.role } := by
  have hend : ((Sys.quiet database []).run responses joining).map
      (fun s => (s.world.map Response.token, (Members s.db).find (2, 4))) =
      some ([token 2], some ⟨.member, true⟩) := by rfl
  obtain ⟨s, hs, heq⟩ := Option.map_eq_some_iff.mp hend
  have hrun := Sys.run_steps joining_within hs
  refine ⟨s, hrun, congrArg Prod.fst heq, congrArg Prod.snd heq, ?_⟩
  have hdb : Constrained library database :=
    ⟨fun hr => (by cases hr), fun hr => (by cases hr)⟩
  exact (invitations_single_use library database hdb s hrun).2.2.1

end WatchTrace.Proofs.Joining
