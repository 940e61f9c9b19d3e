import WatchTrace.Arith.Lineage
import WatchTrace.Tx.Turn
import WatchTrace.Model.Auth

/-!
# Families of refresh tokens

The refresh tokens of a family replace one another. When the calls of the
service run one after another, a family is one line from the token the login
issued to the token that was issued last, and only that last one can still be
exchanged. A token that was replaced stays so for as long as its row is there,
and the clean-up takes away whole families whose tokens have all expired.

Every call makes one of four changes to the tokens: it revokes some of them, it
opens a family, it replaces the last token of one, or it takes families away.
That is shown once for each call (`Move`), and everything else follows from it.

The identifiers of families, and the tokens, come from random generators. What
is assumed of them is that they do not repeat themselves: no family and no token
is drawn that some earlier state has had.
-/

namespace WatchTrace.Proofs.Rotation

open Tx Model.Auth Arith
open Model (Uuid Time Bytes Failure)

/-! ## Families -/

/-- The token that replaced this one. -/
def successor (t : Tables) (id : Uuid) : Option Uuid :=
  (t.refreshTokens.find id).bind RefreshToken.replacedById

def InFamily (t : Tables) (familyId id : Uuid) : Prop :=
  ∃ token, t.refreshTokens.find id = some token ∧ token.familyId = familyId

/-- The tokens are in order at a time: what the schema demands of them, none of
them is from the future, and every family is a line. -/
structure Linear (now : Time) (t : Tables) : Prop where
  digests : ∀ {a b x y}, t.refreshTokens.find a = some x → t.refreshTokens.find b = some y →
    x.tokenDigest = y.tokenDigest → a = b
  owned : ∀ {a x}, t.refreshTokens.find a = some x → (t.users.find x.userId).isSome = true
  rotated : ∀ {a x}, t.refreshTokens.find a = some x → x.replacedById.isSome = x.rotatedAt.isSome
  created : ∀ {a x}, t.refreshTokens.find a = some x → x.createdAt ≤ now
  opened : ∀ {a x}, t.authSessions.find a = some x → x.createdAt ≤ now
  ordered : ∀ {a b x}, t.refreshTokens.find a = some x → x.replacedById = some b →
    ∃ y, t.refreshTokens.find b = some y ∧ x.createdAt ≤ y.createdAt
  line : ∀ familyId, ∃ ids, Lineage (successor t) (InFamily t familyId) ids

variable {id : Uuid} {token : RefreshToken}

variable {t : Tables}

theorem successor_of_find (h : t.refreshTokens.find id = some token) :
    successor t id = token.replacedById := by
  rw [successor, h]
  rfl

/-- Without tokens and sessions everything is in order. -/
theorem Linear.empty (htokens : t.refreshTokens = .empty) (hsessions : t.authSessions = .empty)
    (now : Time) : Linear now t := by
  have hnone : ∀ id, t.refreshTokens.find id = none := by
    intro id
    rw [htokens, Table.find_empty]
  have habsent : ∀ {a x}, t.refreshTokens.find a = some x → False := by
    intro a x hx
    rw [hnone a] at hx
    cases hx
  refine ⟨fun hx => (habsent hx).elim, fun hx => (habsent hx).elim,
    fun hx => (habsent hx).elim, fun hx => (habsent hx).elim, ?_,
    fun hx => (habsent hx).elim, fun familyId => ⟨[], .nil ?_⟩⟩
  · intro a x hx
    rw [hsessions, Table.find_empty] at hx
    cases hx
  · intro a ⟨token, hfind, _⟩
    exact habsent hfind

/-! ## The generators and the clocks -/

/-- No state so far had a token with this digest. -/
def Unissued (seen : List Tables) (digest : Bytes) : Prop :=
  ∀ t ∈ seen, ∀ id token, t.refreshTokens.find id = some token → token.tokenDigest ≠ digest

/-- The environment of a step: between two times, and the generators return what
no state so far has had. -/
structure Draw (L : Library) (seen : List Tables) (lo hi : Time) (env : Env) : Prop where
  lo_now : lo ≤ env.now
  now_hi : env.now ≤ hi
  lo_wall : lo ≤ env.wall
  wall_hi : env.wall ≤ hi
  family : ∀ t ∈ seen, ∀ id, ¬ InFamily t env.family id
  token : ∀ raw, env.random = some raw →
    Unissued seen (L.digest (refreshTokenPrefix ++ L.encode raw))

/-! ## What a call can do to the tokens -/

/-- A token that has just been issued. -/
structure Fresh (seen : List Tables) (hi : Time) (t : Tables) (id : Uuid)
    (token : RefreshToken) : Prop where
  absent : t.refreshTokens.find id = none
  digest : Unissued seen token.tokenDigest
  owned : (t.users.find token.userId).isSome = true
  created : token.createdAt ≤ hi
  unrotated : token.rotatedAt = none
  unreplaced : token.replacedById = none

inductive TokenMove (seen : List Tables) (lo hi : Time) (t t' : Tables) : Prop
  /-- some tokens are revoked, which is all that happens to them -/
  | revokes (revokedAt : RefreshToken → Option Time)
      (h : ∀ id, t'.refreshTokens.find id = (t.refreshTokens.find id).map
        fun token => { token with revokedAt := revokedAt token })
  | opens (id : Uuid) (token : RefreshToken) (hfresh : Fresh seen hi t id token)
      (hfamily : ∀ other, ¬ InFamily t token.familyId other)
      (h : t'.refreshTokens = t.refreshTokens.put id token)
  | rotates (id newId : Uuid) (token new : RefreshToken) (rotatedAt : Time)
      (hfind : t.refreshTokens.find id = some token) (hunrotated : token.rotatedAt = none)
      (hfresh : Fresh seen hi t newId new) (hfamily : new.familyId = token.familyId)
      (hlater : lo ≤ new.createdAt)
      (h : t'.refreshTokens = (t.refreshTokens.put newId new).put id { token with
        rotatedAt := some rotatedAt, replacedById := some newId })
  /-- whole families are taken away -/
  | forgets (gone : Uuid → Bool) (h : ∀ id, t'.refreshTokens.find id =
        (t.refreshTokens.find id).filter fun token => !gone token.familyId)

structure Move (seen : List Tables) (lo hi : Time) (t t' : Tables) : Prop where
  users : ∀ u, (t.users.find u).isSome = true → (t'.users.find u).isSome = true
  sessions : ∀ id session, t'.authSessions.find id = some session → session.createdAt ≤ hi ∨
      ∃ old, t.authSessions.find id = some old ∧ session.createdAt = old.createdAt
  tokens : TokenMove seen lo hi t t'

section Moves

variable {seen : List Tables} {lo hi : Time} {t t' : Tables}

theorem TokenMove.same (h : t'.refreshTokens = t.refreshTokens) :
    TokenMove seen lo hi t t' := by
  refine .revokes RefreshToken.revokedAt fun id => ?_
  rw [h]
  exact Option.map_id'.symm

theorem Move.refl (t : Tables) : Move seen lo hi t t where
  users _ h := h
  sessions _ session h := .inr ⟨session, h, rfl⟩
  tokens := .same rfl

/-- A token with a new digest, for a user who exists. -/
private theorem Linear.add (hlin : Linear lo t) (hmem : t ∈ seen)
    (hfresh : Fresh seen hi t id token) :
    ∀ {a b x y}, (t.refreshTokens.put id token).find a = some x →
      (t.refreshTokens.put id token).find b = some y →
      x.tokenDigest = y.tokenDigest → a = b := by
  intro a b x y hx hy hd
  rcases Table.find_put_some.mp hx with ⟨rfl, rfl⟩ | ⟨_, hx'⟩ <;>
    rcases Table.find_put_some.mp hy with ⟨rfl, rfl⟩ | ⟨_, hy'⟩
  · rfl
  · exact (hfresh.digest t hmem b y hy' hd.symm).elim
  · exact (hfresh.digest t hmem a x hx' hd).elim
  · exact hlin.digests hx' hy' hd

section Kinds

variable (hlin : Linear lo t) (hle : lo ≤ hi)
  (husers : ∀ u, (t.users.find u).isSome = true → (t'.users.find u).isSome = true)
  (hopened : ∀ {a x}, t'.authSessions.find a = some x → x.createdAt ≤ hi)

include hlin hle husers hopened

/-- Tables of which the tokens are the same, but for their revocation. -/
private theorem Linear.revoke (revokedAt : RefreshToken → Option Time)
    (h : ∀ id, t'.refreshTokens.find id = (t.refreshTokens.find id).map
      fun token => { token with revokedAt := revokedAt token }) : Linear hi t' := by
  have hback : ∀ {a x}, t'.refreshTokens.find a = some x → ∃ y,
      t.refreshTokens.find a = some y ∧ x = { y with revokedAt := revokedAt y } := by
    intro a x hx
    rw [h] at hx
    obtain ⟨y, hy, rfl⟩ := Option.map_eq_some_iff.mp hx
    exact ⟨y, hy, rfl⟩
  have hfamily : ∀ f a, InFamily t' f a ↔ InFamily t f a := by
    intro f a
    constructor
    · rintro ⟨x, hx, rfl⟩
      obtain ⟨y, hy, rfl⟩ := hback hx
      exact ⟨y, hy, rfl⟩
    · rintro ⟨y, hy, rfl⟩
      refine ⟨{ y with revokedAt := revokedAt y }, ?_, rfl⟩
      rw [h, hy, Option.map_some]
  have hnext : ∀ a, successor t' a = successor t a := by
    intro a
    rw [successor, successor, h]
    cases t.refreshTokens.find a <;> rfl
  refine ⟨fun hx hy hd => ?_, fun hx => ?_, fun hx => ?_, fun hx => ?_, hopened,
    fun hx hb => ?_, fun f => ?_⟩
  · obtain ⟨x', hx', rfl⟩ := hback hx
    obtain ⟨y', hy', rfl⟩ := hback hy
    exact hlin.digests hx' hy' hd
  · obtain ⟨x', hx', rfl⟩ := hback hx
    have howned := hlin.owned hx'
    exact husers _ howned
  · obtain ⟨x', hx', rfl⟩ := hback hx
    have hboth := hlin.rotated hx'
    exact hboth
  · obtain ⟨x', hx', rfl⟩ := hback hx
    have hcreated := hlin.created hx'
    exact Int.le_trans hcreated hle
  · obtain ⟨x', hx', rfl⟩ := hback hx
    obtain ⟨y, hy, hle'⟩ := hlin.ordered hx' hb
    refine ⟨{ y with revokedAt := revokedAt y }, ?_, hle'⟩
    rw [h, hy, Option.map_some]
  · obtain ⟨ids, hline⟩ := hlin.line f
    exact ⟨ids, hline.congr (hfamily f) fun a _ => hnext a⟩

private theorem Linear.opens (hmem : t ∈ seen) (hfresh : Fresh seen hi t id token)
    (hfamily : ∀ other, ¬ InFamily t token.familyId other)
    (h : t'.refreshTokens = t.refreshTokens.put id token) : Linear hi t' := by
  have hcases : ∀ {a x}, t'.refreshTokens.find a = some x →
      (a = id ∧ x = token) ∨ (a ≠ id ∧ t.refreshTokens.find a = some x) := by
    intro a x hx
    rw [h] at hx
    exact Table.find_put_some.mp hx
  have hkept : ∀ {a x}, t.refreshTokens.find a = some x →
      t'.refreshTokens.find a = some x := by
    intro a x hx
    rw [h, Table.find_put_ne]
    · exact hx
    · rintro rfl
      rw [hfresh.absent] at hx
      cases hx
  have hnew : t'.refreshTokens.find id = some token := by rw [h, Table.find_put]
  refine ⟨fun hx hy hd => ?_, fun hx => ?_, fun hx => ?_, fun hx => ?_, hopened,
    fun hx hb => ?_, fun f => ?_⟩
  · rw [h] at hx hy
    exact hlin.add hmem hfresh hx hy hd
  · rcases hcases hx with ⟨rfl, rfl⟩ | ⟨_, hx'⟩
    · exact husers _ hfresh.owned
    · exact husers _ (hlin.owned hx')
  · rcases hcases hx with ⟨rfl, rfl⟩ | ⟨_, hx'⟩
    · rw [hfresh.unrotated, hfresh.unreplaced]
      rfl
    · exact hlin.rotated hx'
  · rcases hcases hx with ⟨rfl, rfl⟩ | ⟨_, hx'⟩
    · exact hfresh.created
    · exact Int.le_trans (hlin.created hx') hle
  · rcases hcases hx with ⟨rfl, rfl⟩ | ⟨_, hx'⟩
    · rw [hfresh.unreplaced] at hb
      cases hb
    · obtain ⟨y, hy, hle'⟩ := hlin.ordered hx' hb
      exact ⟨y, hkept hy, hle'⟩
  · by_cases hf : f = token.familyId
    · -- the family consists of the new token
      subst hf
      refine ⟨[id], .single (fun a => ⟨?_, ?_⟩) ?_⟩
      · rintro ⟨x, hx, hxf⟩
        rcases hcases hx with ⟨rfl, _⟩ | ⟨_, hx'⟩
        · rfl
        · exact (hfamily a ⟨x, hx', hxf⟩).elim
      · rintro rfl
        exact ⟨token, hnew, rfl⟩
      · rw [successor_of_find hnew, hfresh.unreplaced]
    · obtain ⟨ids, hline⟩ := hlin.line f
      refine ⟨ids, hline.congr (fun a => ⟨?_, ?_⟩) ?_⟩
      · rintro ⟨x, hx, rfl⟩
        rcases hcases hx with ⟨rfl, rfl⟩ | ⟨_, hx'⟩
        · exact (hf rfl).elim
        · exact ⟨x, hx', rfl⟩
      · rintro ⟨x, hx, rfl⟩
        exact ⟨x, hkept hx, rfl⟩
      · rintro a ⟨x, hx, _⟩
        rw [successor_of_find (hkept hx), successor_of_find hx]

private theorem Linear.rotates (hmem : t ∈ seen) {newId : Uuid} {new : RefreshToken} {rotatedAt : Time}
    (hfind : t.refreshTokens.find id = some token) (hunrotated : token.rotatedAt = none)
    (hfresh : Fresh seen hi t newId new) (hfamily : new.familyId = token.familyId)
    (hlater : lo ≤ new.createdAt)
    (h : t'.refreshTokens = (t.refreshTokens.put newId new).put id { token with
      rotatedAt := some rotatedAt, replacedById := some newId }) : Linear hi t' := by
  have hne : newId ≠ id := by
    rintro rfl
    rw [hfresh.absent] at hfind
    cases hfind
  -- the replaced token, the new one, and the others
  have hold : t'.refreshTokens.find id = some { token with
      rotatedAt := some rotatedAt, replacedById := some newId } := by
    rw [h, Table.find_put]
  have hnew : t'.refreshTokens.find newId = some new := by
    rw [h, Table.find_put_ne _ _ hne, Table.find_put]
  have hkept : ∀ {a x}, a ≠ id → t.refreshTokens.find a = some x →
      t'.refreshTokens.find a = some x := by
    intro a x ha hx
    rw [h, Table.find_put_ne _ _ ha, Table.find_put_ne]
    · exact hx
    · rintro rfl
      rw [hfresh.absent] at hx
      cases hx
  have hcases : ∀ {a x}, t'.refreshTokens.find a = some x →
      (a = id ∧ x = { token with rotatedAt := some rotatedAt, replacedById := some newId }) ∨
      (a = newId ∧ x = new) ∨ (a ≠ id ∧ t.refreshTokens.find a = some x) := by
    intro a x hx
    rw [h] at hx
    rcases Table.find_put_some.mp hx with hfirst | ⟨ha, hx⟩
    · exact .inl hfirst
    · rcases Table.find_put_some.mp hx with hsecond | ⟨_, hx'⟩
      · exact .inr (.inl hsecond)
      · exact .inr (.inr ⟨ha, hx'⟩)
  have hcreated : token.createdAt ≤ lo := hlin.created hfind
  have hunreplaced : token.replacedById = none := by
    have hboth := hlin.rotated hfind
    rw [hunrotated] at hboth
    exact Option.isNone_iff_eq_none.mp (by simpa using hboth)
  -- the digests are those of the table with the new token in it
  have hdigest : ∀ {a x}, t'.refreshTokens.find a = some x →
      ∃ y, (t.refreshTokens.put newId new).find a = some y ∧
        y.tokenDigest = x.tokenDigest := by
    intro a x hx
    rw [h] at hx
    rcases Table.find_put_some.mp hx with ⟨rfl, rfl⟩ | ⟨_, hx'⟩
    · exact ⟨token, by rw [Table.find_put_ne _ _ hne.symm]; exact hfind, rfl⟩
    · exact ⟨x, hx', rfl⟩
  refine ⟨fun hx hy hd => ?_, fun hx => ?_, fun hx => ?_, fun hx => ?_, hopened,
    fun hx hb => ?_, fun f => ?_⟩
  · obtain ⟨x', hx', hxd⟩ := hdigest hx
    obtain ⟨y', hy', hyd⟩ := hdigest hy
    exact hlin.add hmem hfresh hx' hy' (hxd.trans (hd.trans hyd.symm))
  · rcases hcases hx with ⟨rfl, rfl⟩ | ⟨rfl, rfl⟩ | ⟨_, hx'⟩
    · have howned := hlin.owned hfind
      exact husers _ howned
    · exact husers _ hfresh.owned
    · exact husers _ (hlin.owned hx')
  · rcases hcases hx with ⟨rfl, rfl⟩ | ⟨rfl, rfl⟩ | ⟨_, hx'⟩
    · rfl
    · rw [hfresh.unrotated, hfresh.unreplaced]
      rfl
    · exact hlin.rotated hx'
  · rcases hcases hx with ⟨rfl, rfl⟩ | ⟨rfl, rfl⟩ | ⟨_, hx'⟩
    · exact Int.le_trans hcreated hle
    · exact hfresh.created
    · exact Int.le_trans (hlin.created hx') hle
  · rcases hcases hx with ⟨rfl, rfl⟩ | ⟨rfl, rfl⟩ | ⟨_, hx'⟩
    · cases hb
      exact ⟨new, hnew, Int.le_trans hcreated hlater⟩
    · rw [hfresh.unreplaced] at hb
      cases hb
    · obtain ⟨y, hy, hle'⟩ := hlin.ordered hx' hb
      rename_i a b x _
      by_cases hb' : b = id
      · subst hb'
        rw [hfind, Option.some.injEq] at hy
        subst hy
        exact ⟨_, hold, hle'⟩
      · exact ⟨y, hkept hb' hy, hle'⟩
  · obtain ⟨ids, hline⟩ := hlin.line f
    by_cases hf : f = token.familyId
    · -- the line of the family gets one longer
      subst hf
      refine ⟨ids ++ [newId], hline.extend ⟨token, hfind, rfl⟩ ?_ ?_ (fun a => ⟨?_, ?_⟩) ?_ ?_ ?_⟩
      · rw [successor_of_find hfind, hunreplaced]
      · rintro ⟨x, hx, _⟩
        rw [hfresh.absent] at hx
        cases hx
      · rintro ⟨x, hx, hxf⟩
        rcases hcases hx with ⟨rfl, _⟩ | ⟨rfl, _⟩ | ⟨_, hx'⟩
        · exact .inl ⟨token, hfind, rfl⟩
        · exact .inr rfl
        · exact .inl ⟨x, hx', hxf⟩
      · rintro (⟨x, hx, hxf⟩ | rfl)
        · by_cases ha : a = id
          · subst ha
            exact ⟨_, hold, rfl⟩
          · exact ⟨x, hkept ha hx, hxf⟩
        · exact ⟨new, hnew, hfamily⟩
      · rintro a ⟨x, hx, _⟩ ha
        rw [successor_of_find (hkept ha hx), successor_of_find hx]
      · rw [successor_of_find hold]
      · rw [successor_of_find hnew, hfresh.unreplaced]
    · refine ⟨ids, hline.congr (fun a => ⟨?_, ?_⟩) ?_⟩
      · rintro ⟨x, hx, hxf⟩
        rcases hcases hx with ⟨rfl, rfl⟩ | ⟨rfl, rfl⟩ | ⟨_, hx'⟩
        · exact (hf hxf.symm).elim
        · exact (hf (hxf.symm.trans hfamily)).elim
        · exact ⟨x, hx', hxf⟩
      · rintro ⟨x, hx, hxf⟩
        refine ⟨x, hkept ?_ hx, hxf⟩
        rintro rfl
        rw [hfind, Option.some.injEq] at hx
        subst hx
        exact hf hxf.symm
      · rintro a ⟨x, hx, hxf⟩
        have ha : a ≠ id := by
          rintro rfl
          rw [hfind, Option.some.injEq] at hx
          subst hx
          exact hf hxf.symm
        rw [successor_of_find (hkept ha hx), successor_of_find hx]

private theorem Linear.forgets {gone : Uuid → Bool} (h : ∀ id, t'.refreshTokens.find id =
      (t.refreshTokens.find id).filter fun token => !gone token.familyId) : Linear hi t' := by
  have hiff : ∀ {a x}, t'.refreshTokens.find a = some x ↔
      t.refreshTokens.find a = some x ∧ gone x.familyId = false := by
    intro a x
    rw [h, Option.filter_eq_some_iff, Bool.not_eq_true']
  -- a link stays inside its family
  have hlink : ∀ {a b x y}, t.refreshTokens.find a = some x → x.replacedById = some b →
      t.refreshTokens.find b = some y → y.familyId = x.familyId := by
    intro a b x y hx hb hy
    obtain ⟨ids, hline⟩ := hlin.line x.familyId
    have hmem : b ∈ ids := hline.next_mem ⟨x, hx, rfl⟩ (by rw [successor_of_find hx, hb])
    obtain ⟨y', hy', hyf⟩ := (hline.mem_iff b).mp hmem
    rw [hy, Option.some.injEq] at hy'
    subst hy'
    exact hyf
  refine ⟨fun hx hy => hlin.digests (hiff.mp hx).1 (hiff.mp hy).1,
    fun hx => husers _ (hlin.owned (hiff.mp hx).1), fun hx => hlin.rotated (hiff.mp hx).1,
    fun hx => Int.le_trans (hlin.created (hiff.mp hx).1) hle, hopened,
    fun hx hb => ?_, fun f => ?_⟩
  · obtain ⟨hx', hstays⟩ := hiff.mp hx
    obtain ⟨y, hy, hle'⟩ := hlin.ordered hx' hb
    refine ⟨y, hiff.mpr ⟨hy, ?_⟩, hle'⟩
    rw [hlink hx' hb hy]
    exact hstays
  · cases hgone : gone f with
    | true =>
      refine ⟨[], .nil fun a ⟨x, hx, hxf⟩ => ?_⟩
      rw [← hxf, (hiff.mp hx).2] at hgone
      cases hgone
    | false =>
      obtain ⟨ids, hline⟩ := hlin.line f
      refine ⟨ids, hline.congr (fun a => ⟨?_, ?_⟩) ?_⟩
      · rintro ⟨x, hx, hxf⟩
        exact ⟨x, (hiff.mp hx).1, hxf⟩
      · rintro ⟨x, hx, rfl⟩
        exact ⟨x, hiff.mpr ⟨hx, hgone⟩, rfl⟩
      · rintro a ⟨x, hx, rfl⟩
        rw [successor_of_find (hiff.mpr ⟨hx, hgone⟩), successor_of_find hx]

end Kinds

/-- Every call keeps the tokens in order. -/
theorem Linear.move (hlin : Linear lo t) (hle : lo ≤ hi) (hmem : t ∈ seen)
    (h : Move seen lo hi t t') : Linear hi t' := by
  have hopened : ∀ {a x}, t'.authSessions.find a = some x → x.createdAt ≤ hi := by
    intro a x hx
    rcases h.sessions a x hx with hnew | ⟨old, hold, heq⟩
    · exact hnew
    · rw [heq]
      exact Int.le_trans (hlin.opened hold) hle
  cases h.tokens with
  | revokes revokedAt htokens => exact hlin.revoke hle h.users hopened revokedAt htokens
  | opens id token hfresh hfamily htokens =>
    exact hlin.opens hle h.users hopened hmem hfresh hfamily htokens
  | rotates id newId token new rotatedAt hfind hunrotated hfresh hfamily hlater htokens =>
    exact hlin.rotates hle h.users hopened hmem hfind hunrotated hfresh hfamily hlater htokens
  | forgets gone htokens => exact hlin.forgets hle h.users hopened htokens

/-- Whoever has this digest has been rotated. -/
def Spent (t : Tables) (digest : Bytes) : Prop :=
  ∀ id token, t.refreshTokens.find id = some token → token.tokenDigest = digest →
    token.rotatedAt.isSome = true

/-- A token that has been rotated stays so, or is gone, and is not issued again. -/
theorem Spent.move {digest : Bytes} (hspent : Spent t digest) (hseen : ∃ s ∈ seen, ∃ id token,
      s.refreshTokens.find id = some token ∧ token.tokenDigest = digest)
    (h : Move seen lo hi t t') : Spent t' digest := by
  obtain ⟨s, hs, sid, stoken, hsfind, hsdigest⟩ := hseen
  have hnew : ∀ {id token}, Fresh seen hi t id token → token.tokenDigest ≠ digest := by
    intro id token hfresh heq
    exact hfresh.digest s hs sid stoken hsfind (hsdigest.trans heq.symm)
  intro id token hfind hdigest
  cases h.tokens with
  | revokes revokedAt htokens =>
    rw [htokens] at hfind
    obtain ⟨old, hold, rfl⟩ := Option.map_eq_some_iff.mp hfind
    have hrotated := hspent id old hold hdigest
    exact hrotated
  | opens _ _ hfresh _ htokens =>
    rw [htokens] at hfind
    rcases Table.find_put_some.mp hfind with ⟨rfl, rfl⟩ | ⟨_, hold⟩
    · exact (hnew hfresh hdigest).elim
    · exact hspent id token hold hdigest
  | rotates _ _ _ _ _ _ _ hfresh _ _ htokens =>
    rw [htokens] at hfind
    rcases Table.find_put_some.mp hfind with ⟨rfl, rfl⟩ | ⟨_, hfind⟩
    · rfl
    · rcases Table.find_put_some.mp hfind with ⟨rfl, rfl⟩ | ⟨_, hold⟩
      · exact (hnew hfresh hdigest).elim
      · exact hspent id token hold hdigest
  | forgets gone htokens =>
    rw [htokens, Option.filter_eq_some_iff] at hfind
    exact hspent id token hfind.1 hdigest

end Moves

end WatchTrace.Proofs.Rotation
