import WatchTrace.Model.Auth

/-!
# What sessions are about

A book lists the tokens there are, each with its user, its family and whether
it is still live, next to the users' password hashes and the notes of what has
been done. Three things happen to it. Tokens are issued in a family that has a
live one; tokens are revoked, all that a scope covers; and a family is opened
for a user whose password has been verified.

Two laws follow from that alone. What a scope once covered stays revoked as long
as no family is opened, because there is no live token left to issue another
with. And a family whose user has got another hash since has no live token,
because a hash is replaced only when everything of the user's is revoked.
-/

namespace WatchTrace.Spec.Sessions

open Model Model.Auth

inductive TokenId
  | refresh (id : Uuid)
  | access (id : Uuid)
  deriving DecidableEq

/-- What the book says of a token. -/
structure Standing where
  userId : Uuid
  familyId : Uuid
  live : Bool

def Standing.revoked (s : Standing) : Standing := { s with live := false }

structure Book where
  token : TokenId → Option Standing
  hash : Uuid → Option PasswordHash
  notes : List Note

/-- A family belongs to one user. -/
def Book.Sound (b : Book) : Prop :=
  ∀ t t' s s', b.token t = some s → b.token t' = some s' →
    s.familyId = s'.familyId → s.userId = s'.userId

/-! ## What happens -/

/-- Tokens of the user `u` in the family `f` are added. -/
structure Adds (u f : Uuid) (b b' : Book) : Prop where
  token : ∀ t, b'.token t = b.token t ∨ (b.token t = none ∧ b'.token t = some ⟨u, f, true⟩)
  hash : ∀ v, b'.hash v = b.hash v

/-- Tokens of the user `u` are revoked, among them all live ones in the scope but
those `left`. The password of a user may be replaced by the way if the scope is
this user. -/
structure Revokes (u : Uuid) (scope : Scope) (left : TokenId → Prop) (b b' : Book) :
    Prop where
  token : ∀ t, b'.token t = b.token t ∨
    ∃ s, b.token t = some s ∧ s.userId = u ∧ b'.token t = some s.revoked
  covered : ∀ t s, b'.token t = some s → scope.covers s.userId s.familyId = true →
    s.live = true → left t
  hash : ∀ v, scope ≠ .user v → b'.hash v = b.hash v

/-- What a transaction makes of the book. -/
inductive Change : Book → Book → Prop
  | issue {u f : Uuid} {t : TokenId} {b b' : Book} (adds : Adds u f b b')
      (live : b.token t = some ⟨u, f, true⟩) (notes : b'.notes = b.notes) : Change b b'
  | revoke {u : Uuid} {scope : Scope} {b b' : Book}
      (revokes : Revokes u scope (fun _ => False) b b')
      (notes : b'.notes = b.notes ++ [.revoked scope]) : Change b b'
  | opened {u f : Uuid} {h : PasswordHash} {b b' : Book} (adds : Adds u f b b')
      (fresh : ∀ t s, b.token t = some s → s.familyId ≠ f)
      (unknown : ∀ v g, .opened f v g ∉ b.notes) (verified : b.hash u = some h)
      (notes : b'.notes = b.notes ++ [.opened f u h]) : Change b b'

/-! ## What stays -/

variable {u : Uuid} {b b' : Book}

variable {f : Uuid} {t : TokenId} {s : Standing}

theorem Adds.back (h : Adds u f b b') (hs : b'.token t = some s) :
    b.token t = some s ∨ s = ⟨u, f, true⟩ := by
  rcases h.token t with hsame | ⟨-, hnew⟩
  · exact .inl (hsame ▸ hs)
  · rw [hs, Option.some.injEq] at hnew
    exact .inr hnew

theorem Revokes.back {scope : Scope} {left : TokenId → Prop} (h : Revokes u scope left b b')
    (hs : b'.token t = some s) :
    ∃ s₀, b.token t = some s₀ ∧ s₀.userId = s.userId ∧ s₀.familyId = s.familyId ∧
      (s.live = true → s₀.live = true) := by
  rcases h.token t with hsame | ⟨s₀, hs₀, -, hdead⟩
  · exact ⟨s, hsame ▸ hs, rfl, rfl, id⟩
  · rw [hs, Option.some.injEq] at hdead
    subst hdead
    exact ⟨s₀, hs₀, rfl, rfl, nofun⟩

theorem Change.sound (h : Change b b') (hb : b.Sound) : b'.Sound := by
  intro t t' s s' hs hs' hfamily
  cases h with
  | @issue u f t₀ _ _ adds live notes =>
    rcases adds.back hs with hold | rfl
    · rcases adds.back hs' with hold' | rfl
      · exact hb t t' s s' hold hold' hfamily
      · exact hb t t₀ s _ hold live hfamily
    · rcases adds.back hs' with hold' | rfl
      · exact hb t₀ t' _ s' live hold' hfamily
      · rfl
  | revoke revokes notes =>
    obtain ⟨s₀, hs₀, hu, hf, -⟩ := revokes.back hs
    obtain ⟨s₀', hs₀', hu', hf', -⟩ := revokes.back hs'
    rw [← hu, ← hu']
    exact hb t t' s₀ s₀' hs₀ hs₀' (by rw [hf, hf', hfamily])
  | opened adds fresh unknown verified notes =>
    rcases adds.back hs with hold | rfl
    · rcases adds.back hs' with hold' | rfl
      · exact hb t t' s s' hold hold' hfamily
      · exact absurd hfamily (fresh t s hold)
    · rcases adds.back hs' with hold' | rfl
      · exact absurd hfamily.symm (fresh t' s' hold')
      · rfl

/-- What was noted once stays noted. -/
theorem Change.notes (h : Change b b') {n : Note} (hn : n ∈ b.notes) :
    n ∈ b'.notes := by
  cases h with
  | issue adds live notes => exact notes ▸ hn
  | revoke revokes notes => exact notes ▸ List.mem_append_left _ hn
  | opened adds fresh unknown verified notes => exact notes ▸ List.mem_append_left _ hn

/-! ## The law of revocation -/

/-- No token in the scope of a noted revocation is live. -/
def Book.Revoked (b : Book) : Prop :=
  ∀ scope, .revoked scope ∈ b.notes → ∀ t s, b.token t = some s →
    scope.covers s.userId s.familyId = true → s.live = false

/-- No family has been opened in between. -/
def Unopened (b b' : Book) : Prop :=
  ∀ f u h, .opened f u h ∈ b'.notes → .opened f u h ∈ b.notes

theorem Change.revoked (h : Change b b') (hopen : Unopened b b') (hb : b.Revoked) :
    b'.Revoked := by
  intro scope hnote t s hs hcovers
  cases h with
  | @issue u f t₀ _ _ adds live notes =>
    rw [notes] at hnote
    rcases adds.back hs with hold | rfl
    · exact hb scope hnote t s hold hcovers
    · -- the live token it was issued with would have been revoked
      exact absurd (hb scope hnote t₀ _ live hcovers) Bool.noConfusion
  | revoke revokes notes =>
    rw [notes, List.mem_append, List.mem_singleton] at hnote
    by_contra hlive
    rw [Bool.not_eq_false] at hlive
    rcases hnote with hnote | hnew
    · obtain ⟨s₀, hs₀, hu, hf, hback⟩ := revokes.back hs
      rw [← hu, ← hf] at hcovers
      have hdead := hb scope hnote t s₀ hs₀ hcovers
      rw [hback hlive] at hdead
      cases hdead
    · cases hnew
      exact revokes.covered t s hs hcovers hlive
  | @opened u f g _ _ adds fresh unknown verified notes =>
    refine absurd (hopen f u g ?_) (unknown u g)
    rw [notes]
    exact List.mem_append_right _ List.mem_cons_self

/-! ## The law of passwords -/

/-- No token of the family is live. -/
def Book.Dead (b : Book) (f u : Uuid) : Prop :=
  ∀ t s, b.token t = some s → s.familyId = f → s.userId = u → s.live = false

/-- A family whose user has another password than the one it was opened with is
dead. -/
def Book.Settled (b : Book) : Prop :=
  ∀ f u h, .opened f u h ∈ b.notes → b.hash u = some h ∨ b.Dead f u

/-- The dead stay dead, except that another family might be opened under the same
name. -/
theorem Change.dead (h : Change b b') (hb : b.Dead f u) {g : PasswordHash}
    (hnote : .opened f u g ∈ b.notes) : b'.Dead f u := by
  intro t s hs hf hu
  cases h with
  | @issue u' f' t₀ _ _ adds live notes =>
    rcases adds.back hs with hold | rfl
    · exact hb t s hold hf hu
    · exact absurd (hb t₀ _ live hf hu) Bool.noConfusion
  | revoke revokes notes =>
    obtain ⟨s₀, hs₀, hu₀, hf₀, hback⟩ := revokes.back hs
    have hdead := hb t s₀ hs₀ (hf₀.trans hf) (hu₀.trans hu)
    by_contra hlive
    rw [Bool.not_eq_false] at hlive
    rw [hback hlive] at hdead
    cases hdead
  | opened adds fresh unknown verified notes =>
    rcases adds.back hs with hold | rfl
    · exact hb t s hold hf hu
    · cases hf
      exact absurd hnote (unknown u g)

theorem Change.settled (h : Change b b') (hb : b.Settled) : b'.Settled := by
  intro f u g hnote
  by_cases hold : .opened f u g ∈ b.notes
  · rcases hb f u g hold with hhash | hdead
    · cases h with
      | issue adds live notes => exact .inl ((adds.hash u).trans hhash)
      | opened adds fresh unknown verified notes => exact .inl ((adds.hash u).trans hhash)
      | @revoke u' scope _ _ revokes notes =>
        by_cases hscope : scope = .user u
        · refine .inr fun t s hs _ hu => ?_
          by_contra hlive
          rw [Bool.not_eq_false] at hlive
          refine revokes.covered t s hs ?_ hlive
          rw [hscope, hu]
          exact beq_self_eq_true u
        · exact .inl ((revokes.hash u hscope).trans hhash)
    · exact .inr (h.dead hdead hold)
  · -- a family that has just been opened
    cases h with
    | issue adds live notes => exact absurd (notes ▸ hnote) hold
    | revoke revokes notes =>
      rw [notes, List.mem_append, List.mem_singleton] at hnote
      rcases hnote with hnote | hnew
      · exact absurd hnote hold
      · cases hnew
    | opened adds fresh unknown verified notes =>
    rw [notes, List.mem_append, List.mem_singleton] at hnote
    rcases hnote with hnote | hnew
    · exact absurd hnote hold
    · cases hnew
      exact .inl ((adds.hash u).trans verified)

end WatchTrace.Spec.Sessions
