import WatchTrace.Tx.Protocol

/-!
# Reasoning inside a transaction

Between its begin and its commit a program only issues statements and makes
calls nobody remembers. `Holds` is the weakest precondition of such a stretch:
it follows the statements that succeed, lets the others act after every one of
them within what the keys owned by then allow, and asks for `Q` at the end. A
statement that fails costs little to think about. From then on nothing can be
changed and every further statement fails too, so `Fails` follows the errors
only and asks for `E` of the answer.

`Quiet` is for the stretches that do not matter to the protocol at hand: all
their writes lie in a class `W`. One lemma about the program's text then
stands for all its paths. `Every` says the same of the statements themselves,
for whichever class of them the proof at hand has a use for.
-/

namespace WatchTrace.Tx

variable {DB Key Env : Type} {Call : Type → Type} {World A : Type}
variable {α β : Type}

/-- The answer is an error. -/
def Failed {ε α : Type} (r : Except ε α) : Prop := ∃ f, r = .error f

variable {E : α → Prop} {k : α → Prog DB Key Env Call β} {p : Prog DB Key Env Call α}
variable {Post : α → Prop}

variable {c : Prop} {f : α → Prog DB Key Env Call β} {q : Prog DB Key Env Call α}

namespace Prog

/-! ## Where nothing works any more -/

/-- Every way through `p` on which all statements fail answers in `E`. -/
def Fails (R : Remote Env World Call) (E : α → Prop) : Prog DB Key Env Call α → Prop
  | .ret r => E r
  | .query _ k => ∀ f, Fails R E (k (.error f))
  | .call c k => (∀ i r w, R.observe i c r w = w) ∧ ∀ r, Fails R E (k r)
  | .start _ => False
  | .commit _ => False
  | .rollback _ => False

variable {R : Remote Env World Call}

theorem fails_call {E : β → Prop} {c : Call α} (hc : ∀ i r w, R.observe i c r w = w)
    (hk : ∀ r, Fails R E (k r)) : Fails R E (Tx.call c >>= k) :=
  ⟨hc, hk⟩

theorem fails_bind {E' : β → Prop} (hp : Fails R E p) (hk : ∀ r, E r → Fails R E' (k r)) :
    Fails R E' (p >>= k) := by
  induction p with
  | ret r => exact hk r hp
  | query q next ih => exact fun f => ih _ (hp f)
  | call c next ih => exact ⟨hp.1, fun r => ih r (hp.2 r)⟩
  | start | commit | rollback => exact hp.elim

/-! ## Statement by statement -/

/-- A stretch whose statements are all in `S`, with calls nobody remembers. -/
@[simp] def Every (R : Remote Env World Call) (S : {β : Type} → Stmt DB Key Env β → Prop) :
    Prog DB Key Env Call α → Prop
  | .ret _ => True
  | .query q k => S q ∧ ∀ r, Every R S (k r)
  | .call c k => (∀ i r w, R.observe i c r w = w) ∧ ∀ r, Every R S (k r)
  | .start _ => False
  | .commit _ => False
  | .rollback _ => False

variable {S : {β : Type} → Stmt DB Key Env β → Prop}

@[simp] theorem every_ite [Decidable c] :
    Every R S (if c then p else q) ↔ (c → Every R S p) ∧ (¬ c → Every R S q) := by
  split <;> simp [*]

theorem every_pure (a : α) : Every R S (pure a : Prog DB Key Env Call α) := trivial

theorem every_query {q : Stmt DB Key Env β} (h : S q) :
    Every R S (Tx.query q : Prog DB Key Env Call (Except Fault β)) :=
  ⟨h, fun _ => trivial⟩

theorem every_bind (hp : Every R S p) (hf : ∀ a, Every R S (f a)) : Every R S (p >>= f) := by
  induction p with
  | ret a => exact hf a
  | query q k ih | call c k ih => exact ⟨hp.1, fun r => ih r (hp.2 r)⟩
  | start | commit | rollback => exact hp.elim

/-- The usual line of a service function: go on, or answer an error. -/
theorem every_then {ε : Type} {p : Prog DB Key Env Call (Except ε α)}
    {k : Except ε α → Prog DB Key Env Call β} (hp : Every R S p)
    (hok : ∀ v, Every R S (k (.ok v))) (herr : ∀ f, Every R S (k (.error f))) :
    Every R S (p >>= k) := by
  refine every_bind hp fun r => ?_
  cases r with
  | ok v => exact hok v
  | error f => exact herr f

theorem Every.fails (hp : Every R S p) :
    Fails R (fun _ => True) p := by
  induction p with
  | ret a => trivial
  | query q k ih => exact fun f => ih _ (hp.2 _)
  | call c k ih => exact ⟨hp.1, fun r => ih r (hp.2 r)⟩
  | start | commit | rollback => exact hp.elim

theorem Every.mono {S' : {β : Type} → Stmt DB Key Env β → Prop} (hp : Every R S p)
    (hS : ∀ {β : Type} {q : Stmt DB Key Env β}, S q → S' q) : Every R S' p := by
  induction p with
  | ret a => trivial
  | query q k ih => exact ⟨hS hp.1, fun r => ih r (hp.2 r)⟩
  | call c k ih => exact ⟨hp.1, fun r => ih r (hp.2 r)⟩
  | start | commit | rollback => exact hp.elim

/-- Statements with writes in `W`, and calls nobody remembers. -/
abbrev Quiet (R : Remote Env World Call) (W : (DB → DB) → Prop) (p : Prog DB Key Env Call α) :
    Prop :=
  Every R (fun q => ∀ begun env busy db e, q begun env busy db = some e → W e.write) p

/-- A stretch that only talks to the outside, in calls nobody remembers, with
`Post` to hold of its answer. -/
@[simp] def Outside (R : Remote Env World Call) (Post : α → Prop) : Prog DB Key Env Call α → Prop
  | .ret r => Post r
  | .call c k => (∀ i r w, R.observe i c r w = w) ∧ ∀ r, Outside R Post (k r)
  | .query _ _ => False
  | .start _ => False
  | .commit _ => False
  | .rollback _ => False

@[simp] theorem outside_ite [Decidable c] :
    Outside R Post (if c then p else q) ↔ (c → Outside R Post p) ∧ (¬ c → Outside R Post q) := by
  split <;> simp [*]

theorem outside_call {c : Call β} {k : β → Prog DB Key Env Call α}
    (hc : ∀ i r w, R.observe i c r w = w) (hk : ∀ r, Outside R Post (k r)) :
    Outside R Post (Tx.call c >>= k) :=
  ⟨hc, hk⟩

theorem outside_bind {Post' : β → Prop} (hp : Outside R Post p)
    (hk : ∀ r, Post r → Outside R Post' (k r)) : Outside R Post' (p >>= k) := by
  induction p with
  | ret r => exact hk r hp
  | call c next ih => exact ⟨hp.1, fun r => ih r (hp.2 r)⟩
  | query | start | commit | rollback => exact hp.elim

theorem Outside.every (hp : Outside R Post p) : Every R S p := by
  induction p with
  | ret r => trivial
  | call c next ih => exact ⟨hp.1, fun r => ih r (hp.2 r)⟩
  | query | start | commit | rollback => exact hp.elim

end Prog

/-- How a transaction looks after a quiet stretch: it began when it began, it
owns at least what it owned, and `w` was added to its writes. -/
structure Open.Extends (W : (DB → DB) → Prop) (o o' : Open DB Key Env) :
    Prop where
  begun : o'.begun = o.begun
  locks : ∀ κ, κ ∈ o.locks → κ ∈ o'.locks
  write : ∃ w, W w ∧ ∀ db, o'.write db = w (o.write db)

variable {i : Nat} {a : A} {x : DB × World}

namespace Protocol

open Prog

/-- Every way through `p` ends in `Q` with the transaction in good order, or
in `E` after it has failed. -/
def Holds (P : Protocol DB Key World A) (R : Remote Env World Call)
    (E : α → Prop) (Q : α → Open DB Key Env → DB × World → Prop) :
    Prog DB Key Env Call α → Open DB Key Env → DB × World → Prop
  | .ret r, o, x => Q r o x
  | .query q k, o, x =>
    (∀ env busy e, q o.begun env busy (o.write x.1) = some e → P.Stable (e.locks ++ o.locks)
        (Holds P R E Q (k (.ok e.value)) (o.extend e)) x) ∧
    ∀ f, Fails R E (k (.error f))
  | .call c k, o, x =>
    (∀ i r w, R.observe i c r w = w) ∧
    ∀ env, P.Stable o.locks (Holds P R E Q (k (R.answer env c)) o) x
  | .start _, _, _ => False
  | .commit _, _, _ => False
  | .rollback _, _, _ => False

variable {P : Protocol DB Key World A} {R : Remote Env World Call}
variable {W : (DB → DB) → Prop}

section Rules

variable {E : β → Prop} {Q : β → Open DB Key Env → DB × World → Prop}
variable {o : Open DB Key Env} {x : DB × World}

theorem holds_query {q : Stmt DB Key Env α} {k : Except Fault α → Prog DB Key Env Call β}
    (hok : ∀ env busy e, q o.begun env busy (o.write x.1) = some e →
      ∀ y, P.rely (· ∈ e.locks ++ o.locks) x y → P.Holds R E Q (k (.ok e.value)) (o.extend e) y)
    (herr : ∀ f, Fails R E (k (.error f))) :
    P.Holds R E Q (query q >>= k) o x :=
  ⟨hok, herr⟩

theorem holds_call {c : Call α} (hc : ∀ i r w, R.observe i c r w = w)
    (h : ∀ r y, P.rely (· ∈ o.locks) x y → P.Holds R E Q (k r) o y) :
    P.Holds R E Q (call c >>= k) o x :=
  ⟨hc, fun env y hy => h (R.answer env c) y hy⟩

theorem holds_bind {D : α → Prop} {Q' : α → Open DB Key Env → DB × World → Prop}
    (h : P.Holds R D Q' p o x) (hok : ∀ r o' y, Q' r o' y → P.Holds R E Q (k r) o' y)
    (hk : ∀ r, D r → Fails R E (k r)) : P.Holds R E Q (p >>= k) o x := by
  induction p generalizing o x with
  | ret r => exact hok r o x h
  | query q next ih =>
    refine ⟨fun env busy e he y hy => ih _ (h.1 env busy e he y hy), ?_⟩
    exact fun f => fails_bind (h.2 f) hk
  | call c next ih => exact ⟨h.1, fun env y hy => ih _ (h.2 env y hy)⟩
  | start | commit | rollback => exact h.elim

theorem Holds.mono {Q' : β → Open DB Key Env → DB × World → Prop}
    {p : Prog DB Key Env Call β} (h : P.Holds R E Q p o x)
    (hQ : ∀ r o' y, Q r o' y → Q' r o' y) : P.Holds R E Q' p o x := by
  rw [← Prog.bind_pure p]
  exact holds_bind h hQ fun _ hr => hr

/-- A stretch that may answer an error, which the caller passes on. -/
theorem holds_attempt {ε δ : Type} {p : Prog DB Key Env Call (Except ε α)}
    {k : Except ε α → Prog DB Key Env Call (Except δ β)}
    {Q : Except ε α → Open DB Key Env → DB × World → Prop}
    {Q' : Except δ β → Open DB Key Env → DB × World → Prop} (hp : P.Holds R Failed Q p o x)
    (hk : ∀ f, ∃ g, k (.error f) = pure (.error g))
    (herr : ∀ f g o' y, Q (.error f) o' y → Q' (.error g) o' y)
    (hok : ∀ v o' y, Q (.ok v) o' y → P.Holds R Failed Q' (k (.ok v)) o' y) :
    P.Holds R Failed Q' (p >>= k) o x := by
  refine holds_bind hp (fun r o' y hr => ?_) ?_
  · cases r with
    | ok v => exact hok v o' y hr
    | error f =>
      obtain ⟨g, hg⟩ := hk f
      rw [hg]
      exact herr f g o' y hr
  · rintro r ⟨f, rfl⟩
    obtain ⟨g, hg⟩ := hk f
    rw [hg]
    exact ⟨g, rfl⟩

/-- A quiet stretch keeps what the keys owned before it guarantee. -/
theorem holds_quiet (hid : W id) (hcomp : ∀ {v w}, W v → W w → W fun db => w (v db))
    {p : Prog DB Key Env Call β} (hp : Quiet R W p) :
    P.Holds R (fun _ => True)
      (fun _ o' y => o.Extends W o' ∧ P.rely (· ∈ o.locks) x y) p o x := by
  induction p generalizing o x with
  | ret r => exact ⟨⟨rfl, fun _ h => h, id, hid, fun _ => rfl⟩, P.rely_refl _ _⟩
  | query q next ih =>
    refine ⟨fun env busy e he y hy => ?_, fun f => (hp.2 _).fails⟩
    refine (ih _ (hp.2 _)).mono fun r o' z hz => ?_
    obtain ⟨⟨hbegun, hlocks, w, hw, hwrite⟩, hyz⟩ := hz
    have hold : ∀ κ, κ ∈ o.locks → κ ∈ e.locks ++ o.locks :=
      fun κ hκ => List.mem_append_right _ hκ
    refine ⟨⟨hbegun, fun κ hκ => hlocks κ (hold κ hκ),
      fun db => w (e.write db), hcomp (hp.1 _ _ _ _ _ he) hw, hwrite⟩, ?_⟩
    exact P.rely_trans (P.rely_anti hold hy) (P.rely_anti hold hyz)
  | call c next ih =>
    refine ⟨hp.1, fun env y hy => (ih _ (hp.2 _)).mono fun r o' z hz => ?_⟩
    exact ⟨hz.1, P.rely_trans hy hz.2⟩
  | start | commit | rollback => exact hp.elim

/-- A stretch that only talks to the outside does nothing to its transaction. -/
theorem holds_outside {Post : β → Prop} {p : Prog DB Key Env Call β} (hp : Outside R Post p) :
    P.Holds R (fun _ => False)
      (fun r o' y => Post r ∧ o' = o ∧ P.rely (· ∈ o.locks) x y) p o x := by
  induction p generalizing x with
  | ret r => exact ⟨hp, rfl, P.rely_refl _ _⟩
  | call c next ih =>
    refine ⟨hp.1, fun env y hy => (ih _ (hp.2 _)).mono fun r o' z hz => ?_⟩
    exact ⟨hz.1, hz.2.1, P.rely_trans hy hz.2.2⟩
  | query | start | commit | rollback => exact hp.elim

end Rules

/-! ## Back to the protocol -/

/-- Outside a working transaction a stretch does nothing at all. -/
theorem meets_fails (hstay : ∀ i a x, P.move i a x a x) {ses : Session DB Key Env}
    (hses : ∀ o, ses ≠ .active o) (hp : Fails R E p)
    (h : ∀ r y, E r → P.rely (fun _ => False) x y → P.Meets R i (k r) ses a y) :
    P.Meets R i (p >>= k) ses a x := by
  have hnone : ∀ κ : Key, False → κ ∈ ([] : List Key) := fun _ h => h.elim
  induction p generalizing x with
  | ret r => exact h r x hp (P.rely_refl _ _)
  | query q next ih =>
    cases ses with
    | active o => exact absurd rfl (hses o)
    | idle | failed =>
    intro y hy
    have hxy := P.rely_anti hnone hy
    exact ih _ (hp _) fun r z hr hz => h r z hr (P.rely_trans hxy hz)
  | call c next ih =>
    intro env
    rw [hp.1]
    refine ⟨a, ⟨hstay i a x, fun L _ => P.rely_refl _ _⟩, fun y hy => ?_⟩
    have hxy := P.rely_anti (fun κ h => False.elim h) hy
    exact ih _ (hp.2 _) fun r z hr hz => h r z hr (P.rely_trans hxy hz)
  | start | commit | rollback => exact hp.elim

/-- A stretch may be followed by anything that meets the protocol from `Q` on,
and from a failed transaction on. -/
theorem meets_holds (hstay : ∀ i a x, P.move i a x a x)
    {Q : α → Open DB Key Env → DB × World → Prop} {o : Open DB Key Env}
    (hp : P.Holds R E Q p o x) (hok : ∀ r o' y, Q r o' y → P.Meets R i (k r) (.active o') a y)
    (hfail : ∀ r y, E r → P.rely (fun _ => False) x y → P.Meets R i (k r) .failed a y) :
    P.Meets R i (p >>= k) (.active o) a x := by
  induction p generalizing o x with
  | ret r => exact hok r o x hp
  | query q next ih =>
    refine meets_query (k := fun r => next r >>= k) ?_ ?_
    · intro env busy e he y hy
      refine ih _ (hp.1 env busy e he y hy) fun r z hr hz => ?_
      exact hfail r z hr (P.rely_trans (P.rely_anti (fun κ hκ => hκ.elim) hy) hz)
    · intro f y hy
      refine meets_fails hstay (fun _ h => by cases h) (hp.2 f) fun r z hr hz => ?_
      exact hfail r z hr (P.rely_trans hy hz)
  | call c next ih =>
    intro env
    rw [hp.1]
    refine ⟨a, ⟨hstay i a x, fun L _ => P.rely_refl _ _⟩, fun y hy => ?_⟩
    refine ih _ (hp.2 env y hy) fun r z hr hz => ?_
    exact hfail r z hr (P.rely_trans (P.rely_anti (fun κ hκ => hκ.elim) hy) hz)
  | start | commit | rollback => exact hp.elim

/-- If it may answer an error, what follows an error can do without a transaction. -/
theorem meets_attempt {ε : Type} {p : Prog DB Key Env Call (Except ε α)}
    {k : Except ε α → Prog DB Key Env Call β} (hstay : ∀ i a x, P.move i a x a x)
    {Q : Except ε α → Open DB Key Env → DB × World → Prop} {o : Open DB Key Env}
    (hp : P.Holds R Failed Q p o x) (herr : ∀ f ses y, P.Meets R i (k (.error f)) ses a y)
    (hok : ∀ v o' y, Q (.ok v) o' y → P.Meets R i (k (.ok v)) (.active o') a y) :
    P.Meets R i (p >>= k) (.active o) a x := by
  refine meets_holds hstay hp (fun r o' y hr => ?_) ?_
  · cases r with
    | error f => exact herr f _ y
    | ok v => exact hok v o' y hr
  · rintro r y ⟨f, rfl⟩ -
    exact herr f _ y

end Protocol

end WatchTrace.Tx
