import WatchTrace.Tx.Inside

/-!
# A transaction nobody disturbs

Once a transaction owns a key that everybody needs, the committed rows stand
still until it commits, and what it sees is a matter of its own statements.
`Ensures` is the weakest precondition for that situation, and the one for a
call that runs alone: it speaks of one set of rows, the ones in view.

Most stretches answer an error as soon as a statement fails, or when they find
something amiss, and their caller then gives up. `Returns` is the form their
specifications take: what holds if the answer is not an error.
-/

namespace WatchTrace.Tx

variable {DB Key Env : Type} {Call : Type → Type} {World A : Type}
variable {α β γ ε δ : Type}

variable {p : Prog DB Key Env Call α} {k : γ → Prog DB Key Env Call α} {q : Stmt DB Key Env γ}

namespace Prog

/-- Every way through `p` on the rows `v` ends in `Q`, or in `E` after a
statement has failed. -/
def Ensures (R : Remote Env World Call) (E : α → Prop) (begun : Env)
    (Q : α → DB → Prop) : Prog DB Key Env Call α → DB → Prop
  | .ret r, v => Q r v
  | .query q k, v =>
    (∀ env busy e, q begun env busy v = some e →
      Ensures R E begun Q (k (.ok e.value)) (e.write v)) ∧
    ∀ f, Fails R E (k (.error f))
  | .call c k, v => (∀ i r w, R.observe i c r w = w) ∧ ∀ r, Ensures R E begun Q (k r) v
  | .start _, _ => False
  | .commit _, _ => False
  | .rollback _, _ => False

variable {R : Remote Env World Call} {E : α → Prop} {begun : Env}
variable {Q : α → DB → Prop} {v : DB}

theorem ensures_bind {D : γ → Prop} {Q' : γ → DB → Prop} {p : Prog DB Key Env Call γ}
    (h : Ensures R D begun Q' p v) (hok : ∀ r v', Q' r v' → Ensures R E begun Q (k r) v')
    (hk : ∀ r, D r → Fails R E (k r)) : Ensures R E begun Q (p >>= k) v := by
  induction p generalizing v with
  | ret r => exact hok r v h
  | query q next ih =>
    refine ⟨fun env busy e he => ih _ (h.1 env busy e he), fun f => ?_⟩
    exact fails_bind (h.2 f) hk
  | call c next ih => exact ⟨h.1, fun r => ih r (h.2 r)⟩
  | start | commit | rollback => exact h.elim

theorem Ensures.mono {Q' : α → DB → Prop} (h : Ensures R E begun Q p v)
    (hQ : ∀ r v', Q r v' → Q' r v') : Ensures R E begun Q' p v := by
  rw [← Prog.bind_pure p]
  exact ensures_bind h hQ fun _ hr => hr

/-! ## Stretches that answer an error when something fails -/

/-- If `p` does not answer an error, `Post` holds of its answer and the rows it
leaves in view. -/
def Returns (R : Remote Env World Call) (begun : Env) (Post : α → DB → Prop)
    (p : Prog DB Key Env Call (Except ε α)) (v : DB) : Prop :=
  Ensures R Failed begun (fun r v' => ∀ a, r = .ok a → Post a v') p v

variable {Post : α → DB → Prop}

theorem returns_ok {a : α} (h : Post a v) :
    Returns R begun Post (pure (.ok a) : Prog DB Key Env Call (Except ε α)) v := by
  intro b hb
  cases hb
  exact h

theorem returns_error {f : ε} :
    Returns R begun Post (pure (.error f) : Prog DB Key Env Call (Except ε α)) v :=
  fun _ h => by cases h

theorem Returns.mono {Post' : α → DB → Prop}
    {p : Prog DB Key Env Call (Except ε α)} (h : Returns R begun Post p v)
    (hP : ∀ a v', Post a v' → Post' a v') : Returns R begun Post' p v :=
  Ensures.mono h fun _ v' hr a ha => hP a v' (hr a ha)

/-- After a failed statement, or an error, the caller answers an error. -/
def GivesUp (k : Except δ γ → Prog DB Key Env Call (Except ε α)) : Prop :=
  ∀ f, ∃ g, k (.error f) = pure (.error g)

theorem returns_query {k : Except Fault γ → Prog DB Key Env Call (Except ε α)}
    (hok : ∀ env busy e, q begun env busy v = some e →
      Returns R begun Post (k (.ok e.value)) (e.write v)) (herr : GivesUp k) :
    Returns R begun Post (Tx.query q >>= k) v := by
  refine ⟨hok, fun f => ?_⟩
  obtain ⟨g, hg⟩ := herr f
  show Fails R Failed (k (.error f))
  rw [hg]
  exact ⟨g, rfl⟩

/-- A statement at the end of a stretch. -/
theorem returns_last {q : Stmt DB Key Env α}
    (hok : ∀ env busy e, q begun env busy v = some e → Post e.value (e.write v)) :
    Returns R begun Post (Tx.query q : Prog DB Key Env Call (Except Fault α)) v := by
  refine ⟨fun env busy e he a ha => ?_, fun f => ⟨f, rfl⟩⟩
  cases ha
  exact hok env busy e he

theorem returns_bind {Mid : γ → DB → Prop} {p : Prog DB Key Env Call (Except δ γ)}
    {k : Except δ γ → Prog DB Key Env Call (Except ε α)}
    (hp : Returns R begun Mid p v)
    (hok : ∀ a v', Mid a v' → Returns R begun Post (k (.ok a)) v')
    (herr : GivesUp k) : Returns R begun Post (p >>= k) v := by
  refine ensures_bind (D := Failed) hp (fun r v' hr => ?_) ?_
  · cases r with
    | ok a => exact hok a v' (hr a rfl)
    | error f =>
      obtain ⟨g, hg⟩ := herr f
      show Returns R begun Post (k (.error f)) v'
      rw [hg]
      exact returns_error
  · rintro r ⟨f, rfl⟩
    obtain ⟨g, hg⟩ := herr f
    rw [hg]
    exact ⟨g, rfl⟩

end Prog

/-! ## While the rows stand still -/

variable {o : Open DB Key Env}

namespace Protocol

open Prog

variable {P : Protocol DB Key World A} {R : Remote Env World Call}

/-- How a transaction looks after a stretch on rows that stood still. -/
structure Undisturbed (o : Open DB Key Env) (x : DB × World)
    (o' : Open DB Key Env) (y : DB × World) : Prop where
  rows : y.1 = x.1
  begun : o'.begun = o.begun
  locks : ∀ κ, κ ∈ o.locks → κ ∈ o'.locks

theorem holds_ensures {κ : Key}
    (hfreeze : ∀ {L : Key → Prop} {x y}, L κ → P.rely L x y → y.1 = x.1) {E : α → Prop}
    {Q : α → DB → Prop} {x : DB × World} (hκ : κ ∈ o.locks)
    (h : Ensures R E o.begun Q p (o.write x.1)) :
    P.Holds R E (fun r o' y => Undisturbed o x o' y ∧ Q r (o'.write y.1)) p o x := by
  induction p generalizing o x with
  | ret r => exact ⟨⟨rfl, rfl, fun _ h => h⟩, h⟩
  | query q next ih =>
    refine ⟨fun env busy e he y hy => ?_, h.2⟩
    have hmem : κ ∈ e.locks ++ o.locks := List.mem_append_right _ hκ
    have hrows : y.1 = x.1 := hfreeze hmem hy
    have hnext : Ensures R E (o.extend e).begun Q (next (.ok e.value))
        ((o.extend e).write y.1) := by
      rw [hrows]
      exact h.1 env busy e he
    refine (ih _ hmem hnext).mono fun r o' z hz => ⟨?_, hz.2⟩
    exact ⟨hz.1.rows.trans hrows, hz.1.begun,
      fun κ' h' => hz.1.locks κ' (List.mem_append_right _ h')⟩
  | call c next ih =>
    refine ⟨h.1, fun env y hy => ?_⟩
    have hrows : y.1 = x.1 := hfreeze hκ hy
    have hnext : Ensures R E o.begun Q (next (R.answer env c)) (o.write y.1) := by
      rw [hrows]
      exact h.2 _
    refine (ih _ hκ hnext).mono fun r o' z hz => ⟨?_, hz.2⟩
    exact ⟨hz.1.rows.trans hrows, hz.1.begun, hz.1.locks⟩
  | start | commit | rollback => exact h.elim

end Protocol

/-! ## Running alone -/

variable {c : Call γ}

variable {E : γ → Prop} {ses : Session DB Key Env} {S' : {β : Type} → Stmt DB Key Env β → Prop}

namespace Prog

variable {R : Remote Env World Call} {i : Nat} {env : Nat → Env} {n : Nat}
variable {db : DB} {w : World}

theorem solo_query {k : Except Fault γ → Prog DB Key Env Call α} {e : Effect DB Key γ}
    (h : q o.begun (env n) (fun _ => false) (o.write db) = some e) :
    (Tx.query q >>= k).solo R i env n (.active o) db w =
      (k (.ok e.value)).solo R i env (n + 1) (.active (o.extend e)) db w := by
  show (query q fun r => k r).solo R i env n (.active o) db w = _
  simp only [solo, h]

theorem solo_call :
    (Tx.call c >>= k).solo R i env n ses db w = (k (R.answer (env n) c)).solo R i env (n + 1)
      ses db (R.observe i c (R.answer (env n) c) w) := rfl

theorem solo_query_refused {k : Except Fault γ → Prog DB Key Env Call α}
    (h : q o.begun (env n) (fun _ => false) (o.write db) = none) :
    (Tx.query q >>= k).solo R i env n (.active o) db w =
      (k (.error .rejected)).solo R i env (n + 1) .failed db w := by
  show (query q fun r => k r).solo R i env n (.active o) db w = _
  simp only [solo, h]

/-- A failed transaction answers errors to the end of the stretch, whatever the
rows are. -/
theorem solo_fails {p : Prog DB Key Env Call γ} (h : Fails R E p) :
    ∃ n' r, E r ∧ ∀ (db : DB) (w : World), (p >>= k).solo R i env n .failed db w =
      (k r).solo R i env n' .failed db w := by
  induction p generalizing n with
  | ret r => exact ⟨n, r, h, fun _ _ => rfl⟩
  | query q next ih => exact ih _ (h _)
  | call c next ih =>
    obtain ⟨n', r, hr, heq⟩ := ih (R.answer (env n) c) (h.2 _) (n := n + 1)
    refine ⟨n', r, hr, fun db w => ?_⟩
    rw [← heq]
    show (next (R.answer (env n) c) >>= k).solo R i env (n + 1) .failed db
      (R.observe i c (R.answer (env n) c) w) = _
    rw [h.1]
  | start | commit | rollback => exact h.elim

/-- A stretch that runs alone ends as promised, or has failed. -/
theorem solo_ensures {Q : γ → DB → Prop} {p : Prog DB Key Env Call γ}
    (h : Ensures R E o.begun Q p (o.write db)) :
    (∃ n' r o', Q r (o'.write db) ∧ (p >>= k).solo R i env n (.active o) db w =
        (k r).solo R i env n' (.active o') db w) ∨
    ∃ n' r, E r ∧ (p >>= k).solo R i env n (.active o) db w =
      (k r).solo R i env n' .failed db w := by
  induction p generalizing n o with
  | ret r => exact .inl ⟨n, r, o, h, rfl⟩
  | query q next ih =>
    cases hq : q o.begun (env n) (fun _ => false) (o.write db) with
    | none =>
      obtain ⟨n', r, hr, heq⟩ := solo_fails (k := k) (n := n + 1) (h.2 .rejected)
      refine .inr ⟨n', r, hr, ?_⟩
      rw [← heq, query_bind]
      simp only [solo, hq]
    | some e =>
    have hstep : (query q next >>= k).solo R i env n (.active o) db w =
        (next (.ok e.value) >>= k).solo R i env (n + 1)
          (.active (o.extend e)) db w := by
      rw [query_bind]
      simp only [solo, hq]
    rw [hstep]
    exact ih _ (h.1 _ _ e hq)
  | call c next ih =>
    have hstep : (call c next >>= k).solo R i env n (.active o) db w =
        (next (R.answer (env n) c) >>= k).solo R i env (n + 1)
          (.active o) db w := by
      rw [call_bind]
      simp only [solo, h.1]
    rw [hstep]
    exact ih _ (h.2 _)
  | start | commit | rollback => exact h.elim

/-- The same for a stretch whose caller gives up after an error. -/
theorem solo_returns {Post : γ → DB → Prop} (env : Nat → Env)
    {p : Prog DB Key Env Call (Except δ γ)} {k : Except δ γ → Prog DB Key Env Call (Except ε α)}
    (h : Returns R o.begun Post p (o.write db)) (hk : GivesUp k) :
    (∃ n' a o', Post a (o'.write db) ∧ (p >>= k).solo R i env n (.active o) db w =
        (k (.ok a)).solo R i env n' (.active o') db w) ∨
    ∃ g, (p >>= k).solo R i env n (.active o) db w = (.error g, db, w) := by
  rcases solo_ensures (k := k) h with ⟨n', r, o', hr, heq⟩ | ⟨n', r, ⟨f, rfl⟩, heq⟩
  · cases r with
    | ok a => exact .inl ⟨n', a, o', hr a rfl, heq⟩
    | error f =>
      obtain ⟨g, hg⟩ := hk f
      rw [hg] at heq
      exact .inr ⟨g, heq⟩
  · obtain ⟨g, hg⟩ := hk f
    rw [hg] at heq
    exact .inr ⟨g, heq⟩

/-! ## What a whole call may issue -/

/-- All statements of a program, in whichever transaction, are in `S`. -/
@[simp] def Within (S : {β : Type} → Stmt DB Key Env β → Prop) : Prog DB Key Env Call α → Prop
  | .ret _ => True
  | .start k => ∀ r, Within S (k r)
  | .query q k => S q ∧ ∀ r, Within S (k r)
  | .commit k => ∀ r, Within S (k r)
  | .rollback k => Within S k
  | .call _ k => ∀ r, Within S (k r)

section Within

variable {S : {β : Type} → Stmt DB Key Env β → Prop}

theorem within_bind {p : Prog DB Key Env Call γ} (hp : Within S p) (hk : ∀ r, Within S (k r)) :
    Within S (p >>= k) := by
  induction p with
  | ret r => exact hk r
  | start next ih => exact fun r => ih r (hp r)
  | query q next ih => exact ⟨hp.1, fun r => ih r (hp.2 r)⟩
  | commit next ih => exact fun r => ih r (hp r)
  | rollback next ih => exact ih hp
  | call c next ih => exact fun r => ih r (hp r)

/-- The usual line of a service function: go on, or answer an error. -/
theorem within_then {p : Prog DB Key Env Call (Except ε γ)}
    {k : Except ε γ → Prog DB Key Env Call α} (hp : Within S p)
    (hok : ∀ v, Within S (k (.ok v))) (herr : ∀ f, Within S (k (.error f))) :
    Within S (p >>= k) := by
  refine within_bind hp fun r => ?_
  cases r with
  | ok v => exact hok v
  | error f => exact herr f

@[simp] theorem within_ite {c : Prop} [Decidable c] {q : Prog DB Key Env Call α} :
    Within S (if c then p else q) ↔ (c → Within S p) ∧ (¬ c → Within S q) := by
  split <;> simp [*]

theorem within_start : Within S (Tx.start : Prog DB Key Env Call _) := fun _ => trivial

theorem within_commit : Within S (Tx.commit : Prog DB Key Env Call _) := fun _ => trivial

theorem within_call : Within S (Tx.call c : Prog DB Key Env Call γ) :=
  fun _ => trivial

theorem within_query (h : S q) : Within S (Tx.query q : Prog DB Key Env Call _) :=
  ⟨h, fun _ => trivial⟩

theorem Every.within (hp : Every R S p) : Within S p := by
  induction p with
  | ret a => trivial
  | query q k ih => exact ⟨hp.1, fun r => ih r (hp.2 r)⟩
  | call c k ih => exact fun r => ih r (hp.2 r)
  | start | commit | rollback => exact hp.elim

theorem Within.mono (hp : Within S p) (hS : ∀ {β : Type} {q : Stmt DB Key Env β}, S q → S' q) :
    Within S' p := by
  induction p with
  | ret a => trivial
  | start k ih => exact fun r => ih r (hp r)
  | query q k ih => exact ⟨hS hp.1, fun r => ih r (hp.2 r)⟩
  | commit k ih => exact fun r => ih r (hp r)
  | rollback k ih => exact ih hp
  | call c k ih => exact fun r => ih r (hp r)

theorem Within.and (hp : Within S p) (hp' : Within S' p) :
    Within (fun q => S q ∧ S' q) p := by
  induction p with
  | ret a => trivial
  | start k ih => exact fun r => ih r (hp r) (hp' r)
  | query q k ih => exact ⟨⟨hp.1, hp'.1⟩, fun r => ih r (hp.2 r) (hp'.2 r)⟩
  | commit k ih => exact fun r => ih r (hp r) (hp' r)
  | rollback k ih => exact ih hp hp'
  | call c k ih => exact fun r => ih r (hp r) (hp' r)

end Within

/-- All statements of a program, in whichever transaction, write in `W`. -/
abbrev Confined (W : (DB → DB) → Prop) (p : Prog DB Key Env Call α) : Prop :=
  Within (fun q => ∀ begun env busy db e, q begun env busy db = some e → W e.write) p

variable {W : (DB → DB) → Prop}

/-- What a confined call leaves when it runs alone. -/
theorem solo_confined (hid : W id) (hcomp : ∀ {v w}, W v → W w → W fun db => w (v db))
    (hp : Confined W p) (hses : ∀ o, ses = .active o → W o.write) :
    ∃ u, W u ∧ (p.solo R i env n ses db w).2.1 = u db := by
  induction p generalizing n ses db w with
  | ret a => exact ⟨id, hid, rfl⟩
  | start next ih =>
    refine ih _ (hp _) fun o ho => ?_
    cases ho
    exact hid
  | query q next ih =>
    cases ses with
    | idle => exact ih _ (hp.2 _) of_idle
    | failed => exact ih _ (hp.2 _) of_failed
    | active o =>
    simp only [solo]
    split
    · exact ih _ (hp.2 _) of_failed
    next e he =>
    refine ih _ (hp.2 _) fun o' ho' => ?_
    cases ho'
    exact hcomp (v := o.write) (w := e.write) (hses o rfl) (hp.1 _ _ _ _ _ he)
  | commit next ih =>
    cases ses with
    | idle | failed => exact ih _ (hp _) of_idle
    | active o =>
    obtain ⟨u, hu, heq⟩ : ∃ u, W u ∧ ((next (.ok ())).solo R i env (n + 1)
        .idle (o.write db) w).2.1 = u (o.write db) := ih _ (hp _) of_idle
    exact ⟨fun db => u (o.write db), hcomp (hses o rfl) hu, heq⟩
  | rollback next ih => exact ih hp of_idle
  | call c next ih => exact ih _ (hp _) hses

/-! ## What a whole call may ask of the outside -/

/-- All the remote calls of a program are of the class `C`. -/
@[simp] def Calls (C : {β : Type} → Call β → Prop) : Prog DB Key Env Call α → Prop
  | .ret _ => True
  | .start k => ∀ r, Calls C (k r)
  | .query _ k => ∀ r, Calls C (k r)
  | .commit k => ∀ r, Calls C (k r)
  | .rollback k => Calls C k
  | .call c k => C c ∧ ∀ r, Calls C (k r)

variable {C : {β : Type} → Call β → Prop}

theorem calls_bind {p : Prog DB Key Env Call γ} (hp : Calls C p) (hk : ∀ r, Calls C (k r)) :
    Calls C (p >>= k) := by
  induction p with
  | ret r => exact hk r
  | start next ih | query q next ih | commit next ih => exact fun r => ih r (hp r)
  | rollback next ih => exact ih hp
  | call c next ih => exact ⟨hp.1, fun r => ih r (hp.2 r)⟩

/-- The usual line of a service function: go on, or answer an error. -/
theorem calls_then {p : Prog DB Key Env Call (Except ε γ)}
    {k : Except ε γ → Prog DB Key Env Call α} (hp : Calls C p) (hok : ∀ v, Calls C (k (.ok v)))
    (herr : ∀ f, Calls C (k (.error f))) :
    Calls C (p >>= k) := by
  refine calls_bind hp fun r => ?_
  cases r with
  | ok v => exact hok v
  | error f => exact herr f

@[simp] theorem calls_ite {c : Prop} [Decidable c] {q : Prog DB Key Env Call α} :
    Calls C (if c then p else q) ↔ (c → Calls C p) ∧ (¬ c → Calls C q) := by
  split <;> simp [*]

theorem calls_start : Calls C (Tx.start : Prog DB Key Env Call _) :=
  fun _ => trivial

theorem calls_commit : Calls C (Tx.commit : Prog DB Key Env Call _) :=
  fun _ => trivial

theorem calls_query : Calls C (Tx.query q : Prog DB Key Env Call _) := fun _ => trivial

theorem calls_call (h : C c) : Calls C (Tx.call c : Prog DB Key Env Call γ) := ⟨h, fun _ => trivial⟩

/-- What is left of a program after a step makes no other calls. -/
theorem Calls.advance {busy : Key → Bool} {env : Env} {fate : Fate}
    {p p' : Process DB Key Env Call} {db' : DB} {w' : World} (h : Calls C p.prog)
    (hstep : Tx.advance R i busy env fate db w p = some (p', db', w')) :
    Calls C p'.prog := by
  obtain ⟨prog, ses⟩ := p
  cases prog with
  | ret a =>
    cases hstep
    trivial
  | start k => cases fate <;> cases hstep <;> exact h _
  | query q k =>
    cases ses with
    | idle | failed =>
      cases hstep
      exact h _
    | active o =>
    obtain ⟨r, -, heq⟩ := Option.map_eq_some_iff.mp hstep
    cases heq
    exact h _
  | commit k =>
    cases ses with
    | active o => cases fate <;> cases hstep <;> exact h _
    | idle | failed =>
      cases hstep
      exact h _
  | rollback k =>
    cases hstep
    exact h
  | call c k =>
    cases hstep
    exact h.2 _

end Prog

/-- A confined call meets any protocol in which writes of its class, and
whatever becomes of the outside, are moves at all times. -/
theorem Protocol.meets_confined {P : Protocol DB Key World A} {R : Remote Env World Call}
    {W : (DB → DB) → Prop} {i : Nat} {a : A} (hid : W id)
    (hcomp : ∀ {v w}, W v → W w → W fun db => w (v db))
    (hwrite : ∀ {w}, W w → ∀ L x, P.Moves i L a x a (w x.1, x.2))
    (hworld : ∀ x w', P.Moves i [] a x a (x.1, w')) (hp : Prog.Confined W p)
    (hses : ∀ o, ses = .active o → W o.write) (x : DB × World) :
    P.Meets R i p ses a x := by
  induction p generalizing ses x with
  | ret r => trivial
  | start next ih =>
    refine ⟨fun env y _ => ih _ (hp _) ?_ y, fun y _ => ih _ (hp _) of_idle y⟩
    intro o ho
    cases ho
    exact hid
  | query q next ih =>
    cases ses with
    | idle => exact fun y _ => ih _ (hp.2 _) of_idle y
    | failed => exact fun y _ => ih _ (hp.2 _) of_failed y
    | active o =>
    refine ⟨fun env busy => ?_, fun y _ => ih _ (hp.2 _) of_failed y⟩
    cases he : q o.begun env busy (o.write x.1) with
    | none => exact fun y _ => ih _ (hp.2 _) of_failed y
    | some e =>
    refine fun y _ => ih _ (hp.2 _) ?_ y
    intro o' ho'
    cases ho'
    exact hcomp (v := o.write) (w := e.write) (hses o rfl) (hp.1 _ _ _ _ _ he)
  | commit next ih =>
    cases ses with
    | idle | failed => exact fun y _ => ih _ (hp _) of_idle y
    | active o =>
      exact ⟨⟨a, hwrite (hses o rfl) o.locks x, fun y _ => ih _ (hp _) of_idle y,
        fun y _ => ih _ (hp _) of_idle y⟩, fun y _ => ih _ (hp _) of_idle y⟩
  | rollback next ih => exact fun y _ => ih hp of_idle y
  | call c next ih =>
    intro env
    exact ⟨a, hworld x _, fun y _ => ih _ (hp _) hses y⟩

end WatchTrace.Tx
