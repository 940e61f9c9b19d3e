import WatchTrace.Tx.Program

/-!
# A call on its own

`solo` says what a call leaves behind when nobody else is there. To follow one
call through its parts one has to know a little more at each point: how many
steps have gone by, which the environment depends on, and the session. `exec`
returns all of it, and so the meaning of a sequence is the meaning of its
second part from where the first one stopped.
-/

namespace WatchTrace.Tx

variable {DB Key Env : Type} {Call : Type → Type} {World α β γ : Type}

/-- Where a call that runs alone has got to. -/
structure Point (DB Key Env World : Type) where
  steps : Nat
  session : Session DB Key Env
  db : DB
  world : World

variable {q : Stmt DB Key Env γ}

namespace Prog

variable (R : Remote Env World Call) (i : Nat) (env : Nat → Env)

/-- The answer of a program that runs alone, and where it stops. -/
def exec : Prog DB Key Env Call α → Point DB Key Env World → α × Point DB Key Env World
  | .ret a, c => (a, c)
  | .start k, ⟨n, _, db, w⟩ => (k (.ok ())).exec ⟨n + 1, .active (.fresh (env n)), db, w⟩
  | .query q k, ⟨n, .active o, db, w⟩ =>
    match q o.begun (env n) (fun _ => false) (o.write db) with
    | none => (k (.error .rejected)).exec ⟨n + 1, .failed, db, w⟩
    | some e => (k (.ok e.value)).exec ⟨n + 1, .active (o.extend e), db, w⟩
  | .query _ k, ⟨n, .failed, db, w⟩ => (k (.error .aborted)).exec ⟨n + 1, .failed, db, w⟩
  | .query _ k, ⟨n, .idle, db, w⟩ => (k (.error .failed)).exec ⟨n + 1, .idle, db, w⟩
  | .commit k, ⟨n, .active o, db, w⟩ => (k (.ok ())).exec ⟨n + 1, .idle, o.write db, w⟩
  | .commit k, ⟨n, .failed, db, w⟩ => (k (.error .aborted)).exec ⟨n + 1, .idle, db, w⟩
  | .commit k, ⟨n, .idle, db, w⟩ => (k (.error .failed)).exec ⟨n + 1, .idle, db, w⟩
  | .rollback k, ⟨n, _, db, w⟩ => k.exec ⟨n + 1, .idle, db, w⟩
  | .call c k, ⟨n, ses, db, w⟩ =>
    (k (R.answer (env n) c)).exec ⟨n + 1, ses, db, R.observe i c (R.answer (env n) c) w⟩

variable {R i env}

/-- `solo` is `exec` without the steps and the session. -/
theorem solo_eq (p : Prog DB Key Env Call α) (n : Nat) (ses : Session DB Key Env)
    (db : DB) (w : World) :
    p.solo R i env n ses db w =
      ((p.exec R i env ⟨n, ses, db, w⟩).1, (p.exec R i env ⟨n, ses, db, w⟩).2.db,
        (p.exec R i env ⟨n, ses, db, w⟩).2.world) := by
  induction p generalizing n ses db w with
  | ret a => rfl
  | start k ih => exact ih _ _ _ _ _
  | query q k ih =>
    cases ses with
    | idle | failed => exact ih _ _ _ _ _
    | active o =>
    cases hq : q o.begun (env n) (fun _ => false) (o.write db) with
    | none | some =>
      simp only [solo, exec, hq]
      exact ih _ _ _ _ _
  | commit k ih => cases ses <;> exact ih _ _ _ _ _
  | rollback k ih => exact ih _ _ _ _
  | call c k ih => exact ih _ _ _ _ _

theorem exec_bind (p : Prog DB Key Env Call γ) (k : γ → Prog DB Key Env Call α)
    (c : Point DB Key Env World) :
    (p >>= k).exec R i env c =
      (k (p.exec R i env c).1).exec R i env (p.exec R i env c).2 := by
  induction p generalizing c with
  | ret a => rfl
  | start next ih => exact ih _ _
  | query q next ih =>
    obtain ⟨n, ses, db, w⟩ := c
    cases ses with
    | idle | failed => exact ih _ _
    | active o =>
    cases hq : q o.begun (env n) (fun _ => false) (o.write db) with
    | none | some =>
      simp only [query_bind, exec, hq]
      exact ih _ _
  | commit next ih =>
    obtain ⟨n, ses, db, w⟩ := c
    cases ses <;> exact ih _ _
  | rollback next ih => exact ih _
  | call call next ih => exact ih _ _

variable {n : Nat} {ses : Session DB Key Env} {o : Open DB Key Env} {db : DB} {w : World}

theorem exec_then {p : Prog DB Key Env Call γ} {k : γ → Prog DB Key Env Call α}
    {c c' : Point DB Key Env World} {r : γ} (h : p.exec R i env c = (r, c')) :
    (p >>= k).exec R i env c = (k r).exec R i env c' := by
  rw [exec_bind, h]

theorem exec_start : (Tx.start : Prog DB Key Env Call _).exec R i env ⟨n, ses, db, w⟩ =
      (.ok (), ⟨n + 1, .active (.fresh (env n)), db, w⟩) := rfl

theorem exec_query {e : Effect DB Key γ}
    (h : q o.begun (env n) (fun _ => false) (o.write db) = some e) :
    (Tx.query q : Prog DB Key Env Call _).exec R i env ⟨n, .active o, db, w⟩ =
      (.ok e.value, ⟨n + 1, .active (o.extend e), db, w⟩) := by
  simp only [Tx.query, exec, h]

theorem exec_query_refused (h : q o.begun (env n) (fun _ => false) (o.write db) = none) :
    (Tx.query q : Prog DB Key Env Call _).exec R i env ⟨n, .active o, db, w⟩ =
      (.error .rejected, ⟨n + 1, .failed, db, w⟩) := by
  simp only [Tx.query, exec, h]

theorem exec_commit : (Tx.commit : Prog DB Key Env Call _).exec R i env ⟨n, .active o, db, w⟩ =
      (.ok (), ⟨n + 1, .idle, o.write db, w⟩) := rfl

theorem exec_call {c : Call γ} (h : ∀ r w, R.observe i c r w = w) :
    (Tx.call c : Prog DB Key Env Call γ).exec R i env ⟨n, ses, db, w⟩ =
      (R.answer (env n) c, ⟨n + 1, ses, db, w⟩) := by
  simp only [Tx.call, exec, h]

end Prog

end WatchTrace.Tx
