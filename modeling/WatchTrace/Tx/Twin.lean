import WatchTrace.Tx.Serial

/-!
# One call on two databases

To say that a row makes no difference is to run the same calls with and
without it. Both runs see the same clock and draw the same identifiers, so
they stay in step as long as every statement gives both the same answer; what
the databases may differ in is a relation that the statements keep.

`Agrees` is the weakest precondition of a stretch that runs on two sets of
rows at once: a statement has to answer the same on both, or be refused on
both. Most stretches are made of statements that cannot tell related rows
apart at all, and `Every.agrees` takes care of those.
-/

namespace WatchTrace.Tx

variable {DB Key Env : Type} {Call : Type → Type} {World : Type}
variable {α β γ : Type}

/-- What one statement does on two sets of rows: it is refused on both, or
answers the same value and leaves rows in `Q`. -/
inductive Alike (Q : β → DB → DB → Prop) (v v' : DB) :
    Option (Effect DB Key β) → Option (Effect DB Key β) → Prop
  | refused : Alike Q v v' none none
  | answered {e e' : Effect DB Key β} (hvalue : e'.value = e.value)
      (h : Q e.value (e.write v) (e'.write v')) : Alike Q v v' (some e) (some e')

variable {Q : β → DB → DB → Prop} {v v' : DB} {a a' : Option (Effect DB Key β)}

theorem Alike.mono {Q' : β → DB → DB → Prop} (h : Alike Q v v' a a')
    (hQ : ∀ b u u', Q b u u' → Q' b u u') : Alike Q' v v' a a' := by
  cases h with
  | refused => exact .refused
  | answered hvalue h => exact .answered hvalue (hQ _ _ _ h)

/-- What is known of the first of the two. -/
theorem Alike.with {P : β → DB → Prop} (h : Alike Q v v' a a')
    (hP : ∀ e, a = some e → P e.value (e.write v)) :
    Alike (fun b u u' => Q b u u' ∧ P b u) v v' a a' := by
  cases h with
  | refused => exact .refused
  | answered hvalue h => exact .answered hvalue ⟨h, hP _ rfl⟩

/-- A statement that cannot tell related rows apart, and keeps them related. -/
def Respects (Rel : DB → DB → Prop) (q : Stmt DB Key Env β) : Prop :=
  ∀ begun env v v', Rel v v' → Alike (fun _ => Rel) v v'
    (q begun env (fun _ => false) v) (q begun env (fun _ => false) v')

variable {Rel : DB → DB → Prop}

theorem respects_read {f : DB → β} (h : ∀ v v', Rel v v' → f v' = f v) :
    Respects Rel (Stmt.read f : Stmt DB Key Env β) :=
  fun _ _ v v' hv => .answered (h v v' hv) hv

/-- A statement that has the same effect on related rows. -/
theorem respects_of_eq {q : Stmt DB Key Env β} (heq : ∀ begun env v v', Rel v v' →
      q begun env (fun _ => false) v' = q begun env (fun _ => false) v)
    (hkeep : ∀ begun env v v' e, Rel v v' → q begun env (fun _ => false) v = some e →
      Rel (e.write v) (e.write v')) : Respects Rel q := by
  intro begun env v v' hv
  rw [heq begun env v v' hv]
  cases he : q begun env (fun _ => false) v with
  | none => exact .refused
  | some e => exact .answered rfl (hkeep begun env v v' e hv he)

variable {p : Prog DB Key Env Call α}

variable {D : γ → Prop} {k : γ → Prog DB Key Env Call α}

namespace Prog

/-- `p` runs on `v` and on `v'` with the same answers, and ends in `Q`, or in
`E` after both have failed. -/
def Agrees (R : Remote Env World Call) (E : α → Prop) (begun : Env)
    (Q : α → DB → DB → Prop) : Prog DB Key Env Call α → DB → DB → Prop
  | .ret r, v, v' => Q r v v'
  | .query q k, v, v' =>
    (∀ env, Alike (fun b u u' => Agrees R E begun Q (k (.ok b)) u u') v v'
      (q begun env (fun _ => false) v) (q begun env (fun _ => false) v')) ∧
    ∀ f, Fails R E (k (.error f))
  | .call c k, v, v' => (∀ i r w, R.observe i c r w = w) ∧ ∀ r, Agrees R E begun Q (k r) v v'
  | .start _, _, _ => False
  | .commit _, _, _ => False
  | .rollback _, _, _ => False

variable {R : Remote Env World Call} {E : α → Prop} {begun : Env}
variable {Q : α → DB → DB → Prop} {v v' : DB}

theorem agrees_bind {Q' : γ → DB → DB → Prop} {p : Prog DB Key Env Call γ}
    (h : Agrees R D begun Q' p v v') (hok : ∀ r u u', Q' r u u' → Agrees R E begun Q (k r) u u')
    (hk : ∀ r, D r → Fails R E (k r)) : Agrees R E begun Q (p >>= k) v v' := by
  induction p generalizing v v' with
  | ret r => exact hok r v v' h
  | query q next ih =>
    refine ⟨fun env => (h.1 env).mono fun b u u' hu => ih _ hu, fun f => ?_⟩
    exact fails_bind (h.2 f) hk
  | call c next ih => exact ⟨h.1, fun r => ih r (h.2 r)⟩
  | start | commit | rollback => exact h.elim

theorem Agrees.mono {Q' : α → DB → DB → Prop} (h : Agrees R E begun Q p v v')
    (hQ : ∀ r u u', Q r u u' → Q' r u u') : Agrees R E begun Q' p v v' := by
  rw [← Prog.bind_pure p]
  exact agrees_bind h hQ fun _ hr => hr

theorem agrees_query {q : Stmt DB Key Env γ} {k : Except Fault γ → Prog DB Key Env Call α}
    (hok : ∀ env, Alike (fun b u u' => Agrees R E begun Q (k (.ok b)) u u') v v'
      (q begun env (fun _ => false) v) (q begun env (fun _ => false) v'))
    (herr : ∀ f, Fails R E (k (.error f))) :
    Agrees R E begun Q (Tx.query q >>= k) v v' :=
  ⟨hok, herr⟩

/-- A stretch of statements that respect a relation keeps it. -/
theorem Every.agrees (hp : Every R (Respects Rel) p) (hv : Rel v v') :
    Agrees R (fun _ => True) begun (fun _ => Rel) p v v' := by
  induction p generalizing v v' with
  | ret a => exact hv
  | query q next ih =>
    refine ⟨fun env => (hp.1 begun env v v' hv).mono fun b u u' hu => ?_, fun f => ?_⟩
    · exact ih _ (hp.2 _) hu
    · exact (hp.2 (.error f)).fails
  | call c next ih => exact ⟨hp.1, fun r => ih r (hp.2 r) hv⟩
  | start | commit | rollback => exact hp.elim

/-- What no statement can undo still holds at the end of the first run. -/
theorem Agrees.keeps {F : DB → Prop} (h : Agrees R E begun Q p v v')
    (hp : Quiet R (fun w => ∀ db, F db → F (w db)) p) (hv : F v) :
    Agrees R E begun (fun r u u' => Q r u u' ∧ F u) p v v' := by
  induction p generalizing v v' with
  | ret r => exact ⟨h, hv⟩
  | query q next ih =>
    refine ⟨fun env => ?_, h.2⟩
    have hq := h.1 env
    have hwrite := hp.1 begun env (fun _ => false) v
    generalize q begun env (fun _ => false) v = a at hq hwrite ⊢
    generalize q begun env (fun _ => false) v' = a' at hq ⊢
    cases hq with
    | refused => exact .refused
    | answered hvalue hnext => exact .answered hvalue (ih _ hnext (hp.2 _) (hwrite _ rfl v hv))
  | call c next ih => exact ⟨h.1, fun r => ih r (h.2 r) (hp.2 r) hv⟩
  | start | commit | rollback => exact h.elim

/-! ## Running alone -/

variable {i : Nat} {n : Nat} {db db' : DB}

/-- A stretch that runs alone on two databases ends in step, or has failed on
both. -/
theorem solo_agrees {P : γ → DB → DB → Prop} (env : Nat → Env) (w w' : World)
    {p : Prog DB Key Env Call γ} {o o' : Open DB Key Env} (hbegun : o'.begun = o.begun)
    (h : Agrees R D o.begun P p (o.write db) (o'.write db')) :
    (∃ n' r o₁ o₁', P r (o₁.write db) (o₁'.write db') ∧ (p >>= k).solo R i env n (.active o) db w =
        (k r).solo R i env n' (.active o₁) db w ∧
      (p >>= k).solo R i env n (.active o') db' w' = (k r).solo R i env n' (.active o₁') db' w') ∨
    ∃ n' r, D r ∧ (p >>= k).solo R i env n (.active o) db w = (k r).solo R i env n' .failed db w ∧
      (p >>= k).solo R i env n (.active o') db' w' =
        (k r).solo R i env n' .failed db' w' := by
  induction p generalizing n o o' with
  | ret r => exact .inl ⟨n, r, o, o', h, rfl, rfl⟩
  | query q next ih =>
    have hq := h.1 (env n)
    simp only [query_bind, solo, hbegun]
    generalize q o.begun (env n) (fun _ => false) (o.write db) = a at hq ⊢
    generalize q o.begun (env n) (fun _ => false) (o'.write db') = a' at hq ⊢
    cases hq with
    | refused =>
      obtain ⟨n', r, hr, heq⟩ := solo_fails (k := k) (n := n + 1) (h.2 .rejected)
      exact .inr ⟨n', r, hr, heq db w, heq db' w'⟩
    | @answered e e' hvalue hnext =>
    simp only [hvalue]
    have hb : (o'.extend e').begun = (o.extend e).begun := hbegun
    exact ih (.ok e.value) hb hnext
  | call c next ih =>
    simp only [call_bind, solo, h.1]
    exact ih _ hbegun (h.2 _)
  | start | commit | rollback => exact h.elim

end Prog

end WatchTrace.Tx
