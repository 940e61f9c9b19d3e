/-!
# Processes that may stop anywhere

A process does one thing after another: it looks at its memory, at a file, at the
clock, it calls somebody. Each of these is an operation, and what the process does
next depends on the answers so far, so a call is a tree of operations. What an
operation answers and what it leaves behind depends on the state and on an
environment that nobody controls.

A process makes the same call again and again. Between any two operations it may be
stopped and started anew; then the rest of the call is lost, and of the state what
does not survive. An invariant of such a process has to hold after every single
operation. That it does is a property of the call alone: `Script.Safe` follows the
tree, and `Process.invariant` carries it over all runs.
-/

namespace WatchTrace.Proc

inductive Script (Op : Type → Type) (α : Type) : Type 1
  | ret (a : α)
  | op {β : Type} (o : Op β) (next : β → Script Op α)

variable {Op : Type → Type} {α β σ Env : Type}

namespace Script

def bind : Script Op α → (α → Script Op β) → Script Op β
  | ret a, f => f a
  | op o k, f => op o fun b => (k b).bind f

instance : Monad (Script Op) where
  pure := ret
  bind := bind

@[simp] theorem pure_eq (a : α) : (pure a : Script Op α) = ret a := rfl

@[simp] theorem ret_bind (a : α) (f : α → Script Op β) : (ret a >>= f) = f a := rfl

@[simp] theorem op_bind {γ : Type} (o : Op γ) (k : γ → Script Op α) (f : α → Script Op β) :
    (op o k >>= f) = op o fun c => k c >>= f := rfl

end Script

def perform (o : Op β) : Script Op β := .op o .ret

@[simp] theorem perform_bind (o : Op β) (f : β → Script Op α) : (perform o >>= f) = .op o f := rfl

/-- What an operation answers and what it leaves behind. -/
structure Handler (Op : Type → Type) (σ Env : Type) where
  act : {β : Type} → Env → Op β → σ → β × σ

/-- The same, with an account of it: what `note` says of each operation and its answer,
the last one first. -/
def Handler.recorded {Event : Type} (H : Handler Op σ Env)
    (note : {β : Type} → Op β → β → List Event) : Handler Op (σ × List Event) Env where
  act := fun env o s =>
    ((H.act env o s.1).1, (H.act env o s.1).2, note o (H.act env o s.1).1 ++ s.2)

variable {env : Nat → Env} {f : α → Script Op β} {p : Script Op α}

section Calls

variable (H : Handler Op σ Env)

/-- A call that nobody interrupts; the environment of its `n`-th operation is
`env n`. -/
def Script.run (env : Nat → Env) : Nat → Script Op α → σ → α × σ
  | _, .ret a, s => (a, s)
  | n, .op o k, s => (k (H.act (env n) o s).1).run env (n + 1) (H.act (env n) o s).2

theorem Script.run_perform (env : Nat → Env) (n : Nat) (o : Op β) (f : β → Script Op α) (s : σ) :
    (perform o >>= f).run H env n s =
      (f (H.act (env n) o s).1).run H env (n + 1) (H.act (env n) o s).2 :=
  rfl

/-- One script after another: the second begins at some later operation. -/
theorem Script.run_bind {P : β × σ → Prop} {n : Nat} {s : σ}
    (h : ∀ m, P ((f (p.run H env n s).1).run H env m (p.run H env n s).2)) :
    P ((p >>= f).run H env n s) := by
  induction p generalizing n s with
  | ret a => exact h n
  | op o k ih => exact ih _ h

/-- So many calls, one after another, each with its own environments. -/
def Script.calls (main : Script Op α) (env : Nat → Nat → Env) : Nat → σ → σ
  | 0, s => s
  | n + 1, s => (main.run H (env n) 0 (calls main env n s)).2

end Calls

/-- A process: the call it makes, how operations are answered, and what is left of the
state when it is started anew. -/
structure Process (Op : Type → Type) (α σ Env : Type) : Type 1 where
  main : Script Op α
  handler : Handler Op σ Env
  restart : σ → σ

inductive Move (Env : Type)
  | next (env : Env)
  | stop

/-- The rest of the call in progress, and the state. -/
structure Point (Op : Type → Type) (α σ : Type) : Type 1 where
  rest : Option (Script Op α)
  state : σ

namespace Process

variable (P : Process Op α σ Env)

def move (x : Point Op α σ) : Move Env → Point Op α σ
  | .stop => ⟨none, P.restart x.state⟩
  | .next env =>
    match x.rest with
    | none => ⟨some P.main, x.state⟩
    | some (.ret _) => ⟨none, x.state⟩
    | some (.op o k) => ⟨some (k (P.handler.act env o x.state).1), (P.handler.act env o x.state).2⟩

def moves (x : Point Op α σ) (ms : List (Move Env)) : Point Op α σ := ms.foldl P.move x

end Process

/-- In environments of a class, the invariant holds after each operation, and in the
end `Q` does. -/
def Script.Safe (H : Handler Op σ Env) (C : Env → Prop) (I : σ → Prop) (Q : α → σ → Prop) :
    Script Op α → σ → Prop
  | .ret a, s => Q a s
  | .op o k, s => ∀ env, C env → I (H.act env o s).2 ∧
      (k (H.act env o s).1).Safe H C I Q (H.act env o s).2

variable {Q : α → σ → Prop} {s : σ}

namespace Script

variable {H : Handler Op σ Env} {C : Env → Prop} {I : σ → Prop}

theorem safe_perform {o : Op β} {f : β → Script Op α} (h : ∀ env, C env →
      I (H.act env o s).2 ∧ (f (H.act env o s).1).Safe H C I Q (H.act env o s).2) :
    (perform o >>= f).Safe H C I Q s :=
  h

theorem safe_bind {Q' : β → σ → Prop} (h : p.Safe H C I Q s)
    (hf : ∀ a s, Q a s → (f a).Safe H C I Q' s) : (p >>= f).Safe H C I Q' s := by
  induction p generalizing s with
  | ret a => exact hf a s h
  | op o k ih => exact fun env henv => ⟨(h env henv).1, ih _ (h env henv).2⟩

/-- What is shown of a script holds of each of its runs. -/
theorem run_of_safe (h : p.Safe H C I Q s) (henv : ∀ n, C (env n)) (n : Nat) :
    Q (p.run H env n s).1 (p.run H env n s).2 := by
  induction p generalizing n s with
  | ret a => exact h
  | op o k ih => exact ih _ (h (env n) (henv n)).2 (n + 1)

end Script

namespace Process

variable {P : Process Op α σ Env} {I : σ → Prop}

/-- The invariant holds, and the rest of the call keeps it. -/
def Ready (P : Process Op α σ Env) (I : σ → Prop) (x : Point Op α σ) : Prop :=
  I x.state ∧ ∀ p ∈ x.rest, p.Safe P.handler (fun _ => True) I (fun _ _ => True) x.state

theorem safe_move (hmain : ∀ s, I s → P.main.Safe P.handler (fun _ => True) I (fun _ _ => True) s)
    (hrestart : ∀ s, I s → I (P.restart s)) {x : Point Op α σ}
    (h : Ready P I x) (m : Move Env) : Ready P I (P.move x m) := by
  obtain ⟨hinv, hrest⟩ := h
  cases m with
  | stop => exact ⟨hrestart _ hinv, fun p hp => nomatch hp⟩
  | next env =>
  obtain ⟨rest, s⟩ := x
  cases rest with
  | none =>
    refine ⟨hinv, fun p hp => ?_⟩
    cases hp
    exact hmain s hinv
  | some p =>
  have hsafe := hrest p rfl
  cases p with
  | ret a => exact ⟨hinv, fun p hp => nomatch hp⟩
  | op o k =>
  refine ⟨(hsafe env trivial).1, fun p hp => ?_⟩
  cases hp
  exact (hsafe env trivial).2

/-- What a call keeps, wherever it is stopped, holds at every point of every run. -/
theorem invariant (hmain : ∀ s, I s → P.main.Safe P.handler (fun _ => True) I (fun _ _ => True) s)
    (hrestart : ∀ s, I s → I (P.restart s)) (hs : I s) (ms : List (Move Env)) :
    I (P.moves ⟨none, s⟩ ms).state := by
  have hall : ∀ x : Point Op α σ, Ready P I x → I (P.moves x ms).state := by
    induction ms with
    | nil => exact fun x hx => hx.1
    | cons m ms ih => exact fun x hx => ih _ (safe_move hmain hrestart hx m)
  exact hall ⟨none, s⟩ ⟨hs, fun p hp => nomatch hp⟩

end Process

end WatchTrace.Proc
