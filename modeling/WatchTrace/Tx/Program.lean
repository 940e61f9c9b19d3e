/-!
# Programs that talk to a database

A service function that works on a database is written here as a tree: it
opens a transaction, issues statements one at a time, commits or rolls back,
and now and then calls something outside. Each node hands its answer to the
rest of the program, so control flow may depend on everything read so far,
and a node is exactly one point at which other sessions can slip in between.

A statement is a function of what its transaction can see. It answers a
value, the change it adds to the transaction's pending writes, and the keys
it has to own for that change to be safe; or it raises an error. What the
clock says, which identifier a generator hands out and what a remote call
answers are not the program's choice: they arrive with every step as an
environment, and a transaction also remembers the one it began in.
-/

namespace WatchTrace.Tx

/-- Why a database call gave no answer: the call itself failed (connection,
timeout, a deadlock lost), the statement was rejected (a constraint, a cast),
or the transaction had already failed. -/
inductive Fault
  | failed
  | rejected
  | aborted
  deriving DecidableEq, Repr

/-- What one statement does: the value it answers, the change it makes to the
rows its transaction sees, and the keys it locks until the transaction ends. -/
structure Effect (DB Key α : Type) where
  value : α
  write : DB → DB := id
  locks : List Key := []

/-- A statement reads the environment its transaction began in, the one of
this moment, which keys other transactions hold, and the rows it can see.
`none` is an error raised by the server. -/
abbrev Stmt (DB Key Env α : Type) :=
  Env → Env → (Key → Bool) → DB → Option (Effect DB Key α)

/-- A statement that only looks. -/
def Stmt.read {DB Key Env α : Type} (f : DB → α) : Stmt DB Key Env α :=
  fun _ _ _ db => some { value := f db }

/-- An effect on one part of the rows, as an effect on all. -/
def Effect.zoom {DB Part Key α : Type} (get : DB → Part)
    (set : Part → DB → DB) (e : Effect Part Key α) : Effect DB Key α :=
  { value := e.value, write := fun db => set (e.write (get db)) db
    locks := e.locks }

/-- A statement about one part of the rows, as a statement about all. -/
def Stmt.zoom {DB Part Key Env α : Type} (get : DB → Part)
    (set : Part → DB → DB) (q : Stmt Part Key Env α) : Stmt DB Key Env α :=
  fun begun env busy db => (q begun env busy (get db)).map (Effect.zoom get set)

/-- The tree of a program: every inner node is one interaction. -/
inductive Prog (DB Key Env : Type) (Call : Type → Type) (α : Type) : Type 1
  | ret (a : α)
  | start (next : Except Fault Unit → Prog DB Key Env Call α)
  | query {β : Type} (q : Stmt DB Key Env β) (next : Except Fault β → Prog DB Key Env Call α)
  | commit (next : Except Fault Unit → Prog DB Key Env Call α)
  | rollback (next : Prog DB Key Env Call α)
  | call {β : Type} (c : Call β) (next : β → Prog DB Key Env Call α)

variable {DB Key Env : Type} {Call : Type → Type} {α β γ : Type}

namespace Prog

/-- Sequencing grafts the second program onto the leaves of the first. -/
def bind : Prog DB Key Env Call α → (α → Prog DB Key Env Call β) → Prog DB Key Env Call β
  | ret a, f => f a
  | start k, f => start fun r => (k r).bind f
  | query q k, f => query q fun r => (k r).bind f
  | commit k, f => commit fun r => (k r).bind f
  | rollback k, f => rollback (k.bind f)
  | call c k, f => call c fun r => (k r).bind f

instance : Monad (Prog DB Key Env Call) where
  pure := ret
  bind := bind

@[simp] theorem pure_eq (a : α) : (pure a : Prog DB Key Env Call α) = ret a := rfl

@[simp] theorem ret_bind (a : α) (f : α → Prog DB Key Env Call β) : (ret a >>= f) = f a := rfl

@[simp] theorem start_bind (k : Except Fault Unit → Prog DB Key Env Call α)
    (f : α → Prog DB Key Env Call β) :
    (start k >>= f) = start fun r => k r >>= f := rfl

@[simp] theorem query_bind (q : Stmt DB Key Env γ) (k : Except Fault γ → Prog DB Key Env Call α)
    (f : α → Prog DB Key Env Call β) :
    (query q k >>= f) = query q fun r => k r >>= f := rfl

@[simp] theorem commit_bind (k : Except Fault Unit → Prog DB Key Env Call α)
    (f : α → Prog DB Key Env Call β) :
    (commit k >>= f) = commit fun r => k r >>= f := rfl

@[simp] theorem rollback_bind (k : Prog DB Key Env Call α) (f : α → Prog DB Key Env Call β) :
    (rollback k >>= f) = rollback (k >>= f) := rfl

@[simp] theorem call_bind (c : Call γ) (k : γ → Prog DB Key Env Call α)
    (f : α → Prog DB Key Env Call β) :
    (call c k >>= f) = call c fun r => k r >>= f := rfl

theorem bind_assoc (p : Prog DB Key Env Call α) (f : α → Prog DB Key Env Call β)
    (g : β → Prog DB Key Env Call γ) :
    (p >>= f) >>= g = p >>= fun a => f a >>= g := by
  induction p with
  | ret a => rfl
  | start k ih => simp only [start_bind, ih]
  | query q k ih => simp only [query_bind, ih]
  | commit k ih => simp only [commit_bind, ih]
  | rollback k ih => simp only [rollback_bind, ih]
  | call c k ih => simp only [call_bind, ih]

theorem bind_pure (p : Prog DB Key Env Call α) : p >>= pure = p := by
  induction p with
  | ret a => rfl
  | start k ih => simp only [start_bind, ih]
  | query q k ih => simp only [query_bind, ih]
  | commit k ih => simp only [commit_bind, ih]
  | rollback k ih => simp only [rollback_bind, ih]
  | call c k ih => simp only [call_bind, ih]

/-- What is left of a program once its transaction has begun. -/
def begun : Prog DB Key Env Call α → Prog DB Key Env Call α
  | start k => k (.ok ())
  | p => p

end Prog

/-! The five interactions as programs of their own, for `do` blocks. -/

def start : Prog DB Key Env Call (Except Fault Unit) := .start .ret

def query (q : Stmt DB Key Env β) : Prog DB Key Env Call (Except Fault β) :=
  .query q .ret

def commit : Prog DB Key Env Call (Except Fault Unit) := .commit .ret

def rollback : Prog DB Key Env Call Unit := .rollback (.ret ())

def call (c : Call β) : Prog DB Key Env Call β := .call c .ret

/-! What is said of a program node by node is a matter of `simp`: a `do` block is
taken apart into nodes, and an answer into the cases it has. -/

attribute [simp] start query commit rollback call Prog.bind_assoc Option.forall

@[simp] theorem Prog.ite_bind {c : Prop} [Decidable c] {p q : Prog DB Key Env Call α}
    {k : α → Prog DB Key Env Call β} :
    (if c then p else q) >>= k = if c then p >>= k else q >>= k := by
  split <;> rfl

@[simp] theorem forall_except {ε : Type} {p : Except ε α → Prop} :
    (∀ r, p r) ↔ (∀ f, p (.error f)) ∧ ∀ a, p (.ok a) := by
  refine ⟨fun h => ⟨fun f => h _, fun a => h _⟩, fun h r => ?_⟩
  cases r with
  | error f => exact h.1 f
  | ok a => exact h.2 a

/-! ## One session, one step

A session is idle, inside a transaction, or inside one that has already
failed. A failed transaction has given its locks back and answers every
further statement, and its commit, with an error. -/

/-- A transaction in progress: the environment it began in, what it has
written and not yet committed, and the keys it owns. -/
structure Open (DB Key Env : Type) where
  begun : Env
  write : DB → DB
  locks : List Key

/-- What a statement adds to its transaction. -/
def Open.extend (o : Open DB Key Env) (e : Effect DB Key β) : Open DB Key Env :=
  { o with write := fun db => e.write (o.write db), locks := e.locks ++ o.locks }

/-- A transaction that has done nothing yet. -/
def Open.fresh (env : Env) : Open DB Key Env :=
  { begun := env, write := id, locks := [] }

inductive Session (DB Key Env : Type)
  | idle
  | active (o : Open DB Key Env)
  | failed

def Session.locks : Session DB Key Env → List Key
  | .active o => o.locks
  | _ => []

section

variable {Q : Open DB Key Env → Prop}

theorem of_idle (o : Open DB Key Env) (h : Session.idle = .active o) : Q o := nomatch h

theorem of_failed (o : Open DB Key Env) (h : Session.failed = .active o) : Q o := nomatch h

end

/-- The outside: what a remote call answers, and what is remembered of it. -/
structure Remote (Env World : Type) (Call : Type → Type) where
  answer : {β : Type} → Env → Call β → β
  observe : {β : Type} → Nat → Call β → β → World → World

/-! ## Running alone

Nothing fails, nobody else is there, and the environment of the `n`-th step
is `env n`. This is the meaning a call has when it is the only one running. -/

variable {World : Type}

/-- The answer of a program that runs alone, with the rows and the outside it
leaves behind. A transaction left open is rolled back. -/
def Prog.solo (R : Remote Env World Call) (i : Nat) (env : Nat → Env) :
    Nat → Prog DB Key Env Call α → Session DB Key Env → DB → World →
    α × DB × World
  | _, .ret a, _, db, w => (a, db, w)
  | n, .start k, _, db, w => (k (.ok ())).solo R i env (n + 1) (.active (.fresh (env n))) db w
  | n, .query q k, .active o, db, w =>
    match q o.begun (env n) (fun _ => false) (o.write db) with
    | none => (k (.error .rejected)).solo R i env (n + 1) .failed db w
    | some e => (k (.ok e.value)).solo R i env (n + 1) (.active (o.extend e)) db w
  | n, .query _ k, .failed, db, w => (k (.error .aborted)).solo R i env (n + 1) .failed db w
  | n, .query _ k, .idle, db, w => (k (.error .failed)).solo R i env (n + 1) .idle db w
  | n, .commit k, .active o, db, w => (k (.ok ())).solo R i env (n + 1) .idle (o.write db) w
  | n, .commit k, .failed, db, w => (k (.error .aborted)).solo R i env (n + 1) .idle db w
  | n, .commit k, .idle, db, w => (k (.error .failed)).solo R i env (n + 1) .idle db w
  | n, .rollback k, _, db, w => k.solo R i env (n + 1) .idle db w
  | n, .call c k, ses, db, w =>
    (k (R.answer (env n) c)).solo R i env (n + 1) ses db (R.observe i c (R.answer (env n) c) w)

end WatchTrace.Tx
