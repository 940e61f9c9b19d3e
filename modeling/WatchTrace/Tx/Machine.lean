import Mathlib.Logic.Relation
import WatchTrace.Tx.Program

/-!
# Many sessions under READ COMMITTED

The machine holds the committed rows, what the outside has seen, and any
number of processes, each a program with its session. One step advances one
process by one node of its tree, under whatever environment the scheduler
picks, so a run is a statement-level interleaving.

What READ COMMITTED asks of a statement is that it sees the rows committed by
now together with its own transaction's writes; that is the only view a
statement is given. What row locks ask is that a key is owned by one open
transaction at a time: a statement that needs a key someone else owns cannot
step, and finds whatever was committed in between when it finally does.

Failure is always possible. A call may fail, a commit may be applied and
still be reported as failed, and a process may stop for good at any node; its
open transaction is then rolled back.
-/

namespace WatchTrace.Tx

/-- What becomes of the step a process takes: it happens, it fails, or (a
commit) it happens and the answer is lost. -/
inductive Fate
  | done
  | failed
  | lost
  deriving DecidableEq, Repr

section

variable (DB Key Env : Type) (Call : Type → Type) (World : Type)

/-- A running call: what is left of its program, and its session. -/
structure Process where
  prog : Prog DB Key Env Call Unit
  session : Session DB Key Env

/-- Everything there is: committed rows, the outside, the running calls. -/
structure Sys where
  db : DB
  world : World
  procs : List (Process DB Key Env Call)

/-- What the scheduler may do: start a call, step one, or stop one. -/
inductive Act
  | spawn (p : Prog DB Key Env Call Unit)
  | step (i : Nat) (env : Env) (fate : Fate)
  | crash (i : Nat)

end

variable {DB Key Env : Type} {Call : Type → Type} {World : Type} {β : Type}

/-- A call that is over. -/
def Process.stopped : Process DB Key Env Call := ⟨.ret (), .idle⟩

variable [DecidableEq Key]

/-- Some process other than `i` owns the key. -/
def Sys.busy (s : Sys DB Key Env Call World) (i : Nat) (κ : Key) : Bool :=
  s.procs.zipIdx.any fun pj => pj.2 != i && decide (κ ∈ pj.1.session.locks)

/-- One statement of an open transaction. A needed key that is busy blocks. -/
def stepQuery (busy : Key → Bool) (env : Env) (fate : Fate) (db : DB)
    (o : Open DB Key Env) (q : Stmt DB Key Env β) :
    Option (Except Fault β × Session DB Key Env) :=
  match fate with
  | .done =>
    match q o.begun env busy (o.write db) with
    | none => some (.error .rejected, .failed)
    | some e =>
      if e.locks.any busy then none
      else some (.ok e.value, .active (o.extend e))
  | _ => some (.error .failed, .failed)

/-- One node of one process. -/
def advance (R : Remote Env World Call) (i : Nat) (busy : Key → Bool)
    (env : Env) (fate : Fate) (db : DB) (w : World) :
    Process DB Key Env Call → Option (Process DB Key Env Call × DB × World)
  | ⟨.ret _, _⟩ => some (.stopped, db, w)
  | ⟨.start k, _⟩ =>
    match fate with
    | .done => some (⟨k (.ok ()), .active (.fresh env)⟩, db, w)
    | _ => some (⟨k (.error .failed), .idle⟩, db, w)
  | ⟨.query q k, .active o⟩ => (stepQuery busy env fate db o q).map fun r => (⟨k r.1, r.2⟩, db, w)
  | ⟨.query _ k, .failed⟩ => some (⟨k (.error .aborted), .failed⟩, db, w)
  | ⟨.query _ k, .idle⟩ => some (⟨k (.error .failed), .idle⟩, db, w)
  | ⟨.commit k, .active o⟩ =>
    match fate with
    | .done => some (⟨k (.ok ()), .idle⟩, o.write db, w)
    | .failed => some (⟨k (.error .failed), .idle⟩, db, w)
    | .lost => some (⟨k (.error .failed), .idle⟩, o.write db, w)
  | ⟨.commit k, .failed⟩ => some (⟨k (.error .aborted), .idle⟩, db, w)
  | ⟨.commit k, .idle⟩ => some (⟨k (.error .failed), .idle⟩, db, w)
  | ⟨.rollback k, _⟩ => some (⟨k, .idle⟩, db, w)
  | ⟨.call c k, ses⟩ => some (⟨k (R.answer env c), ses⟩, db, R.observe i c (R.answer env c) w)

/-- One step of the machine; `none` where the scheduler asked for something
that cannot happen, a blocked statement included. -/
def Sys.step (R : Remote Env World Call) (s : Sys DB Key Env Call World) :
    Act DB Key Env Call → Option (Sys DB Key Env Call World)
  | .spawn p => some { s with procs := s.procs ++ [⟨p, .idle⟩] }
  | .crash i => some { s with procs := s.procs.set i .stopped }
  | .step i env fate =>
    s.procs[i]?.bind fun p =>
      (advance R i (s.busy i) env fate s.db s.world p).map fun r =>
        { db := r.2.1, world := r.2.2, procs := s.procs.set i r.1 }

/-- A whole schedule. -/
def Sys.run (R : Remote Env World Call) : Sys DB Key Env Call World → List (Act DB Key Env Call) →
    Option (Sys DB Key Env Call World)
  | s, [] => some s
  | s, a :: as => (s.step R a).bind fun s' => s'.run R as

/-- A schedule each of whose steps has to pass a test on the rows before and
after it. -/
def Sys.runWhere (R : Remote Env World Call) (test : DB → DB → Bool) :
    Sys DB Key Env Call World → List (Act DB Key Env Call) →
    Option (Sys DB Key Env Call World)
  | s, [] => some s
  | s, a :: as => (s.step R a).bind fun s' =>
    if test s.db s'.db then s'.runWhere R test as else none

/-- Only calls of the family `F` are started. -/
def Act.within (F : Prog DB Key Env Call Unit → Prop) : Act DB Key Env Call → Prop
  | .spawn p => F p
  | _ => True

/-- Steps of a call that is running. -/
theorem Act.within_replicate {F : Prog DB Key Env Call Unit → Prop} {i n : Nat} {env : Env}
    {fate : Fate} : ∀ a ∈ List.replicate n (.step i env fate), Act.within F a := by
  intro a ha
  rw [List.eq_of_mem_replicate ha]
  trivial

/-- One step of a machine whose calls all come from `F`. -/
def Step (R : Remote Env World Call) (F : Prog DB Key Env Call Unit → Prop)
    (s s' : Sys DB Key Env Call World) : Prop :=
  ∃ a : Act DB Key Env Call, a.within F ∧ s.step R a = some s'

/-- Any number of steps. -/
def Steps (R : Remote Env World Call) (F : Prog DB Key Env Call Unit → Prop) :
    Sys DB Key Env Call World → Sys DB Key Env Call World → Prop :=
  Relation.ReflTransGen (Step R F)

/-- Committed rows, and nothing running. -/
def Sys.quiet (db : DB) (w : World) : Sys DB Key Env Call World :=
  { db := db, world := w, procs := [] }

variable {R : Remote Env World Call}

theorem Sys.run_append : ∀ (as bs : List (Act DB Key Env Call)) (s : Sys DB Key Env Call World),
      s.run R (as ++ bs) = (s.run R as).bind fun s' => s'.run R bs
  | [], _, _ => rfl
  | a :: as, bs, s => by
      simp only [List.cons_append, run, Option.bind_assoc]
      exact congrArg _ (funext fun s' => run_append as bs s')

variable {F : Prog DB Key Env Call Unit → Prop}

theorem Sys.run_steps : ∀ {as : List (Act DB Key Env Call)} {s s' : Sys DB Key Env Call World},
      (∀ a ∈ as, a.within F) → s.run R as = some s' → Steps R F s s' := by
  intro as
  induction as with
  | nil =>
    intro s s' _ h
    simp only [run, Option.some.injEq] at h
    subst h
    exact .refl
  | cons a as ih =>
    intro s s' hF h
    simp only [run, Option.bind_eq_some_iff] at h
    obtain ⟨mid, hmid, hrest⟩ := h
    have hstep : Step R F s mid := ⟨a, hF a (by simp), hmid⟩
    exact .head hstep (ih (fun b hb => hF b (by simp [hb])) hrest)

theorem Sys.runWhere_steps {test : DB → DB → Bool} :
    ∀ {as : List (Act DB Key Env Call)} {s s' : Sys DB Key Env Call World},
      (∀ a ∈ as, a.within F) → s.runWhere R test as = some s' →
      Relation.ReflTransGen
        (fun t t' => Step R F t t' ∧ test t.db t'.db = true) s s' := by
  intro as
  induction as with
  | nil =>
    intro s s' _ h
    simp only [runWhere, Option.some.injEq] at h
    subst h
    exact .refl
  | cons a as ih =>
    intro s s' hF h
    simp only [runWhere, Option.bind_eq_some_iff] at h
    obtain ⟨mid, hmid, hrest⟩ := h
    split at hrest
    · next htest =>
      exact .head ⟨⟨a, hF a (by simp), hmid⟩, htest⟩ (ih (fun b hb => hF b (by simp [hb])) hrest)
    · cases hrest

variable {s : Sys DB Key Env Call World} {i : Nat}

variable {κ : Key}

/-- What a busy key means. -/
theorem Sys.busy_iff : s.busy i κ = true ↔ ∃ (j : Nat) (p : Process DB Key Env Call),
        s.procs[j]? = some p ∧ j ≠ i ∧ κ ∈ p.session.locks := by
  simp only [busy, List.any_eq_true, Bool.and_eq_true, bne_iff_ne, ne_eq,
    decide_eq_true_eq, Prod.exists, List.mem_zipIdx_iff_getElem?]
  constructor
  · rintro ⟨p, j, hp, hj, hκ⟩
    exact ⟨j, p, hp, hj, hκ⟩
  · rintro ⟨j, p, hp, hj, hκ⟩
    exact ⟨p, j, hp, hj, hκ⟩

variable {s' : Sys DB Key Env Call World} {a : Act DB Key Env Call}

/-- The cases of a step, with everything the machine checked. -/
theorem Sys.step_cases (h : s.step R a = some s') :
    (∃ p, a = .spawn p ∧ s' = { s with procs := s.procs ++ [⟨p, .idle⟩] }) ∨
    (∃ i, a = .crash i ∧ s' = { s with procs := s.procs.set i .stopped }) ∨
    (∃ i env fate p p' db w, a = .step i env fate ∧ s.procs[i]? = some p ∧
      advance R i (s.busy i) env fate s.db s.world p = some (p', db, w) ∧
      s' = { db := db, world := w, procs := s.procs.set i p' }) := by
  cases a with
  | spawn p =>
    simp only [step, Option.some.injEq] at h
    exact .inl ⟨p, rfl, h.symm⟩
  | crash i =>
    simp only [step, Option.some.injEq] at h
    exact .inr (.inl ⟨i, rfl, h.symm⟩)
  | step i env fate =>
  simp only [step, Option.bind_eq_some_iff, Option.map_eq_some_iff] at h
  obtain ⟨p, hp, ⟨p', db, w⟩, hadv, rfl⟩ := h
  exact .inr (.inr ⟨i, env, fate, p, p', db, w, rfl, hp, hadv, rfl⟩)

variable {env : Env} {fate : Fate} {db : DB}

variable {p p' : Process DB Key Env Call}

/-- One process takes a step it can take. -/
theorem Step.of_advance {w : World} (hp : s.procs[i]? = some p)
    (h : advance R i (s.busy i) env fate s.db s.world p = some (p', db, w)) :
    ∃ s', Step R F s s' ∧ s'.procs[i]? = some p' := by
  have hi : i < s.procs.length := (List.getElem?_eq_some_iff.mp hp).1
  refine ⟨{ db := db, world := w, procs := s.procs.set i p' },
    ⟨.step i env fate, trivial, ?_⟩, List.getElem?_set_self hi⟩
  simp only [Sys.step, hp, Option.bind_some, h, Option.map_some]

variable {o : Open DB Key Env} {q : Stmt DB Key Env β}

/-- A statement that did not block failed, or answered on the rows in view. -/
theorem stepQuery_cases {busy : Key → Bool} {r : Except Fault β × Session DB Key Env}
    (h : stepQuery busy env fate db o q = some r) :
    (∃ f, r.1 = .error f) ∨
      ∃ e, q o.begun env busy (o.write db) = some e ∧ r.1 = .ok e.value := by
  cases fate with
  | failed | lost =>
    cases h
    exact .inl ⟨_, rfl⟩
  | done =>
  simp only [stepQuery] at h
  split at h
  · cases h
    exact .inl ⟨_, rfl⟩
  next e he =>
  split at h
  · cases h
  · cases h
    exact .inr ⟨e, he, rfl⟩

/-- A statement that answers, and finds the keys it needs free. -/
theorem stepQuery_done {busy : Key → Bool} {e : Effect DB Key β}
    (h : q o.begun env busy (o.write db) = some e) (hfree : e.locks.any busy = false) :
    stepQuery busy env .done db o q = some (.ok e.value, .active (o.extend e)) := by
  simp only [stepQuery, h, hfree]
  rfl

/-- A process that stands before a statement goes on with an error, or with what
the statement answers on the rows committed by now. -/
theorem Sys.step_query {k : Except Fault β → Prog DB Key Env Call Unit}
    (hp : s.procs[i]? = some ⟨.query q k, .active o⟩)
    (h : s.step R (.step i env fate) = some s') :
    ∃ r ses, s'.procs[i]? = some ⟨k r, ses⟩ ∧ ((∃ f, r = .error f) ∨
      ∃ e, q o.begun env (s.busy i) (o.write s.db) = some e ∧ r = .ok e.value) := by
  have hi : i < s.procs.length := (List.getElem?_eq_some_iff.mp hp).1
  simp only [step, hp, Option.bind_some, advance, Option.map_map, Option.map_eq_some_iff] at h
  obtain ⟨⟨r, ses⟩, hr, rfl⟩ := h
  exact ⟨r, ses, List.getElem?_set_self hi, stepQuery_cases hr⟩

/-! ## Who owns which key -/

/-- No key is locked by two open transactions. -/
def Sys.Apart (s : Sys DB Key Env Call World) : Prop :=
  ∀ (i j : Nat) (p q : Process DB Key Env Call), s.procs[i]? = some p →
    s.procs[j]? = some q → i ≠ j → ∀ κ, κ ∈ p.session.locks → κ ∉ q.session.locks

theorem Sys.apart_quiet (db : DB) (w : World) :
    (Sys.quiet db w : Sys DB Key Env Call World).Apart :=
  fun _ _ _ _ hp => by simp [Sys.quiet] at hp

variable {j : Nat}

section Lists

/-! Where an element of a list that has changed in one place comes from. -/

variable {γ : Type*} {l : List γ} {b : γ}

theorem getElem?_concat {c : γ} (h : (l ++ [b])[j]? = some c) :
    (j < l.length ∧ l[j]? = some c) ∨ (j = l.length ∧ c = b) := by
  rcases Nat.lt_trichotomy j l.length with hj | rfl | hj
  · rw [List.getElem?_append_left hj] at h
    exact .inl ⟨hj, h⟩
  · rw [List.getElem?_concat_length, Option.some.injEq] at h
    exact .inr ⟨rfl, h.symm⟩
  · rw [List.getElem?_eq_none (by simp; omega)] at h
    cases h

theorem getElem?_set_some {c : γ} (h : (l.set i b)[j]? = some c) :
    (j ≠ i ∧ l[j]? = some c) ∨ (j = i ∧ c = b) := by
  rw [List.getElem?_set] at h
  split at h
  · next hij =>
    split at h
    · cases h
      exact .inr ⟨hij.symm, rfl⟩
    · cases h
  · next hij => exact .inl ⟨fun hji => hij hji.symm, h⟩

theorem set_getElem?_self (h : l[i]? = some b) :
    l.set i b = l := by
  apply List.ext_getElem?
  intro j
  rw [List.getElem?_set]
  split
  · next hij =>
    subst hij
    rw [if_pos (List.getElem?_eq_some_iff.mp h).1, h]
  · rfl

/-- One entry of a list is exchanged, and those that count are counted again. -/
theorem countP_set_add {as : List γ} {a : γ} (f : γ → Bool) (hi : as[i]? = some a) (a' : γ) :
    (as.set i a').countP f + (if f a then 1 else 0) =
      as.countP f + (if f a' then 1 else 0) := by
  obtain ⟨hlt, rfl⟩ := List.getElem?_eq_some_iff.mp hi
  have hle : (if f as[i] then 1 else 0) ≤ as.countP f := by
    split
    · next h => exact List.countP_pos_iff.mpr ⟨_, List.getElem_mem hlt, h⟩
    · exact Nat.zero_le _
  rw [List.countP_set hlt]
  omega

end Lists

/-- The keys a process owns after a step were its own, or free. -/
theorem advance_locks {busy : Key → Bool} {db' : DB} {w' : World}
    (h : advance R i busy env fate db w p = some (p', db', w')) (hκ : κ ∈ p'.session.locks) :
    κ ∈ p.session.locks ∨ busy κ = false := by
  obtain ⟨prog, ses⟩ := p
  cases prog with
  | ret r =>
    cases h
    cases hκ
  | start k => cases fate <;> cases h <;> cases hκ
  | rollback k =>
    cases h
    cases hκ
  | query q k =>
    cases ses with
    | idle | failed =>
      cases h
      cases hκ
    | active o =>
    simp only [advance, Option.map_eq_some_iff, stepQuery] at h
    obtain ⟨r, hr, hpr⟩ := h
    cases fate with
    | failed | lost =>
      cases hr
      cases hpr
      cases hκ
    | done =>
    cases he : q o.begun env busy (o.write db) with
    | none =>
      simp only [he] at hr
      cases hr
      cases hpr
      cases hκ
    | some e =>
    simp only [he] at hr
    split at hr
    · cases hr
    next hfree =>
    cases hr
    cases hpr
    rcases List.mem_append.mp hκ with hnew | hold
    · refine .inr (Bool.not_eq_true _ ▸ fun hb => hfree ?_)
      exact List.any_eq_true.mpr ⟨κ, hnew, hb⟩
    · exact .inl hold
  | commit k =>
    cases ses with
    | idle | failed =>
      cases h
      cases hκ
    | active o => cases fate <;> cases h <;> cases hκ
  | call c k =>
    cases h
    exact .inl hκ

theorem Sys.Apart.step (h : s.Apart) (hs : s.step R a = some s') :
    s'.Apart := by
  have hfree : ∀ {κ : Key}, κ ∉ (Session.idle : Session DB Key Env).locks :=
    fun hκ => by cases hκ
  obtain ⟨p, rfl, rfl⟩ | ⟨i, rfl, rfl⟩ |
    ⟨i, env, fate, p, p', db, w, rfl, hp, hadv, rfl⟩ := Sys.step_cases hs
  · intro j k q r hq hr hjk κ hκ hκ'
    rcases getElem?_concat hq with ⟨-, hq⟩ | ⟨-, rfl⟩
    · rcases getElem?_concat hr with ⟨-, hr⟩ | ⟨-, rfl⟩
      · exact h j k q r hq hr hjk κ hκ hκ'
      · exact hfree hκ'
    · exact hfree hκ
  · intro j k q r hq hr hjk κ hκ hκ'
    rcases getElem?_set_some hq with ⟨-, hq⟩ | ⟨-, rfl⟩
    · rcases getElem?_set_some hr with ⟨-, hr⟩ | ⟨-, rfl⟩
      · exact h j k q r hq hr hjk κ hκ hκ'
      · exact hfree hκ'
    · exact hfree hκ
  · have hkeep : ∀ {j : Nat} {q : Process DB Key Env Call}, j ≠ i →
        s.procs[j]? = some q → ∀ κ, κ ∈ q.session.locks → κ ∉ p'.session.locks := by
      intro j q hji hq κ hκ hκ'
      rcases advance_locks hadv hκ' with hold | hnew
      · exact h i j p q hp hq (Ne.symm hji) κ hold hκ
      · rw [Sys.busy_iff.mpr ⟨j, q, hq, hji, hκ⟩] at hnew
        cases hnew
    intro j k q r hq hr hjk κ hκ hκ'
    rcases getElem?_set_some hq with ⟨hji, hq'⟩ | ⟨rfl, rfl⟩
    · rcases getElem?_set_some hr with ⟨-, hr'⟩ | ⟨-, rfl⟩
      · exact h j k q r hq' hr' hjk κ hκ hκ'
      · exact hkeep hji hq' κ hκ hκ'
    · rcases getElem?_set_some hr with ⟨hki, hr⟩ | ⟨rfl, -⟩
      · exact hkeep hki hr κ hκ' hκ
      · exact hjk rfl

end WatchTrace.Tx
