import WatchTrace.Tx.Machine

/-!
# Transactions as single steps

A run of the machine is an interleaving of statements; what one wants to say
about it is an interleaving of transactions. A `Protocol` names the second
kind of step. Each process has a local state, `move` says which single
change of committed rows, outside and local state a process may make, and
`rely` says what everybody else may do meanwhile to a process that owns a
given set of keys.

`Meets` is the obligation a program carries: at every node, whatever the
others did since the last one, each commit and each remote call of the
program is a `move`, and is among the things the owners of other keys have
agreed to rely on. It is a predicate by recursion on the tree, so proving it
is running the program symbolically, one node at a time.

`simulation`, in `Tx.Terms`, is the payoff: once every call of the family meets
the protocol, each step of the machine is no step or one move of the protocol,
and invariants can be proved about moves alone.
-/

namespace WatchTrace.Tx

/-- A transaction-level reading of a system. `good` is what holds of every
state the protocol passes through. -/
structure Protocol (DB Key World A : Type) where
  init : A
  move : Nat → A → DB × World → A → DB × World → Prop
  rely : (Key → Prop) → DB × World → DB × World → Prop
  good : DB × World → Prop
  rely_refl : ∀ L x, rely L x x
  rely_trans : ∀ {L x y z}, rely L x y → rely L y z → rely L x z
  rely_anti : ∀ {L L' : Key → Prop} {x y}, (∀ κ, L κ → L' κ) → rely L' x y → rely L x y
  good_rely : ∀ {L x y}, rely L x y → good x → good y

variable {DB Key Env : Type} {Call : Type → Type} {World A : Type}
variable {α β : Type}

variable {x : DB × World} {i : Nat} {ses : Session DB Key Env} {a : A}
variable {k : Except Fault Unit → Prog DB Key Env Call α}
variable {F : Prog DB Key Env Call Unit → Prop} {s s' : Sys DB Key Env Call World}
variable {as : List A}

variable {L : List Key} {Q : DB × World → Prop} {q : Stmt DB Key Env β} {o : Open DB Key Env}
variable {p : Prog DB Key Env Call α}

namespace Protocol

variable (P : Protocol DB Key World A)

/-- `Q` holds now and goes on holding while only others act, as long as the
keys of `L` are kept. -/
def Stable (L : List Key) (Q : DB × World → Prop) (x : DB × World) : Prop :=
  ∀ y, P.rely (· ∈ L) x y → Q y

/-- A change that process `i` may make in one go while it owns `L`: a move,
and one that the owners of any other keys tolerate. -/
def Moves (i : Nat) (L : List Key) (a : A) (x : DB × World) (a' : A) (y : DB × World) : Prop :=
  P.move i a x a' y ∧ ∀ L' : Key → Prop, (∀ κ, L' κ → κ ∉ L) → P.rely L' x y

variable (R : Remote Env World Call)

/-- The obligation of a program in a session, at a local state, in a state of
the world; see the head of the file. -/
def Meets (i : Nat) : Prog DB Key Env Call α → Session DB Key Env → A → DB × World → Prop
  | .ret _, _, _, _ => True
  | .start k, _, a, x =>
    (∀ env, P.Stable [] (Meets i (k (.ok ())) (.active (.fresh env)) a) x) ∧
    P.Stable [] (Meets i (k (.error .failed)) .idle a) x
  | .query q k, .active o, a, x =>
    (∀ env busy,
      match q o.begun env busy (o.write x.1) with
      | none => P.Stable [] (Meets i (k (.error .rejected)) .failed a) x
      | some e => P.Stable (e.locks ++ o.locks)
          (Meets i (k (.ok e.value)) (.active (o.extend e)) a) x) ∧
    P.Stable [] (Meets i (k (.error .failed)) .failed a) x
  | .query _ k, .failed, a, x => P.Stable [] (Meets i (k (.error .aborted)) .failed a) x
  | .query _ k, .idle, a, x => P.Stable [] (Meets i (k (.error .failed)) .idle a) x
  | .commit k, .active o, a, x =>
    (∃ a', P.Moves i o.locks a x a' (o.write x.1, x.2) ∧
      P.Stable [] (Meets i (k (.ok ())) .idle a') (o.write x.1, x.2) ∧
      P.Stable [] (Meets i (k (.error .failed)) .idle a') (o.write x.1, x.2)) ∧
    P.Stable [] (Meets i (k (.error .failed)) .idle a) x
  | .commit k, .failed, a, x => P.Stable [] (Meets i (k (.error .aborted)) .idle a) x
  | .commit k, .idle, a, x => P.Stable [] (Meets i (k (.error .failed)) .idle a) x
  | .rollback k, _, a, x => P.Stable [] (Meets i k .idle a) x
  | .call c k, ses, a, x =>
    ∀ env, ∃ a', P.Moves i [] a x a' (x.1, R.observe i c (R.answer env c) x.2) ∧
      P.Stable ses.locks (Meets i (k (R.answer env c)) ses a')
        (x.1, R.observe i c (R.answer env c) x.2)

variable {P R}

theorem Stable.now (h : P.Stable L Q x) :
    Q x := h x (P.rely_refl _ _)

theorem Stable.later {y : DB × World} (h : P.Stable L Q x) (hxy : P.rely (· ∈ L) x y) :
    P.Stable L Q y :=
  fun z hz => h z (P.rely_trans hxy hz)

/-! ## The rules, one for each interaction

The forms a proof uses: the program is an interaction followed by the rest,
and what is left to show is about the rest. -/

theorem meets_ret {r : α} : P.Meets R i (pure r : Prog DB Key Env Call α) ses a x := trivial

theorem meets_start (hok : ∀ env y, P.rely (fun _ => False) x y →
      P.Meets R i (k (.ok ())) (.active (.fresh env)) a y)
    (herr : ∀ y, P.rely (fun _ => False) x y → P.Meets R i (k (.error .failed)) .idle a y) :
    P.Meets R i (start >>= k) ses a x := by
  refine ⟨fun env y hy => hok env y ?_, fun y hy => herr y ?_⟩
  all_goals exact P.rely_anti (fun _ h => False.elim h) hy

theorem meets_query {k : Except Fault β → Prog DB Key Env Call α}
    (hok : ∀ env busy e, q o.begun env busy (o.write x.1) = some e →
      ∀ y, P.rely (· ∈ e.locks ++ o.locks) x y →
        P.Meets R i (k (.ok e.value)) (.active (o.extend e)) a y)
    (herr : ∀ f y, P.rely (fun _ => False) x y → P.Meets R i (k (.error f)) .failed a y) :
    P.Meets R i (query q >>= k) (.active o) a x := by
  have hfail : ∀ f, P.Stable [] (P.Meets R i (k (.error f)) .failed a) x :=
    fun f y hy => herr f y (P.rely_anti (fun _ h => False.elim h) hy)
  refine ⟨fun env busy => ?_, hfail _⟩
  cases hq : q o.begun env busy (o.write x.1) with
  | none => exact hfail _
  | some e => exact fun y hy => hok env busy e hq y hy

theorem meets_query_failed {k : Except Fault β → Prog DB Key Env Call α}
    (h : ∀ f y, P.rely (fun _ => False) x y → P.Meets R i (k (.error f)) .failed a y) :
    P.Meets R i (query q >>= k) .failed a x :=
  fun y hy => h _ y (P.rely_anti (fun _ h => False.elim h) hy)

theorem meets_commit (hmove : ∃ a', P.Moves i o.locks a x a' (o.write x.1, x.2) ∧
      ∀ r y, P.rely (fun _ => False) (o.write x.1, x.2) y →
        P.Meets R i (k r) .idle a' y) (herr : ∀ y, P.rely (fun _ => False) x y →
      P.Meets R i (k (.error .failed)) .idle a y) :
    P.Meets R i (commit >>= k) (.active o) a x := by
  obtain ⟨a', hm, hk⟩ := hmove
  have hnone : ∀ κ : Key, False → κ ∈ ([] : List Key) := fun _ h => h.elim
  refine ⟨⟨a', hm, fun y hy => ?_, fun y hy => ?_⟩, fun y hy => ?_⟩
  · exact hk _ y (P.rely_anti hnone hy)
  · exact hk _ y (P.rely_anti hnone hy)
  · exact herr y (P.rely_anti hnone hy)

theorem meets_commit_failed (h : ∀ y, P.rely (fun _ => False) x y →
      P.Meets R i (k (.error .aborted)) .idle a y) :
    P.Meets R i (commit >>= k) .failed a x :=
  fun y hy => h y (P.rely_anti (fun _ h => False.elim h) hy)

theorem meets_call {c : Call β} {k : β → Prog DB Key Env Call α} (h : ∀ env, ∃ a',
      P.Moves i [] a x a' (x.1, R.observe i c (R.answer env c) x.2) ∧
      ∀ y, P.rely (· ∈ ses.locks) (x.1, R.observe i c (R.answer env c) x.2) y →
        P.Meets R i (k (R.answer env c)) ses a' y) :
    P.Meets R i (call c >>= k) ses a x :=
  h

/-- A program may be followed by one that is fine anywhere. -/
theorem Meets.andThen {k : α → Prog DB Key Env Call β} (h : P.Meets R i p ses a x)
    (hk : ∀ r ses a y, P.Meets R i (k r) ses a y) :
    P.Meets R i (p >>= k) ses a x := by
  induction p generalizing ses a x with
  | ret r => exact hk r ses a x
  | start next ih => exact ⟨fun env y hy => ih _ (h.1 env y hy), fun y hy => ih _ (h.2 y hy)⟩
  | query q next ih =>
    cases ses with
    | idle | failed => exact fun y hy => ih _ (h y hy)
    | active o =>
    refine ⟨fun env busy => ?_, fun y hy => ih _ (h.2 y hy)⟩
    have hq := h.1 env busy
    cases he : q o.begun env busy (o.write x.1) with
    | none | some =>
      simp only [he] at hq
      exact fun y hy => ih _ (hq y hy)
  | commit next ih =>
    cases ses with
    | idle | failed => exact fun y hy => ih _ (h y hy)
    | active o =>
    obtain ⟨⟨a', hm, hok, hlost⟩, herr⟩ := h
    exact ⟨⟨a', hm, fun y hy => ih _ (hok y hy), fun y hy => ih _ (hlost y hy)⟩,
      fun y hy => ih _ (herr y hy)⟩
  | rollback next ih => exact fun y hy => ih (h y hy)
  | call c next ih =>
    intro env
    obtain ⟨a', hm, hst⟩ := h env
    exact ⟨a', hm, fun y hy => ih _ (hst y hy)⟩

/-- The answer of a call plays no part in its obligation. -/
theorem Meets.void (h : P.Meets R i p ses a x) : P.Meets R i (p >>= fun _ => pure ()) ses a x :=
  h.andThen fun _ _ _ _ => trivial

/-! ## The simulation -/

/-- The protocol's own machine: a state of the world and the local state of
every call ever started. -/
inductive AbsStep (P : Protocol DB Key World A) :
    (DB × World) × List A → (DB × World) × List A → Prop
  | spawn {x : DB × World} {as : List A} : AbsStep P (x, as) (x, as ++ [P.init])
  | move {x y : DB × World} {as : List A} {i : Nat} {a a' : A}
      (hi : as[i]? = some a) (h : P.move i a x a' y) :
      AbsStep P (x, as) (y, as.set i a')

end Protocol

end WatchTrace.Tx
