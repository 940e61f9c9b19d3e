import WatchTrace.Tx.Machine
import WatchTrace.Tx.Turn

/-!
# A call on its own, with everything that can go wrong

`lone` is a call that nobody interferes with. It differs from `solo` in that its
steps may fail, as those of the machine do: a statement, the beginning of a
transaction or a commit can come to nothing, a commit can happen and be reported
as failed, and the call can stop for good at any node. A call that stops has no
answer, and its open transaction is rolled back.

`Lone` is the weakest precondition: whatever the environments and the fates of
the steps are, the call ends in `Q`, or it stops and leaves rows of which `S` holds.
The rows that others see change with a commit and with nothing else, so a call that
has not come to its commit yet leaves the rows it found.
-/

namespace WatchTrace.Tx

variable {DB Key Env : Type} {Call : Type → Type} {World κ : Type}
variable {α β γ : Type}

variable {p : Prog DB Key Env Call α}

variable {i : Nat} {env : Nat → Env} {fate : Nat → Option Fate}
variable {k : γ → Prog DB Key Env Call α} {q : κ → Stmt DB Key Env Nat}

namespace Prog

section Run

variable (R : Remote Env World Call) (i : Nat) (env : Nat → Env) (fate : Nat → Option Fate)

/-- The answer of a call, the rows it leaves and what the outside has seen. Step
`n` has the fate `fate n`; with none the call stops there. -/
def lone : Prog DB Key Env Call α → Nat → Session DB Key Env → DB → World → Option α × DB × World
  | .ret a, _, _, db, w => (some a, db, w)
  | .start k, n, _, db, w =>
    match fate n with
    | none => (none, db, w)
    | some .done => (k (.ok ())).lone (n + 1) (.active (.fresh (env n))) db w
    | some _ => (k (.error .failed)).lone (n + 1) .idle db w
  | .query q k, n, .active o, db, w =>
    match fate n with
    | none => (none, db, w)
    | some .done =>
      match q o.begun (env n) nobody (o.write db) with
      | none => (k (.error .rejected)).lone (n + 1) .failed db w
      | some e => (k (.ok e.value)).lone (n + 1) (.active (o.extend e)) db w
    | some _ => (k (.error .failed)).lone (n + 1) .failed db w
  | .query _ k, n, .failed, db, w =>
    match fate n with
    | none => (none, db, w)
    | some _ => (k (.error .aborted)).lone (n + 1) .failed db w
  | .query _ k, n, .idle, db, w =>
    match fate n with
    | none => (none, db, w)
    | some _ => (k (.error .failed)).lone (n + 1) .idle db w
  | .commit k, n, .active o, db, w =>
    match fate n with
    | none => (none, db, w)
    | some .done => (k (.ok ())).lone (n + 1) .idle (o.write db) w
    | some .failed => (k (.error .failed)).lone (n + 1) .idle db w
    | some .lost => (k (.error .failed)).lone (n + 1) .idle (o.write db) w
  | .commit k, n, .failed, db, w =>
    match fate n with
    | none => (none, db, w)
    | some _ => (k (.error .aborted)).lone (n + 1) .idle db w
  | .commit k, n, .idle, db, w =>
    match fate n with
    | none => (none, db, w)
    | some _ => (k (.error .failed)).lone (n + 1) .idle db w
  | .rollback k, n, _, db, w =>
    match fate n with
    | none => (none, db, w)
    | some _ => k.lone (n + 1) .idle db w
  | .call c k, n, ses, db, w =>
    match fate n with
    | none => (none, db, w)
    | some _ => (k (R.answer (env n) c)).lone (n + 1) ses db (R.observe i c (R.answer (env n) c) w)

end Run

/-- Every way through `p` ends in `Q`, or stops in `S`. -/
def Lone (R : Remote Env World Call) (S : DB → Prop) (Q : α → Session DB Key Env → DB → Prop) :
    Prog DB Key Env Call α → Session DB Key Env → DB → Prop
  | .ret r, ses, db => Q r ses db
  | .start k, _, db => S db ∧ (∀ env, Lone R S Q (k (.ok ())) (.active (.fresh env)) db) ∧
      Lone R S Q (k (.error .failed)) .idle db
  | .query q k, .active o, db => S db ∧
      (∀ env, match q o.begun env nobody (o.write db) with
        | none => Lone R S Q (k (.error .rejected)) .failed db
        | some e => Lone R S Q (k (.ok e.value)) (.active (o.extend e)) db) ∧
      Lone R S Q (k (.error .failed)) .failed db
  | .query _ k, .failed, db => S db ∧ Lone R S Q (k (.error .aborted)) .failed db
  | .query _ k, .idle, db => S db ∧ Lone R S Q (k (.error .failed)) .idle db
  | .commit k, .active o, db => S db ∧ Lone R S Q (k (.ok ())) .idle (o.write db) ∧
      Lone R S Q (k (.error .failed)) .idle db ∧
      Lone R S Q (k (.error .failed)) .idle (o.write db)
  | .commit k, .failed, db => S db ∧ Lone R S Q (k (.error .aborted)) .idle db
  | .commit k, .idle, db => S db ∧ Lone R S Q (k (.error .failed)) .idle db
  | .rollback k, _, db => S db ∧ Lone R S Q k .idle db
  | .call c k, ses, db => S db ∧ ∀ env, Lone R S Q (k (R.answer env c)) ses db

variable {R : Remote Env World Call} {S : DB → Prop}
variable {Q : α → Session DB Key Env → DB → Prop}
variable {ses : Session DB Key Env} {o : Open DB Key Env} {db : DB}

/-- What a call answers and leaves. -/
inductive Left (S : DB → Prop) (Q : α → Session DB Key Env → DB → Prop) :
    Option α → DB → Prop
  | stopped {db : DB} (h : S db) : Left S Q none db
  | answered {a : α} {ses : Session DB Key Env} {db : DB} (h : Q a ses db) : Left S Q (some a) db

theorem lone_left (h : Lone R S Q p ses db) (n : Nat) (w : World) :
    Left S Q (p.lone R i env fate n ses db w).1 (p.lone R i env fate n ses db w).2.1 := by
  induction p generalizing n ses db w with
  | ret a => exact .answered h
  | start k ih =>
    obtain ⟨hstop, hok, herr⟩ := h
    unfold lone
    split
    · exact .stopped hstop
    · exact ih _ (hok _) _ _
    · exact ih _ herr _ _
  | query q k ih =>
    cases ses with
    | idle | failed =>
      unfold lone
      split
      · exact .stopped h.1
      · exact ih _ h.2 _ _
    | active o =>
    obtain ⟨hstop, hok, herr⟩ := h
    specialize hok (env n)
    unfold lone
    split
    · exact .stopped hstop
    · split
      · next hq =>
        rw [hq] at hok
        exact ih _ hok _ _
      · next hq =>
        rw [hq] at hok
        exact ih _ hok _ _
    · exact ih _ herr _ _
  | commit k ih =>
    cases ses with
    | idle | failed =>
      unfold lone
      split
      · exact .stopped h.1
      · exact ih _ h.2 _ _
    | active o =>
    obtain ⟨hstop, hok, hfailed, hlost⟩ := h
    unfold lone
    split
    · exact .stopped hstop
    · exact ih _ hok _ _
    · exact ih _ hfailed _ _
    · exact ih _ hlost _ _
  | rollback k ih =>
    unfold lone
    split
    · exact .stopped h.1
    · exact ih h.2 _ _
  | call c k ih =>
    unfold lone
    split
    · exact .stopped h.1
    · exact ih _ (h.2 _) _ _

/-- What a call leaves, whether it has an answer or not. -/
theorem lone_leaves (h : Lone R S (fun _ _ d => S d) p ses db) (n : Nat) (w : World) :
    S (p.lone R i env fate n ses db w).2.1 := by
  have hleft : Left S (fun _ (_ : Session DB Key Env) d => S d)
      (p.lone R i env fate n ses db w).1 (p.lone R i env fate n ses db w).2.1 :=
    lone_left h n w
  generalize (p.lone R i env fate n ses db w).1 = a at hleft
  generalize (p.lone R i env fate n ses db w).2.1 = d at hleft ⊢
  cases hleft with
  | stopped h | answered h => exact h

theorem lone_then {Q' : γ → Session DB Key Env → DB → Prop} {p : Prog DB Key Env Call γ}
    (h : Lone R S Q' p ses db) (hk : ∀ r s d, Q' r s d → Lone R S Q (k r) s d) :
    Lone R S Q (p >>= k) ses db := by
  induction p generalizing ses db with
  | ret a => exact hk _ _ _ h
  | start next ih => exact ⟨h.1, fun env => ih _ (h.2.1 env), ih _ h.2.2⟩
  | query q next ih =>
    cases ses with
    | idle | failed => exact ⟨h.1, ih _ h.2⟩
    | active o =>
    obtain ⟨hstop, hok, herr⟩ := h
    refine ⟨hstop, fun env => ?_, ih _ herr⟩
    specialize hok env
    cases hq : q o.begun env nobody (o.write db) with
    | none | some =>
      rw [hq] at hok
      exact ih _ hok
  | commit next ih =>
    cases ses with
    | idle | failed => exact ⟨h.1, ih _ h.2⟩
    | active o => exact ⟨h.1, ih _ h.2.1, ih _ h.2.2.1, ih _ h.2.2.2⟩
  | rollback next ih => exact ⟨h.1, ih h.2⟩
  | call c next ih => exact ⟨h.1, fun env => ih _ (h.2 env)⟩

/-! ## The rules, one for each interaction -/

theorem lone_start {k : Except Fault Unit → Prog DB Key Env Call α} (hstop : S db)
    (hok : ∀ env, Lone R S Q (k (.ok ())) (.active (.fresh env)) db)
    (herr : Lone R S Q (k (.error .failed)) .idle db) :
    Lone R S Q (Tx.start >>= k) ses db :=
  ⟨hstop, hok, herr⟩

theorem lone_query {q : Stmt DB Key Env γ} {k : Except Fault γ → Prog DB Key Env Call α}
    (hstop : S db)
    (hok : ∀ env e, q o.begun env nobody (o.write db) = some e →
      Lone R S Q (k (.ok e.value)) (.active (o.extend e)) db)
    (herr : ∀ f, Lone R S Q (k (.error f)) .failed db) :
    Lone R S Q (Tx.query q >>= k) (.active o) db := by
  refine ⟨hstop, fun env => ?_, herr _⟩
  cases hq : q o.begun env nobody (o.write db) with
  | none => exact herr _
  | some e => exact hok env e hq

theorem lone_commit {k : Except Fault Unit → Prog DB Key Env Call α} (hstop : S db)
    (hdone : ∀ r, Lone R S Q (k r) .idle (o.write db))
    (herr : Lone R S Q (k (.error .failed)) .idle db) :
    Lone R S Q (Tx.commit >>= k) (.active o) db :=
  ⟨hstop, hdone _, herr, hdone _⟩

theorem lone_call {c : Call γ} (hstop : S db) (h : ∀ env, Lone R S Q (k (R.answer env c)) ses db) :
    Lone R S Q (Tx.call c >>= k) ses db :=
  ⟨hstop, h⟩

/-! ## Inside a transaction -/

variable {begun : Env} {ε : Type}

/-- A stretch of a transaction, and what comes after it. -/
theorem lone_stretch {Mid : γ → DB → Prop} {p : Prog DB Key Env Call (Except ε γ)}
    {k : Except ε γ → Prog DB Key Env Call α}
    (hp : Lone R S (Stretch begun db True Mid) p (.active o) db)
    (hok : ∀ a o', o'.begun = begun → Mid a (o'.write db) → Lone R S Q (k (.ok a)) (.active o') db)
    (hno : ∀ f, Lone R S Q (k (.error f)) .failed db) :
    Lone R S Q (p >>= k) (.active o) db := by
  refine lone_then hp fun r s d hr => ?_
  cases hr with
  | done hbegun hpost => exact hok _ _ hbegun hpost
  | refused _ => exact hno _

/-- What each row keeps is kept by the whole statement. -/
theorem lone_forEach (Inv : DB → Prop) (hstop : S db)
    (hstep : ∀ k v env e, Inv v → q k begun env nobody v = some e → Inv (e.write v)) :
    ∀ {ks : List κ} {count : Nat} {o : Open DB Key Env}, o.begun = begun → Inv (o.write db) →
      Lone R S (Stretch begun db True fun _ v => Inv v)
        (forEach q ks count : Prog DB Key Env Call _) (.active o) db := by
  intro ks
  induction ks with
  | nil => exact fun hbegun hinv => .done hbegun hinv
  | cons k rest ih =>
    intro count o hbegun hinv
    rw [forEach]
    refine lone_query hstop (fun env e he => ?_) fun f => .refused trivial
    rw [hbegun] at he
    exact ih hbegun (hstep k _ env e hinv he)

theorem lone_forRows (Inv : DB → Prop) {listing : Stmt DB Key Env (List κ)} (hstop : S db)
    (hlist : ∀ v env e, Inv v → listing begun env nobody v = some e → Inv (e.write v))
    (hstep : ∀ k v env e, Inv v → q k begun env nobody v = some e → Inv (e.write v))
    (hbegun : o.begun = begun) (hinv : Inv (o.write db)) :
    Lone R S (Stretch begun db True fun _ v => Inv v)
      (forRows listing q : Prog DB Key Env Call _) (.active o) db := by
  refine lone_query hstop (fun env e he => ?_) fun f => .refused trivial
  rw [hbegun] at he
  exact lone_forEach Inv hstop hstep hbegun (hlist _ env e hinv he)

end Prog

end WatchTrace.Tx
