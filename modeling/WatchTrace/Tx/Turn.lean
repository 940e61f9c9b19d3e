import WatchTrace.Tx.History
import WatchTrace.Tx.Rows
import WatchTrace.Tx.Table

/-!
# Calls that take turns

When calls run one after another, each of them runs alone: no interference, no
failures of the connection, only what the statements themselves refuse. `Ends`
is the weakest precondition for a whole call of this kind. It differs from
following `solo` step by step in that the environment of a step is not the
`n`-th of a sequence but any one of a class, so that a proof has no steps to
count.

`Stretch` is the form of a postcondition for what happens inside a transaction.
Either the stretch has an answer and the transaction goes on, or a statement was
refused; a stretch for which that cannot happen says so with `Bad := False`.
-/

namespace WatchTrace.Tx

variable {DB Key Env : Type} {Call : Type → Type} {World κ : Type}
variable {α β γ ε : Type}

/-- Nobody holds a key. -/
def nobody : Key → Bool := fun _ => false

variable {p : Prog DB Key Env Call α} {o : Open DB Key Env} {Note : Type} {ks : List κ}

variable {i : Nat} {env : Nat → Env} {k : γ → Prog DB Key Env Call α} {q : Stmt DB Key Env γ}
variable {note : Env → List Note} {listing : Stmt DB Key Env (List κ)}

namespace Prog

/-- Every way through `p` in environments of the class `C` ends in `Q`. -/
def Ends (R : Remote Env World Call) (C : Env → Prop) (Q : α → Session DB Key Env → DB → Prop) :
    Prog DB Key Env Call α → Session DB Key Env → DB → Prop
  | .ret r, ses, db => Q r ses db
  | .start k, _, db => ∀ env, C env → Ends R C Q (k (.ok ())) (.active (.fresh env)) db
  | .query q k, .active o, db =>
    ∀ env, C env → (∀ e, q o.begun env nobody (o.write db) = some e →
        Ends R C Q (k (.ok e.value)) (.active (o.extend e)) db) ∧
      (q o.begun env nobody (o.write db) = none → Ends R C Q (k (.error .rejected)) .failed db)
  | .query _ k, .failed, db => Ends R C Q (k (.error .aborted)) .failed db
  | .query _ k, .idle, db => Ends R C Q (k (.error .failed)) .idle db
  | .commit k, .active o, db => Ends R C Q (k (.ok ())) .idle (o.write db)
  | .commit k, .failed, db => Ends R C Q (k (.error .aborted)) .idle db
  | .commit k, .idle, db => Ends R C Q (k (.error .failed)) .idle db
  | .rollback k, _, db => Ends R C Q k .idle db
  | .call c k, ses, db => ∀ env, C env → Ends R C Q (k (R.answer env c)) ses db

variable {R : Remote Env World Call} {C : Env → Prop}
variable {Q : α → Session DB Key Env → DB → Prop} {ses : Session DB Key Env} {db : DB}

/-- What a call that runs alone leaves and answers. -/
theorem solo_ends (hC : ∀ n, C (env n)) (h : Ends R C Q p ses db) (n : Nat) (w : World) :
    ∃ ses', Q (p.solo R i env n ses db w).1 ses' (p.solo R i env n ses db w).2.1 := by
  induction p generalizing n ses db w with
  | ret a => exact ⟨ses, h⟩
  | start k ih => exact ih _ (h _ (hC n)) _ _
  | query q k ih =>
    cases ses with
    | idle | failed => exact ih _ h _ _
    | active o =>
    obtain ⟨hok, hno⟩ := h _ (hC n)
    cases hq : q o.begun (env n) nobody (o.write db) with
    | none =>
      simp only [solo, show q o.begun (env n) (fun _ => false) (o.write db) = _ from hq]
      exact ih _ (hno hq) _ _
    | some e =>
      simp only [solo, show q o.begun (env n) (fun _ => false) (o.write db) = _ from hq]
      exact ih _ (hok e hq) _ _
  | commit k ih => cases ses <;> exact ih _ h _ _
  | rollback k ih => exact ih h _ _
  | call c k ih => exact ih _ (h _ (hC n)) _ _

theorem solo_leaves {P : α → DB → Prop} (hC : ∀ n, C (env n))
    (h : Ends R C (fun r _ d => P r d) p ses db) (n : Nat) (w : World) :
    P (p.solo R i env n ses db w).1 (p.solo R i env n ses db w).2.1 := by
  obtain ⟨_, hP⟩ := solo_ends hC h n w
  exact hP

theorem ends_bind {Q' : γ → Session DB Key Env → DB → Prop} {p : Prog DB Key Env Call γ}
    (h : Ends R C Q' p ses db) (hk : ∀ r s d, Q' r s d → Ends R C Q (k r) s d) :
    Ends R C Q (p >>= k) ses db := by
  induction p generalizing ses db with
  | ret a => exact hk _ _ _ h
  | start next ih => exact fun env henv => ih _ (h env henv)
  | query q next ih =>
    cases ses with
    | idle | failed => exact ih _ h
    | active o =>
      exact fun env henv => ⟨fun e he => ih _ ((h env henv).1 e he),
        fun hno => ih _ ((h env henv).2 hno)⟩
  | commit next ih => cases ses <;> exact ih _ h
  | rollback next ih => exact ih h
  | call c next ih => exact fun env henv => ih _ (h env henv)

theorem Ends.mono {Q' : α → Session DB Key Env → DB → Prop} (h : Ends R C Q p ses db)
    (hQ : ∀ r s d, Q r s d → Q' r s d) : Ends R C Q' p ses db := by
  rw [← Prog.bind_pure p]
  exact ends_bind h hQ

/-- Nothing is asked of the end. -/
theorem ends_trivial (hQ : ∀ r s d, Q r s d) (p : Prog DB Key Env Call α) :
    Ends R C Q p ses db := by
  induction p generalizing ses db with
  | ret a => exact hQ _ _ _
  | start k ih => exact fun env _ => ih _
  | query q k ih =>
    cases ses with
    | idle | failed => exact ih _
    | active o => exact fun env _ => ⟨fun e _ => ih _, fun _ => ih _⟩
  | commit k ih => cases ses <;> exact ih _
  | rollback k ih => exact ih
  | call c k ih => exact fun env _ => ih _

theorem ends_start {k : Except Fault Unit → Prog DB Key Env Call α}
    (h : ∀ env, C env → Ends R C Q (k (.ok ())) (.active (.fresh env)) db) :
    Ends R C Q (Tx.start >>= k) ses db := h

theorem ends_query {k : Except Fault γ → Prog DB Key Env Call α}
    (hok : ∀ env, C env → ∀ e, q o.begun env nobody (o.write db) = some e →
      Ends R C Q (k (.ok e.value)) (.active (o.extend e)) db)
    (hno : ∀ env, C env → q o.begun env nobody (o.write db) = none →
      Ends R C Q (k (.error .rejected)) .failed db) :
    Ends R C Q (Tx.query q >>= k) (.active o) db :=
  fun env henv => ⟨hok env henv, hno env henv⟩

theorem ends_commit {k : Except Fault Unit → Prog DB Key Env Call α}
    (h : Ends R C Q (k (.ok ())) .idle (o.write db)) :
    Ends R C Q (Tx.commit >>= k) (.active o) db := h

theorem ends_rollback {k : Unit → Prog DB Key Env Call α}
    (h : Ends R C Q (k ()) .idle db) : Ends R C Q (Tx.rollback >>= k) ses db := h

theorem ends_call {c : Call γ} (h : ∀ env, C env → Ends R C Q (k (R.answer env c)) ses db) :
    Ends R C Q (Tx.call c >>= k) ses db := h

/-- A statement on rows that carry notes: what it does to the rows. -/
theorem ends_noting {k : Except Fault γ → Prog (Noted DB Note) Key Env Call α}
    {Q : α → Session (Noted DB Note) Key Env → Noted DB Note → Prop}
    {o : Open (Noted DB Note) Key Env} {db : Noted DB Note}
    (hok : ∀ env, C env → ∀ e o', q o.begun env nobody (o.write db).rows = some e →
      o'.begun = o.begun → (o'.write db).rows = e.write (o.write db).rows →
      Ends R C Q (k (.ok e.value)) (.active o') db)
    (hno : ∀ env, C env → q o.begun env nobody (o.write db).rows = none →
      Ends R C Q (k (.error .rejected)) .failed db) :
    Ends R C Q (Tx.query (q.noting note) >>= k) (.active o) db := by
  refine ends_query (fun env henv e he => ?_) fun env henv he => ?_
  · obtain ⟨e', he', rfl⟩ := Option.map_eq_some_iff.mp he
    exact hok env henv e' (o.extend _) he' rfl rfl
  · exact hno env henv (Option.map_eq_none_iff.mp he)

/-! ## Inside a transaction -/

/-- The stretch has an answer and `Post` holds of the rows in view, or `Bad` and
a statement was refused. Nothing is committed either way. -/
inductive Stretch (begun : Env) (db : DB) (Bad : Prop) (Post : α → DB → Prop) :
    Except ε α → Session DB Key Env → DB → Prop
  | done {a : α} {o : Open DB Key Env} (hbegun : o.begun = begun)
      (hpost : Post a (o.write db)) : Stretch begun db Bad Post (.ok a) (.active o) db
  | refused {f : ε} (h : Bad) : Stretch begun db Bad Post (.error f) .failed db

variable {begun : Env} {Bad : Prop} {Post : α → DB → Prop} {o : Open DB Key Env}

/-- A stretch, and what comes after it. -/
theorem ends_stretch {Mid : γ → DB → Prop} {p : Prog DB Key Env Call (Except ε γ)}
    {k : Except ε γ → Prog DB Key Env Call α}
    (hp : Ends R C (Stretch begun db Bad Mid) p (.active o) db)
    (hok : ∀ a o', o'.begun = begun → Mid a (o'.write db) → Ends R C Q (k (.ok a)) (.active o') db)
    (hno : ∀ f, Bad → Ends R C Q (k (.error f)) .failed db) :
    Ends R C Q (p >>= k) (.active o) db := by
  refine ends_bind hp fun r s d hr => ?_
  cases hr with
  | done hbegun hpost => exact hok _ _ hbegun hpost
  | refused hbad => exact hno _ hbad

/-- One row after the other: what each of them keeps, with the rows still to
come, holds in the end with none to come. -/
theorem ends_forEach (Inv : List κ → DB → Prop) {q : κ → Stmt DB Key Env Nat}
    (hstep : ∀ k rest v env e, C env → Inv (k :: rest) v →
      q k begun env nobody v = some e → Inv rest (e.write v))
    (hno : ∀ k rest v env, C env → Inv (k :: rest) v → q k begun env nobody v = none → Bad) :
    ∀ {ks : List κ} {count : Nat} {o : Open DB Key Env}, o.begun = begun → Inv ks (o.write db) →
      Ends R C (Stretch begun db Bad fun _ v => Inv [] v)
        (forEach q ks count : Prog DB Key Env Call _) (.active o) db := by
  intro ks
  induction ks with
  | nil => exact fun hbegun hinv => .done hbegun hinv
  | cons k rest ih =>
    intro count o hbegun hinv
    rw [forEach]
    refine ends_query (fun env henv e he => ?_) fun env henv hq => ?_
    · rw [hbegun] at he
      exact ih hbegun (hstep k rest _ env e henv hinv he)
    · rw [hbegun] at hq
      exact .refused (hno k rest _ env henv hinv hq)

section Alter

variable [DecidableEq κ] {ρ δ : Type} (get : DB → Table κ ρ) (rest : DB → δ)

/-- One row becomes what `f` makes of it, and nothing else is altered. -/
def Alters (f : ρ → Option ρ) (k : κ) (v v' : DB) : Prop :=
  rest v' = rest v ∧ ∀ k', (get v').find k' =
    if k' = k then ((get v).find k).bind f else (get v).find k'

/-- The rows listed become what `f` makes of them, and no others. -/
def AltersAll (f : ρ → Option ρ) (ks : List κ) (v v' : DB) : Prop :=
  rest v' = rest v ∧ ∀ k, (get v').find k =
    if k ∈ ks then ((get v).find k).bind f else (get v).find k

variable {f : ρ → Option ρ} {Refused : ρ → Prop} {q : κ → Stmt DB Key Env Nat}

theorem ends_alter (hok : ∀ k v env e, C env → q k begun env nobody v = some e →
      Alters get rest f k v (e.write v))
    (hno : ∀ k v env, C env → q k begun env nobody v = none →
      ∃ r, (get v).find k = some r ∧ Refused r) (hks : ks.Nodup) {count : Nat}
    (hbegun : o.begun = begun) {v₀ : DB} (hv₀ : o.write db = v₀) :
    Ends R C (Stretch begun db (∃ k r, (get v₀).find k = some r ∧ Refused r)
        fun _ v => AltersAll get rest f ks v₀ v)
      (forEach q ks count : Prog DB Key Env Call _) (.active o) db := by
  -- the rows still to come are as they were
  let Inv : List κ → DB → Prop := fun todo v =>
    (todo.Nodup ∧ ∀ k ∈ todo, k ∈ ks) ∧ rest v = rest v₀ ∧ ∀ k, (get v).find k =
      if k ∈ ks ∧ k ∉ todo then ((get v₀).find k).bind f else (get v₀).find k
  have hinit : Inv ks (o.write db) := by
    refine ⟨⟨hks, fun k hk => hk⟩, by rw [hv₀], fun k => ?_⟩
    rw [if_neg fun h => h.2 h.1, hv₀]
  have hstep : ∀ k todo v env e, C env → Inv (k :: todo) v →
      q k begun env nobody v = some e → Inv todo (e.write v) := by
    rintro k todo v env e henv ⟨⟨hnodup, hsub⟩, hrest, hfind⟩ he
    obtain ⟨hframe, hwrite⟩ := hok k v env e henv he
    obtain ⟨hnew, htodo⟩ := List.nodup_cons.mp hnodup
    refine ⟨⟨htodo, fun k' hk' => hsub k' (List.mem_cons_of_mem _ hk')⟩,
      hframe.trans hrest, fun k' => ?_⟩
    rw [hwrite, hfind, hfind]
    by_cases hk : k' = k
    · subst hk
      simp [hnew, hsub k' List.mem_cons_self]
    · simp [hk]
  have hrefused : ∀ k todo v env, C env → Inv (k :: todo) v →
      q k begun env nobody v = none → ∃ k r, (get v₀).find k = some r ∧ Refused r := by
    rintro k todo v env henv ⟨-, -, hfind⟩ hq
    obtain ⟨r, hr, hbad⟩ := hno k v env henv hq
    rw [hfind, if_neg fun h => h.2 List.mem_cons_self] at hr
    exact ⟨k, r, hr, hbad⟩
  refine (ends_forEach Inv hstep hrefused hbegun hinit).mono fun r s d h => ?_
  cases h with
  | done hb hpost =>
    refine .done hb ⟨hpost.2.1, fun k => ?_⟩
    rw [hpost.2.2 k]
    simp
  | refused hbad => exact .refused hbad

/-- A statement on one row, and rows that carry notes. -/
theorem plain_alters {env : Env} {k : κ} (h : ∀ v e, q k begun env nobody v = some e →
      Alters get rest f k v (e.write v)) {v : Noted DB Note}
    {e : Effect (Noted DB Note) Key Nat} (he : (q k).plain begun env nobody v = some e) :
    Alters (fun d : Noted DB Note => get d.rows) (fun d => rest d.rows) f k v (e.write v) := by
  obtain ⟨e', he', -, -, hwrite⟩ := Stmt.noting_some he
  rw [hwrite]
  exact h v.rows e' he'

/-- The whole statement on rows that carry notes. -/
theorem ends_forRows_noting {o : Open (Noted DB Note) Key Env} {db : Noted DB Note}
    (hlist : ∀ env, C env →
      listing o.begun env nobody (o.write db).rows = some { value := ks }) (hks : ks.Nodup)
    (hok : ∀ k v env e, C env → q k o.begun env nobody v = some e →
      Alters get rest f k v (e.write v))
    (hno : ∀ k v env, C env → q k o.begun env nobody v = none →
      ∃ r, (get v).find k = some r ∧ Refused r) :
    Ends R C (Stretch o.begun db (∃ k r, (get (o.write db).rows).find k = some r ∧ Refused r)
        fun _ v => AltersAll get rest f ks (o.write db).rows v.rows)
      (forRows (listing.noting note) fun k => (q k).plain :
        Prog (Noted DB Note) Key Env Call _) (.active o) db := by
  refine ends_noting (fun env henv e o' he hbegun hrows => ?_) fun env henv hq => ?_
  · rw [hlist env henv, Option.some.injEq] at he
    subst he
    have hrows : (o'.write db).rows = (o.write db).rows := hrows
    rw [← hrows]
    exact ends_alter _ _
      (fun k v env e henv he => plain_alters get rest (fun v e => hok k v env e henv) he)
      (fun k v env henv he => hno k v.rows env henv (Option.map_eq_none_iff.mp he))
      hks hbegun rfl
  · rw [hlist env henv] at hq
    cases hq

end Alter

end Prog

end WatchTrace.Tx
