import WatchTrace.Tx.Alone

/-!
# One statement, many rows

An `UPDATE`, a `DELETE` or an `INSERT … SELECT` finds its rows in the snapshot
it began with and then goes through them one by one. A row that another
transaction holds is waited for, and is then tested again as it was left. So
such a statement is a listing, followed by a statement for each row listed;
others may slip in between, which is what waiting amounts to.

Alone, the statement is what it says row by row: the changes add up, and the
first row that is refused takes the whole transaction with it.
-/

namespace WatchTrace.Tx

variable {DB Key Env : Type} {Call : Type → Type} {World κ : Type}

/-- One row after the other; the answer is the number of rows affected. -/
def forEach (q : κ → Stmt DB Key Env Nat) : List κ → Nat → Prog DB Key Env Call (Except Fault Nat)
  | [], count => return .ok count
  | k :: rest, count => do
      let .ok affected ← query (q k) | return .error .failed
      forEach q rest (count + affected)

/-- The whole statement: the rows the snapshot shows, one after the other. -/
def forRows (listing : Stmt DB Key Env (List κ)) (q : κ → Stmt DB Key Env Nat) :
    Prog DB Key Env Call (Except Fault Nat) := do
  let .ok rows ← query listing | return .error .failed
  forEach q rows 0

/-- What a statement that is not in anybody's way makes of the rows. -/
def Stmt.apply {β : Type} (q : Stmt DB Key Env β) (begun env : Env) (db : DB) : Option DB :=
  (q begun env (fun _ => false) db).map fun e => e.write db

namespace Prog

variable {R : Remote Env World Call} {i : Nat} {env : Nat → Env} {begun : Env}
  {q : κ → Stmt DB Key Env Nat} {change : κ → DB → Option DB} {db : DB} {w : World}

theorem exec_forEach (hq : ∀ k e v, (q k).apply begun e v = change k v) {v : DB} :
    ∀ {ks : List κ} {n count : Nat} {o : Open DB Key Env}, o.begun = begun →
      ks.foldlM (fun v k => change k v) (o.write db) = some v →
      ∃ total n' o', n ≤ n' ∧ o'.begun = begun ∧ o'.write db = v ∧
        (forEach q ks count : Prog DB Key Env Call _).exec R i env
          ⟨n, .active o, db, w⟩ = (.ok total, ⟨n', .active o', db, w⟩) := by
  intro ks
  induction ks with
  | nil =>
    intro n count o hbegun hv
    exact ⟨count, n, o, Nat.le_refl n, hbegun, Option.some.inj hv, rfl⟩
  | cons k rest ih =>
    intro n count o hbegun hv
    rw [List.foldlM_cons, ← hq k (env n), ← hbegun] at hv
    obtain ⟨v', hfirst, hrest⟩ := Option.bind_eq_some_iff.mp hv
    obtain ⟨e, he, hwrite⟩ := Option.map_eq_some_iff.mp hfirst
    have hview : (o.extend e).write db = v' := hwrite
    rw [← hview] at hrest
    obtain ⟨total, n', o', hn, hb, hlast, hexec⟩ :=
      @ih (n + 1) (count + e.value) (o.extend e) hbegun hrest
    refine ⟨total, n', o', by omega, hb, hlast, ?_⟩
    rw [forEach, exec_then (exec_query he)]
    exact hexec

theorem exec_forEach_refused (hq : ∀ k e v, (q k).apply begun e v = change k v) :
    ∀ {ks : List κ} {n count : Nat} {o : Open DB Key Env}, o.begun = begun →
      ks.foldlM (fun v k => change k v) (o.write db) = none →
      ∃ n', n ≤ n' ∧ (forEach q ks count : Prog DB Key Env Call _).exec R i env
        ⟨n, .active o, db, w⟩ = (.error .failed, ⟨n', .failed, db, w⟩) := by
  intro ks
  induction ks with
  | nil =>
    intro n count o _ hv
    cases hv
  | cons k rest ih =>
    intro n count o hbegun hv
    rw [List.foldlM_cons, ← hq k (env n), ← hbegun] at hv
    cases he : q k o.begun (env n) (fun _ => false) (o.write db) with
    | none =>
      refine ⟨n + 1, by omega, ?_⟩
      rw [forEach, exec_then (exec_query_refused he)]
      rfl
    | some e =>
    simp only [Stmt.apply, he, Option.map_some, Option.bind_eq_bind, Option.bind_some] at hv
    obtain ⟨n', hn, hexec⟩ :=
      @ih (n + 1) (count + e.value) (o.extend e) hbegun hv
    refine ⟨n', by omega, ?_⟩
    rw [forEach, exec_then (exec_query he)]
    exact hexec

variable {listing : Stmt DB Key Env (List κ)} {rows : List κ} {n : Nat} {o : Open DB Key Env}

theorem exec_forRows (hlist : listing o.begun (env n) (fun _ => false) (o.write db) =
      some { value := rows })
    (hq : ∀ k e v, (q k).apply o.begun e v = change k v) {v : DB}
    (hv : rows.foldlM (fun v k => change k v) (o.write db) = some v) :
    ∃ total n' o', n ≤ n' ∧ o'.begun = o.begun ∧ o'.write db = v ∧
      (forRows listing q : Prog DB Key Env Call _).exec R i env
        ⟨n, .active o, db, w⟩ = (.ok total, ⟨n', .active o', db, w⟩) := by
  obtain ⟨total, n', o', hn, hb, hwrite, hexec⟩ :=
    @exec_forEach _ _ _ _ _ _ R i env _ q change db w hq v rows (n + 1) 0
      (o.extend { value := rows }) rfl hv
  refine ⟨total, n', o', by omega, hb, hwrite, ?_⟩
  rw [forRows, exec_then (exec_query hlist)]
  exact hexec

theorem exec_forRows_refused (hlist : listing o.begun (env n) (fun _ => false) (o.write db) =
      some { value := rows })
    (hq : ∀ k e v, (q k).apply o.begun e v = change k v)
    (hv : rows.foldlM (fun v k => change k v) (o.write db) = none) :
    ∃ n', n ≤ n' ∧ (forRows listing q : Prog DB Key Env Call _).exec R i env
      ⟨n, .active o, db, w⟩ = (.error .failed, ⟨n', .failed, db, w⟩) := by
  obtain ⟨n', hn, hexec⟩ :=
    @exec_forEach_refused _ _ _ _ _ _ R i env _ q change db w hq rows (n + 1) 0
      (o.extend { value := rows }) rfl hv
  refine ⟨n', by omega, ?_⟩
  rw [forRows, exec_then (exec_query hlist)]
  exact hexec

end Prog

/-! ## Row by row

What is true of each row's change, and composes, is true of the statement. -/

section

variable {α : Type} {change : κ → α → Option α}

theorem foldlM_total (h : ∀ k v, ∃ v', change k v = some v') :
    ∀ (ks : List κ) (v : α), ∃ v', ks.foldlM (fun v k => change k v) v = some v'
  | [], v => ⟨v, rfl⟩
  | k :: ks, v => by
      obtain ⟨v₁, h₁⟩ := h k v
      obtain ⟨v', hv'⟩ := foldlM_total h ks v₁
      exact ⟨v', by rw [List.foldlM_cons, h₁]; exact hv'⟩

theorem foldlM_related {T : List κ → α → α → Prop} (hnil : ∀ v, T [] v v)
    (hcons : ∀ k ks v v₁ v', change k v = some v₁ → T ks v₁ v' → T (k :: ks) v v') :
    ∀ {ks : List κ} {v v' : α},
      ks.foldlM (fun v k => change k v) v = some v' → T ks v v' := by
  intro ks
  induction ks with
  | nil =>
    intro v v' h
    cases Option.some.inj h
    exact hnil v
  | cons k ks ih =>
    intro v v' h
    rw [List.foldlM_cons] at h
    obtain ⟨v₁, h₁, hrest⟩ := Option.bind_eq_some_iff.mp h
    exact hcons k ks v v₁ v' h₁ (ih hrest)

end

end WatchTrace.Tx
