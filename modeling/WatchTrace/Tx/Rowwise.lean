import WatchTrace.Tx.Serial
import WatchTrace.Tx.Table

/-!
# Writes, row by row

The writes of an open transaction are a function on databases that is applied
when it commits, to rows that others may have changed meanwhile. As long as
every row it changes is locked and the change of a row depends on that row
alone, it does not matter: a locked row is the one that was seen, and of the
other rows the transaction knows nothing.
-/

namespace WatchTrace.Tx

variable {DB Key Env κ ρ β : Type}

/-- The change of a row depends on that row alone, and the rows that are changed
are locked; `find` is whatever one wants to know of a row. -/
structure Pointwise (find : DB → κ → Option ρ) (key : κ → Key) (locks : List Key)
    (w : DB → DB) : Prop where
  rowwise : ∀ {x y : DB} {k : κ}, find y k = find x k → find (w y) k = find (w x) k
  locked : ∀ {x : DB} {k : κ}, key k ∉ locks → find (w x) k = find x k

variable {x y : DB}

namespace Pointwise

variable {find : DB → κ → Option ρ} {key : κ → Key} {locks ls ms : List Key}
variable {v w : DB → DB}

theorem same (h : ∀ x, find (w x) = find x) : Pointwise find key locks w where
  rowwise := by
    intro x y k hxy
    rw [h, h]
    exact hxy
  locked := by
    intro x k _
    rw [h]

/-- Some rows are overwritten, whatever was in them. -/
theorem patch {f : κ → Option (Option ρ)} (h : ∀ x k, find (w x) k = (f k).getD (find x k))
    (hlock : ∀ k, f k ≠ none → key k ∈ locks) : Pointwise find key locks w where
  rowwise := by
    intro x y k hxy
    rw [h, h, hxy]
  locked := by
    intro x k hfree
    have hnone : f k = none := by
      by_contra hk
      exact hfree (hlock k hk)
    rw [h, hnone, Option.getD_none]

theorem update [DecidableEq κ] {k : κ} {r : Option ρ}
    (h : ∀ x, find (w x) = Function.update (find x) k r) (hlock : key k ∈ locks) :
    Pointwise find key locks w := by
  refine patch (f := fun k' => if k' = k then some r else none) (fun x k' => ?_) ?_
  · rw [h, Function.update_apply]
    split <;> rfl
  · intro k' hk'
    by_cases heq : k' = k
    · exact heq ▸ hlock
    · simp [heq] at hk'

theorem comp (hv : Pointwise find key ls v) (hw : Pointwise find key ms w) :
    Pointwise find key (ms ++ ls) fun x => w (v x) where
  rowwise := fun hxy => hw.rowwise (hv.rowwise hxy)
  locked := by
    intro x k hfree
    have hms : key k ∉ ms := fun hk => hfree (List.mem_append_left _ hk)
    have hls : key k ∉ ls := fun hk => hfree (List.mem_append_right _ hk)
    rw [hw.locked hms, hv.locked hls]

/-- A row after others have acted: it is locked, and all is as it was, or it is
not, and the transaction leaves it as it is now. -/
theorem later (h : Pointwise find key locks w) (k : κ) (hxy : key k ∈ locks → find y k = find x k) :
    (key k ∈ locks ∧ find y k = find x k ∧ find (w y) k = find (w x) k) ∨
    (key k ∉ locks ∧ find (w x) k = find x k ∧ find (w y) k = find y k) := by
  by_cases hk : key k ∈ locks
  · exact .inl ⟨hk, hxy hk, h.rowwise (hxy hk)⟩
  · exact .inr ⟨hk, h.locked hk, h.locked hk⟩

end Pointwise

variable [DecidableEq κ]

/-- The same of the rows of a table. -/
structure RowLocal (table : DB → Table κ ρ) (key : κ → Key) (locks : List Key)
    (w : DB → DB) : Prop extends Pointwise (fun db => (table db).find) key locks w

namespace RowLocal

variable {table : DB → Table κ ρ} {key : κ → Key} {locks ls ms : List Key}
variable {v w : DB → DB}

theorem same (h : ∀ x, table (w x) = table x) : RowLocal table key locks w :=
  ⟨.same fun x => by rw [h]⟩

theorem congr (h : RowLocal table key ls v)
    (hsame : ∀ x k, (table (w x)).find k = (table (v x)).find k)
    (hlocks : ∀ κ, κ ∈ ls → κ ∈ ms) : RowLocal table key ms w where
  rowwise := fun hxy => by
    simp only [hsame]
    exact h.rowwise hxy
  locked := fun hk => by
    simp only [hsame]
    exact h.locked fun hlock => hk (hlocks _ hlock)

theorem put {k : κ} {r : ρ} (h : ∀ x, table (w x) = (table x).put k r)
    (hlock : key k ∈ locks) : RowLocal table key locks w := by
  refine ⟨.update (k := k) (r := some r) (fun x => ?_) hlock⟩
  funext k'
  rw [h, Table.find_put_eq, Function.update_apply]

theorem comp (hv : RowLocal table key ls v) (hw : RowLocal table key ms w) :
    RowLocal table key (ms ++ ls) fun x => w (v x) :=
  ⟨hv.toPointwise.comp hw.toPointwise⟩

end RowLocal

/-- A statement that changes at most one row of the table, which it has in view
and locks; `follows` is what may become of a row. -/
def Revises (table : DB → Table κ ρ) (key : κ → Key) (follows : ρ → ρ → Prop)
    (q : Stmt DB Key Env β) : Prop :=
  ∀ begun env busy v e, q begun env busy v = some e → (∀ x, table (e.write x) = table x) ∨
    ∃ k r r', (table v).find k = some r ∧ key k ∈ e.locks ∧ follows r r' ∧
      ∀ x, table (e.write x) = (table x).put k r'

section

variable {table : DB → Table κ ρ} {key : κ → Key} {follows : ρ → ρ → Prop}
variable {q : Stmt DB Key Env β} {begun env : Env} {busy : Key → Bool} {v : DB}
variable {e : Effect DB Key β}

/-- A statement that only looks. -/
theorem revises_look {value : Env → Env → (Key → Bool) → DB → β}
    {locks : Env → Env → (Key → Bool) → DB → List Key} :
    Revises table key follows fun begun env busy v => some
      { value := value begun env busy v, locks := locks begun env busy v } := by
  intro begun env busy v e he
  cases he
  exact .inl fun _ => rfl

theorem Revises.isLocal (h : Revises table key follows q)
    (he : q begun env busy v = some e) : RowLocal table key e.locks e.write := by
  rcases h begun env busy v e he with hsame | ⟨k, r, r', -, hlock, -, hput⟩
  · exact .same hsame
  · exact .put hput hlock

/-! ## What becomes of the rows -/

/-- Every row is as it was, or has been followed by another. -/
def Evolves (table : DB → Table κ ρ) (follows : ρ → ρ → Prop) (x y : DB) : Prop :=
  ∀ k, (table y).find k = (table x).find k ∨
    ∃ r r', (table x).find k = some r ∧ follows r r' ∧ (table y).find k = some r'

theorem Evolves.refl (x : DB) : Evolves table follows x x := fun _ => .inl rfl

theorem Evolves.trans (hfollows : ∀ r s t : ρ, follows r s → follows s t → follows r t) {z : DB}
    (h : Evolves table follows x y) (h' : Evolves table follows y z) :
    Evolves table follows x z := by
  intro k
  rcases h k, h' k with ⟨hsame | ⟨r, s, hr, hrs, hs⟩, hsame' | ⟨s', t, hs', hst, ht⟩⟩
  · exact .inl (hsame'.trans hsame)
  · exact .inr ⟨s', t, hsame ▸ hs', hst, ht⟩
  · exact .inr ⟨r, s, hr, hrs, hsame'.trans hs⟩
  · rw [hs, Option.some.injEq] at hs'
    subst hs'
    exact .inr ⟨r, t, hr, hfollows r s t hrs hst, ht⟩

/-- A row that is there stays, and came from one that was. -/
theorem Evolves.none_iff (h : Evolves table follows x y) (k : κ) :
    (table y).find k = none ↔ (table x).find k = none := by
  rcases h k with hsame | ⟨r, r', hr, -, hr'⟩
  · rw [hsame]
  · rw [hr, hr']
    simp

theorem Revises.evolves (h : Revises table key follows q)
    (he : q begun env busy v = some e) : Evolves table follows v (e.write v) := by
  intro k
  rcases h begun env busy v e he with hsame | ⟨k', r, r', hfind, -, hfollows, hput⟩
  · exact .inl (by rw [hsame])
  · by_cases hk : k = k'
    · subst hk
      exact .inr ⟨r, r', hfind, hfollows, by rw [hput, Table.find_put]⟩
    · exact .inl (by rw [hput, Table.find_put_ne _ _ hk])

/-- An open transaction that has done nothing to the table but revise rows. -/
structure Revising (table : DB → Table κ ρ) (key : κ → Key) (follows : ρ → ρ → Prop)
    (o : Open DB Key Env) (x : DB) : Prop where
  isLocal : RowLocal table key o.locks o.write
  evolves : Evolves table follows x (o.write x)

theorem Revising.fresh (env : Env) (x : DB) : Revising table key follows (.fresh env) x where
  isLocal := .same fun _ => rfl
  evolves := .refl x

variable {o : Open DB Key Env} {x y : DB}

theorem Revising.extend (hfollows : ∀ r s t : ρ, follows r s → follows s t → follows r t)
    (h : Revising table key follows o x) (hq : Revises table key follows q)
    (he : q begun env busy (o.write x) = some e) :
    Revising table key follows (o.extend e) x where
  isLocal := h.isLocal.comp (hq.isLocal he)
  evolves := h.evolves.trans hfollows (hq.evolves he)

theorem Revising.later (h : Revising table key follows o x)
    (hxy : ∀ k, key k ∈ o.locks → (table y).find k = (table x).find k) :
    Revising table key follows o y where
  isLocal := h.isLocal
  evolves := by
    intro k
    rcases h.isLocal.toPointwise.later k (hxy k) with ⟨-, hnow, hview⟩ | ⟨-, -, hview⟩
    · rw [hnow, hview]
      exact h.evolves k
    · exact .inl hview

end

end WatchTrace.Tx
