import Mathlib.Data.List.AList

/-!
# Tables with a primary key

A table is a finite map from keys to rows that can also be listed. The
representation is Mathlib's association list with distinct keys; what is
added here is the vocabulary of statements (`find`, `put`, `drop`, `keep`)
with one lemma for each pair of an operation and a look-up, so that nothing
above ever opens the list.
-/

namespace WatchTrace.Tx

/-- Rows `ρ` under primary keys `κ`. -/
structure Table (κ ρ : Type) where
  entries : AList (fun _ : κ => ρ)

namespace Table

variable {κ ρ : Type}

/-- No rows. -/
def empty : Table κ ρ := ⟨∅⟩

instance : Inhabited (Table κ ρ) := ⟨empty⟩

/-- Every row with its key. -/
def rows (t : Table κ ρ) : List (κ × ρ) :=
  t.entries.entries.map fun e => (e.1, e.2)

/-- The rows that satisfy `p`: what a `DELETE` with the opposite condition
leaves behind. -/
def keep (t : Table κ ρ) (p : κ → ρ → Bool) : Table κ ρ :=
  ⟨t.entries.entries.filter fun e => p e.1 e.2, t.entries.nodupKeys.sublist List.filter_sublist⟩

/-- Rows are listed without repetition, each key once. -/
theorem nodup_keys (t : Table κ ρ) : (t.rows.map Prod.fst).Nodup := by
  have h : t.rows.map Prod.fst = t.entries.entries.map Sigma.fst := by
    simp only [rows, List.map_map]
    rfl
  rw [h]
  exact t.entries.nodupKeys

theorem nodup_keys_filter (t : Table κ ρ) (f : κ × ρ → Bool) :
    ((t.rows.filter f).map Prod.fst).Nodup :=
  t.nodup_keys.sublist (List.filter_sublist.map Prod.fst)

variable [DecidableEq κ]

/-- The row under a key. -/
def find (t : Table κ ρ) (k : κ) : Option ρ := t.entries.lookup k

/-- Insert a row, or replace the one under the same key. -/
def put (t : Table κ ρ) (k : κ) (r : ρ) : Table κ ρ := ⟨t.entries.insert k r⟩

/-- Remove a key. -/
def drop (t : Table κ ρ) (k : κ) : Table κ ρ := ⟨t.entries.erase k⟩

theorem mem_rows {t : Table κ ρ} {k : κ} {r : ρ} :
    (k, r) ∈ t.rows ↔ t.find k = some r := by
  unfold rows find
  rw [← Option.mem_def, AList.mem_lookup_iff, List.mem_map]
  constructor
  · rintro ⟨⟨k', r'⟩, hmem, he⟩
    simp only [Prod.mk.injEq] at he
    obtain ⟨rfl, rfl⟩ := he
    exact hmem
  · intro h
    exact ⟨⟨k, r⟩, h, rfl⟩

/-- The keys of the rows that pass a test. -/
theorem mem_keys_filter {t : Table κ ρ} {f : κ × ρ → Bool} {k : κ} :
    k ∈ (t.rows.filter f).map Prod.fst ↔ ∃ r, t.find k = some r ∧ f (k, r) = true := by
  simp only [List.mem_map, List.mem_filter]
  constructor
  · rintro ⟨⟨k', r⟩, ⟨hmem, hf⟩, rfl⟩
    exact ⟨r, mem_rows.mp hmem, hf⟩
  · intro ⟨r, hfind, hf⟩
    exact ⟨(k, r), ⟨mem_rows.mpr hfind, hf⟩, rfl⟩

/-- The keys in the table that pass a test. -/
theorem mem_filter_keys {t : Table κ ρ} {f : κ → Bool} {k : κ} :
    k ∈ (t.rows.map Prod.fst).filter f ↔ ∃ r, t.find k = some r ∧ f k = true := by
  rw [List.filter_map, mem_keys_filter]
  rfl

theorem any_rows {t : Table κ ρ} {f : κ × ρ → Bool} :
    t.rows.any f = true ↔ ∃ k r, t.find k = some r ∧ f (k, r) = true := by
  rw [List.any_eq_true]
  constructor
  · intro ⟨⟨k, r⟩, hmem, hf⟩
    exact ⟨k, r, mem_rows.mp hmem, hf⟩
  · intro ⟨k, r, hfind, hf⟩
    exact ⟨(k, r), mem_rows.mpr hfind, hf⟩

@[simp] theorem find_empty (k : κ) : (empty : Table κ ρ).find k = none :=
  AList.lookup_empty k

@[simp] theorem find_put (t : Table κ ρ) (k : κ) (r : ρ) :
    (t.put k r).find k = some r := AList.lookup_insert t.entries

theorem find_put_ne (t : Table κ ρ) {k k' : κ} (r : ρ) (h : k' ≠ k) :
    (t.put k r).find k' = t.find k' := AList.lookup_insert_ne h

theorem find_put_eq (t : Table κ ρ) (k k' : κ) (r : ρ) :
    (t.put k r).find k' = if k' = k then some r else t.find k' := by
  split
  · next h => rw [h, find_put]
  · next h => exact find_put_ne t r h

theorem find_put_some {t : Table κ ρ} {k k' : κ} {r r' : ρ} : (t.put k r).find k' = some r' ↔
      (k' = k ∧ r' = r) ∨ (k' ≠ k ∧ t.find k' = some r') := by
  rw [find_put_eq]
  split
  · next h => simp [h, eq_comm]
  · next h => simp [h]

theorem put_put (t : Table κ ρ) (k : κ) (r r' : ρ) : (t.put k r).put k r' = t.put k r' :=
  congrArg Table.mk (AList.insert_insert t.entries)

/-- A test of all rows, after a row was added. -/
theorem any_rows_put {t : Table κ ρ} {k : κ} (h : t.find k = none) (r : ρ) (f : κ × ρ → Bool) :
    (t.put k r).rows.any f = (f (k, r) || t.rows.any f) := by
  rw [Bool.eq_iff_iff, Bool.or_eq_true, any_rows, any_rows]
  simp only [find_put_some]
  constructor
  · intro ⟨k', r', hfind, hf⟩
    rcases hfind with ⟨rfl, rfl⟩ | ⟨-, hold⟩
    · exact .inl hf
    · exact .inr ⟨k', r', hold, hf⟩
  · intro hor
    rcases hor with hf | ⟨k', r', hold, hf⟩
    · exact ⟨k, r, .inl ⟨rfl, rfl⟩, hf⟩
    · refine ⟨k', r', .inr ⟨?_, hold⟩, hf⟩
      intro heq
      rw [heq, h] at hold
      cases hold

@[simp] theorem find_drop (t : Table κ ρ) (k : κ) : (t.drop k).find k = none :=
  AList.lookup_erase k t.entries

theorem find_drop_ne (t : Table κ ρ) {k k' : κ} (h : k' ≠ k) :
    (t.drop k).find k' = t.find k' := AList.lookup_erase_ne h

theorem find_drop_eq (t : Table κ ρ) (k k' : κ) :
    (t.drop k).find k' = if k' = k then none else t.find k' := by
  split
  · next h => rw [h, find_drop]
  · next h => exact find_drop_ne t h

/-- Removing a list of keys removes these and no others. -/
theorem find_drops (ks : List κ) (t : Table κ ρ) (k : κ) :
    (ks.foldl drop t).find k = if k ∈ ks then none else t.find k := by
  induction ks generalizing t with
  | nil => simp
  | cons k' ks ih =>
    rw [List.foldl_cons, ih, find_drop_eq]
    by_cases hmem : k ∈ ks
    · simp [hmem]
    · simp [hmem]

theorem find_keep (t : Table κ ρ) (p : κ → ρ → Bool) (k : κ) :
    (t.keep p).find k = (t.find k).filter (p k) := by
  apply Option.ext
  intro r
  rw [← mem_rows, Option.filter_eq_some_iff, ← mem_rows]
  simp only [rows, keep, List.mem_map, List.mem_filter, Prod.mk.injEq]
  constructor
  · rintro ⟨e, ⟨hmem, hp⟩, rfl, rfl⟩
    exact ⟨⟨e, hmem, rfl, rfl⟩, hp⟩
  · rintro ⟨⟨e, hmem, rfl, rfl⟩, hp⟩
    exact ⟨e, ⟨hmem, hp⟩, rfl, rfl⟩

theorem nodup_rows (t : Table κ ρ) : t.rows.Nodup := t.nodup_keys.of_map _

/-- A table that has the rows of another that pass a test lists them. -/
theorem rows_perm_filter {t t' : Table κ ρ} {p : κ → ρ → Bool}
    (h : ∀ k, t'.find k = (t.find k).filter (p k)) :
    t'.rows.Perm (t.rows.filter fun e => p e.1 e.2) := by
  refine (List.perm_ext_iff_of_nodup t'.nodup_rows (t.nodup_rows.filter _)).mpr ?_
  intro ⟨k, r⟩
  rw [List.mem_filter, mem_rows, mem_rows, h k, Option.filter_eq_some_iff]

end Table

/-! ## Tables with a partial unique index

Rows whose own identifier is generated and never looked at are kept as a
list. `key` is the column of a unique index; a row without it is not
indexed. -/

/-- Rows of which no two share an indexed key. -/
structure Indexed {ρ κ : Type} (key : ρ → Option κ) where
  rows : List ρ
  unique : (rows.filterMap key).Nodup

namespace Indexed

variable {ρ κ : Type} {key : ρ → Option κ}

def empty : Indexed key := ⟨[], List.nodup_nil⟩

instance : Inhabited (Indexed key) := ⟨empty⟩

variable [DecidableEq κ]

/-- The rows under one key. -/
def under (t : Indexed key) (k : κ) : List ρ :=
  t.rows.filter fun r => key r = some k

/-- Some row has this key. -/
def holds (t : Indexed key) (k : κ) : Bool := t.rows.any fun r => key r = some k

/-- Add a row, unless its key is taken. -/
def add (t : Indexed key) (r : ρ) : Indexed key :=
  if h : ∀ k, key r = some k → t.holds k = false then
    { rows := t.rows ++ [r]
      unique := by
        cases hk : key r with
        | none => simpa [List.filterMap_append, hk] using t.unique
        | some k =>
          have hfree := h k hk
          simp only [holds, List.any_eq_false, decide_eq_true_eq] at hfree
          simp only [List.filterMap_append, List.filterMap_cons, hk,
            List.filterMap_nil]
          refine List.nodup_append.mpr ⟨t.unique, by simp, ?_⟩
          intro a ha b hb hab
          simp only [List.mem_singleton] at hb
          subst hb hab
          obtain ⟨r', hr', hkey⟩ := List.mem_filterMap.mp ha
          exact hfree r' hr' hkey }
  else t

/-- Change rows in place, under the keys they have. -/
def amend (t : Indexed key) (f : ρ → ρ) (hf : ∀ r, key (f r) = key r) : Indexed key :=
  { rows := t.rows.map f
    unique := by
      have hsame : key ∘ f = key := funext hf
      rw [List.filterMap_map, hsame]
      exact t.unique }

theorem holds_iff {t : Indexed key} {k : κ} :
    t.holds k = true ↔ ∃ r ∈ t.rows, key r = some k := by
  simp only [holds, List.any_eq_true, decide_eq_true_eq]

theorem rows_add {t : Indexed key} {r : ρ} (h : ∀ k, key r = some k → t.holds k = false) :
    (t.add r).rows = t.rows ++ [r] := by
  simp only [add, dif_pos h]

/-- Adding never loses a row. -/
theorem mem_add {t : Indexed key} {r r' : ρ} (h : r' ∈ t.rows) :
    r' ∈ (t.add r).rows := by
  unfold add
  split
  · exact List.mem_append_left _ h
  · exact h

/-- The key of an added row is taken, whether by it or by another one. -/
theorem holds_add {t : Indexed key} {r : ρ} {k : κ} (hk : key r = some k) :
    (t.add r).holds k = true := by
  unfold add
  split
  · exact holds_iff.mpr ⟨r, List.mem_append_right _ (by simp), hk⟩
  next h =>
  rw [← Bool.not_eq_false]
  refine fun hfree => h fun k' hk' => ?_
  rw [hk] at hk'
  cases hk'
  exact hfree

theorem holds_of_add {t : Indexed key} {r : ρ} {k : κ}
    (h : (t.add r).holds k = true) : t.holds k = true ∨ key r = some k := by
  unfold add at h
  split at h
  · obtain ⟨r', hr', hk⟩ := holds_iff.mp h
    rcases List.mem_append.mp hr' with hr' | hr'
    · exact .inl (holds_iff.mpr ⟨r', hr', hk⟩)
    · rw [List.mem_singleton] at hr'
      exact .inr (hr' ▸ hk)
  · exact .inl h

/-- A key that is there is there once. -/
theorem length_under {t : Indexed key} {k : κ} (h : t.holds k = true) :
    (t.under k).length = 1 := by
  obtain ⟨r, hr, hk⟩ := holds_iff.mp h
  have hcount : (t.rows.filterMap key).count k = (t.under k).length := by
    unfold under
    generalize t.rows = rows
    induction rows with
    | nil => rfl
    | cons a as ih =>
      cases ha : key a with
      | none => simp [ha, ih]
      | some k' =>
      by_cases hkk : k' = k
      · simp [ha, hkk, ih]
      · simp [ha, hkk, ih]
  rw [← hcount]
  exact List.count_eq_one_of_mem t.unique (List.mem_filterMap.mpr ⟨r, hr, hk⟩)

end Indexed

end WatchTrace.Tx
