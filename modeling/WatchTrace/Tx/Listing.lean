import Mathlib.Data.List.Sort
import Mathlib.Data.List.Nodup
import WatchTrace.Tx.Table

/-!
# Listings

`SELECT … ORDER BY`: the rows of a table that a view shows, in the order of a
key that tells them apart. Nothing about the sorting is ever needed but this:
a listing is strictly ascending, and a strictly ascending list with the same
members is that listing. What a statement does to a listing is then a question
of membership, and so of look-ups.
-/

namespace WatchTrace.Tx

variable {κ ρ β K : Type} [LinearOrder K]

/-- Strictly ascending in a key. -/
def Ascending (key : β → K) (l : List β) : Prop :=
  l.Pairwise fun a b => key a < key b

variable {b : β}

namespace Ascending

variable {key : β → K} {l l' : List β}

theorem nodup (h : Ascending key l) : l.Nodup := by
  rw [List.nodup_iff_pairwise_ne]
  refine List.Pairwise.imp (fun hab heq => ?_) h
  rw [heq] at hab
  exact lt_irrefl _ hab

/-- Ascending lists are told apart by their members. -/
theorem ext (h : Ascending key l) (h' : Ascending key l')
    (hmem : ∀ b, b ∈ l ↔ b ∈ l') : l = l' := by
  have hperm : l.Perm l' := (List.perm_ext_iff_of_nodup h.nodup h'.nodup).mpr hmem
  refine hperm.eq_of_pairwise (fun a b _ _ hab hba => ?_) h h'
  exact absurd hab (lt_asymm hba)

theorem filter (h : Ascending key l) (p : β → Bool) : Ascending key (l.filter p) :=
  List.Pairwise.filter p h

theorem append_singleton (h : Ascending key l) (hb : ∀ a ∈ l, key a < key b) :
    Ascending key (l ++ [b]) := by
  refine List.pairwise_append.mpr ⟨h, List.pairwise_singleton _ _, ?_⟩
  intro a ha c hc
  rw [List.mem_singleton.mp hc]
  exact hb a ha

theorem lt_of_append (h : Ascending key (l ++ l')) {a : β} (ha : a ∈ l) (hb : b ∈ l') :
    key a < key b :=
  (List.pairwise_append.mp h).2.2 a ha b hb

/-- A bound on the key cuts an ascending list in two. -/
theorem filter_append_filter (h : Ascending key l) {p : β → Bool}
    (hp : ∀ {a b}, key a < key b → p b = true → p a = true) :
    l.filter p ++ l.filter (fun a => !p a) = l := by
  induction l with
  | nil => rfl
  | cons a l ih =>
    obtain ⟨ha, hl⟩ := List.pairwise_cons.mp h
    by_cases hpa : p a = true
    · simp [hpa, ih hl]
    -- everything behind `a` is beyond the bound as well
    have hbeyond : ∀ b ∈ a :: l, ¬ p b = true := by
      intro b hb
      rcases List.mem_cons.mp hb with rfl | hb
      · exact hpa
      · exact fun hpb => hpa (hp (ha b hb) hpb)
    have hnil : (a :: l).filter p = [] := List.filter_eq_nil_iff.mpr hbeyond
    have hall : ((a :: l).filter fun a => !p a) = a :: l := by
      rw [List.filter_eq_self]
      intro b hb
      simpa using hbeyond b hb
    rw [hnil, hall, List.nil_append]

/-- Nothing in an ascending list lies beyond its last member. -/
theorem le_getLast (h : Ascending key l) (hlast : l.getLast? = some b) {a : β} (ha : a ∈ l) :
    key a ≤ key b := by
  obtain ⟨init, rfl⟩ := List.getLast?_eq_some_iff.mp hlast
  rcases List.mem_append.mp ha with ha | ha
  · exact le_of_lt (h.lt_of_append ha (List.mem_singleton_self b))
  · exact le_of_eq (congrArg key (List.mem_singleton.mp ha))

end Ascending

namespace Table

/-- The rows a view shows, in the order of their keys. -/
def listing (t : Table κ ρ) (view : κ × ρ → Option β) (key : β → K) : List β :=
  (t.rows.filterMap view).insertionSort fun a b => key a ≤ key b

variable {t : Table κ ρ} {view : κ × ρ → Option β} {key : β → K}

theorem mem_listing [DecidableEq κ] :
    b ∈ t.listing view key ↔ ∃ k r, t.find k = some r ∧ view (k, r) = some b := by
  simp only [listing, List.mem_insertionSort, List.mem_filterMap, Prod.exists, mem_rows]

/-- A listing whose keys determine the primary key is strictly ascending. -/
theorem ascending_listing
    (hkey : ∀ {e e' b b'}, view e = some b → view e' = some b' → key b = key b' →
      e.1 = e'.1) : Ascending key (t.listing view key) := by
  have hdistinct : (t.rows.filterMap view).Pairwise fun a b => key a ≠ key b := by
    rw [List.pairwise_filterMap]
    have hnodup := t.nodup_keys
    rw [List.nodup_iff_pairwise_ne, List.pairwise_map] at hnodup
    refine hnodup.imp fun hne b hb b' hb' heq => hne ?_
    exact hkey hb hb' heq
  have hsorted : (t.listing view key).Pairwise fun a b => key a ≤ key b := by
    have := List.pairwise_insertionSort (fun a b => key a ≤ key b) (t.rows.filterMap view)
    exact this
  have hne : (t.listing view key).Pairwise fun a b => key a ≠ key b :=
    ((List.perm_insertionSort _ _).symm.pairwise_iff fun h => Ne.symm h).mp hdistinct
  exact (hsorted.and hne).imp fun h => lt_of_le_of_ne h.1 h.2

end Table

end WatchTrace.Tx
