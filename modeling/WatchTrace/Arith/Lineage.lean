import Mathlib.Data.List.Chain
import Mathlib.Data.List.Nodup

/-!
# Lines of descent

Things that replace one another: each has at most one successor, and `next` names
it. A lineage is a set of such things that is one line, from the first, which
replaces nothing, through all the others, to the last, which nothing has
replaced yet. It grows at the end only.
-/

namespace WatchTrace.Arith

variable {α : Type}

/-- `line` lists the members from the first to the last, each followed by its
successor. -/
structure Lineage (next : α → Option α) (member : α → Prop) (line : List α) : Prop where
  nodup : line.Nodup
  mem_iff : ∀ a, a ∈ line ↔ member a
  linked : line.IsChain fun a b => next a = some b
  last : ∀ a ∈ line.getLast?, next a = none

variable {a b : α}

namespace Lineage

variable {next next' : α → Option α} {member member' : α → Prop} {line : List α}

/-- Nobody is a line too. -/
theorem nil (h : ∀ a, ¬ member a) : Lineage next member [] where
  nodup := List.nodup_nil
  mem_iff a := by simp [h a]
  linked := List.isChain_nil
  last a ha := by cases ha

theorem single (hmember : ∀ b, member b ↔ b = a) (hnext : next a = none) :
    Lineage next member [a] where
  nodup := List.nodup_singleton a
  mem_iff b := by simp [hmember b]
  linked := List.isChain_singleton a
  last b hb := by
    cases hb
    exact hnext

/-- Only the successors of members matter. -/
theorem congr (h : Lineage next member line) (hmember : ∀ a, member' a ↔ member a)
    (hnext : ∀ a, member a → next' a = next a) : Lineage next' member' line where
  nodup := h.nodup
  mem_iff a := (h.mem_iff a).trans (hmember a).symm
  linked := by
    refine h.linked.imp_of_mem_imp fun a b ha _ hab => ?_
    rw [hnext a ((h.mem_iff a).mp ha)]
    exact hab
  last a ha := by
    rw [hnext a ((h.mem_iff a).mp (List.mem_of_mem_getLast? ha))]
    exact h.last a ha

/-- The one member without a successor is the last. -/
theorem last_of_next (h : Lineage next member line) (ha : member a) (hnone : next a = none) :
    line.getLast? = some a := by
  obtain ⟨before, after, hsplit⟩ := List.append_of_mem ((h.mem_iff a).mpr ha)
  cases after with
  | nil => rw [hsplit, List.getLast?_append, List.getLast?_singleton, Option.some_or]
  | cons b after =>
  -- otherwise `b` follows it
  have hlinked := h.linked
  rw [hsplit, List.isChain_append] at hlinked
  have hab := (List.isChain_cons_cons.mp hlinked.2.1).1
  rw [hnone] at hab
  cases hab

/-- A successor of a member is one of them. -/
theorem next_mem (h : Lineage next member line) (ha : member a) (hab : next a = some b) :
    b ∈ line := by
  obtain ⟨before, after, hsplit⟩ := List.append_of_mem ((h.mem_iff a).mpr ha)
  cases after with
  | nil =>
    have hlast := h.last a (by rw [hsplit, List.getLast?_append,
      List.getLast?_singleton, Option.some_or]; rfl)
    rw [hab] at hlast
    cases hlast
  | cons c after =>
  have hlinked := h.linked
  rw [hsplit, List.isChain_append] at hlinked
  have hac := (List.isChain_cons_cons.mp hlinked.2.1).1
  rw [hab, Option.some.injEq] at hac
  rw [hsplit, hac]
  exact List.mem_append_right _ (List.mem_cons_of_mem _ List.mem_cons_self)

theorem last_unique (h : Lineage next member line) (ha : member a) (hb : member b)
    (hna : next a = none) (hnb : next b = none) : a = b := by
  have hlast := h.last_of_next ha hna
  rw [h.last_of_next hb hnb] at hlast
  exact (Option.some.inj hlast).symm

/-- The last one gets a successor, who is new. -/
theorem extend (h : Lineage next member line) (ha : member a) (hnone : next a = none)
    (hb : ¬ member b) (hmember : ∀ c, member' c ↔ member c ∨ c = b)
    (hnext : ∀ c, member c → c ≠ a → next' c = next c) (hnew : next' a = some b)
    (hlast : next' b = none) : Lineage next' member' (line ++ [b]) where
  nodup := by
    rw [List.nodup_append]
    refine ⟨h.nodup, List.nodup_singleton b, fun c hc d hd heq => ?_⟩
    rw [List.mem_singleton] at hd
    subst hd heq
    exact hb ((h.mem_iff c).mp hc)
  mem_iff c := by
    rw [List.mem_append, List.mem_singleton, h.mem_iff, hmember]
  linked := by
    have hend := h.last_of_next ha hnone
    rw [List.isChain_append]
    refine ⟨?_, List.isChain_singleton b, fun c hc d hd => ?_⟩
    · refine h.linked.imp_of_mem_imp fun c d hc _ hcd => ?_
      rw [hnext c ((h.mem_iff c).mp hc) ?_]
      · exact hcd
      · intro hca
        rw [hca, hnone] at hcd
        cases hcd
    · rw [hend] at hc
      cases hc
      cases hd
      exact hnew
  last c hc := by
    rw [List.getLast?_append, List.getLast?_singleton] at hc
    cases hc
    exact hlast

end Lineage

end WatchTrace.Arith
