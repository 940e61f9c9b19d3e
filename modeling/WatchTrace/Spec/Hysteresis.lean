import Mathlib.Data.List.Induction
import WatchTrace.Spec.Observation

/-!
# What the counters count

`advanceObservedState` looks at a state and two counters, not at the results.
This file says what the three have to do with the results. The failure counter
is the length of the run of failures at the end, as far as the limit counts.
A monitor is down when a full run of failures is followed by successes only,
and too few of them; the success counter is their number.

The counter of failures starts over with every success. That is where the fold
goes wrong while a monitor recovers: a single failure finds a counter of zero,
and what it makes of a monitor that is down is a degraded one.
-/

namespace WatchTrace.Spec

open Tx Model

variable {lim : Limits}

/-! ## Runs at the end -/

def outcomes (rs : List ObservedResult) : List Bool :=
  rs.map ObservedResult.succeeded

/-- The length of the run of results with this outcome at the end. -/
def trailing (b : Bool) (rs : List ObservedResult) : Nat :=
  (rs.reverse.takeWhile fun r => r.succeeded == b).length

/-- The `n` newest results are there and have this outcome. -/
def Newest (n : Nat) (b : Bool) (rs : List ObservedResult) : Prop :=
  n ≤ rs.length ∧ ∀ r ∈ rs.reverse.take n, r.succeeded = b

theorem trailing_nil (b : Bool) : trailing b [] = 0 := rfl

theorem trailing_concat (b : Bool) (rs : List ObservedResult) (r : ObservedResult) :
    trailing b (rs ++ [r]) = if r.succeeded = b then trailing b rs + 1 else 0 := by
  simp only [trailing, List.reverse_append, List.reverse_cons, List.reverse_nil,
    List.nil_append, List.cons_append, List.takeWhile_cons, beq_iff_eq]
  split
  · simp
  · simp

theorem outcomes_concat (rs : List ObservedResult) (r : ObservedResult) :
    outcomes (rs ++ [r]) = outcomes rs ++ [r.succeeded] := by
  simp [outcomes]

variable {n : Nat} {b : Bool}

theorem replicate_concat :
    List.replicate (n + 1) b = List.replicate n b ++ [b] := List.replicate_succ'

variable {rs : List ObservedResult}

theorem le_trailing_iff :
    n ≤ trailing b rs ↔ ∃ pre, outcomes rs = pre ++ List.replicate n b := by
  induction rs using List.reverseRecOn generalizing n with
  | nil =>
    rw [trailing_nil]
    constructor
    · intro h
      obtain rfl : n = 0 := by omega
      exact ⟨[], rfl⟩
    · rintro ⟨pre, h⟩
      have := congrArg List.length h
      simp [outcomes] at this
      omega
  | append_singleton rs r ih =>
    cases n with
    | zero =>
      refine ⟨fun _ => ⟨outcomes (rs ++ [r]), ?_⟩, fun _ => Nat.zero_le _⟩
      rw [List.replicate_zero, List.append_nil]
    | succ n =>
    rw [trailing_concat, outcomes_concat, replicate_concat]
    constructor
    · intro h
      split at h
      · next hb =>
        obtain ⟨pre, hpre⟩ := ih.mp (by omega : n ≤ trailing b rs)
        exact ⟨pre, by rw [hpre, hb, List.append_assoc]⟩
      · omega
    · rintro ⟨pre, hpre⟩
      rw [← List.append_assoc] at hpre
      obtain ⟨hinit, hlast⟩ := List.append_inj' hpre rfl
      have hb : r.succeeded = b := by simpa using hlast
      rw [if_pos hb]
      have := ih.mpr ⟨pre, hinit⟩
      omega

/-- There is one run at the end, not two. -/
theorem trailing_zero (h : 0 < trailing b rs) :
    trailing (!b) rs = 0 := by
  rcases List.eq_nil_or_concat rs with rfl | ⟨init, r, rfl⟩
  · rfl
  · rw [List.concat_eq_append, trailing_concat] at h ⊢
    split at h
    · next hb => simp [hb]
    · omega

variable {r : ObservedResult}

theorem newest_concat :
    Newest (n + 1) b (rs ++ [r]) ↔ r.succeeded = b ∧ Newest n b rs := by
  simp only [Newest, List.length_append, List.length_singleton, List.reverse_append,
    List.reverse_cons, List.reverse_nil, List.nil_append, List.cons_append,
    List.take_succ_cons, List.forall_mem_cons, Nat.add_le_add_iff_right]
  exact and_left_comm

theorem newest_iff :
    Newest n b rs ↔ n ≤ trailing b rs := by
  induction rs using List.reverseRecOn generalizing n with
  | nil => simp +contextual [Newest, trailing_nil]
  | append_singleton rs r ih =>
    cases n with
    | zero => simp [Newest]
    | succ n =>
    rw [newest_concat, trailing_concat, ih]
    split
    · next hb => simp [hb]
    · next hb => simp [hb]

/-! ## The counters -/

/-- The failure counter is the run of failures at the end, up to the limit. -/
theorem failures_eq (lim : Limits) (rs : List ObservedResult) :
    (observation lim rs).2.1 = min (trailing false rs) lim.failure := by
  induction rs using List.reverseRecOn with
  | nil => simp [observation, Counters.start, trailing_nil]
  | append_singleton rs r ih =>
    rw [observation_concat, trailing_concat, advance, advanceObservedState, ih]
    cases hr : r.succeeded with
    | true =>
      simp only [if_true]
      split
      · split
        · simp
        · simp
      · simp
    | false =>
    simp only [Bool.false_eq_true, if_false, if_true]
    split
    · split
      · simp only; omega
      · simp only; omega
    · split
      · simp only; omega
      · simp only; omega

/-- A failure looks at the run it ends, and at nothing else. -/
theorem observation_failure (hr : r.succeeded = false) : observation lim (rs ++ [r]) =
      if lim.failure ≤ trailing false (rs ++ [r]) then (.down, lim.failure, 0)
      else (.degraded, trailing false (rs ++ [r]), 0) := by
  rw [observation_concat, trailing_concat, if_pos hr, advance, advanceObservedState,
    failures_eq, hr]
  simp only [Bool.false_eq_true, if_false]
  split
  · next hlt =>
    have hmin : min (trailing false rs) lim.failure = trailing false rs := by omega
    rw [hmin]
  · next hge =>
    rw [if_pos (by omega), if_pos (by omega)]

/-- A success looks at the state, and at the successes so far. -/
theorem observation_success (hr : r.succeeded = true) : observation lim (rs ++ [r]) =
      if (observation lim rs).1 = .down ∧ (observation lim rs).2.2 + 1 < lim.recovery
      then (.down, 0, (observation lim rs).2.2 + 1) else (.healthy, 0, 0) := by
  rw [observation_concat, advance, advanceObservedState, if_pos hr]
  split
  · next hdown =>
    split
    · next hge => rw [if_neg (by simp only [hdown, true_and]; omega)]
    · next hlt => rw [if_pos ⟨hdown, by omega⟩]
  · next hup => rw [if_neg fun h => hup h.1]

/-- Down means a full run of failures, and behind it fewer successes than
recovery takes. -/
theorem observation_down (hr : 1 ≤ lim.recovery) (h : (observation lim rs).1 = .down) :
    (observation lim rs).2.2 < lim.recovery ∧
      ∃ pre, outcomes rs = pre ++ List.replicate lim.failure false ++
        List.replicate (observation lim rs).2.2 true := by
  induction rs using List.reverseRecOn with
  | nil => simp [observation, Counters.start] at h
  | append_singleton rs r ih =>
    cases hs : r.succeeded with
    | false =>
      rw [observation_failure hs] at h ⊢
      split at h
      · next hfull =>
        rw [if_pos hfull]
        obtain ⟨pre, hpre⟩ := le_trailing_iff.mp hfull
        exact ⟨hr, pre, by simpa using hpre⟩
      · simp at h
    | true =>
    rw [observation_success hs] at h ⊢
    split at h
    · next hcond =>
      rw [if_pos hcond]
      obtain ⟨-, pre, hpre⟩ := ih hcond.1
      refine ⟨hcond.2, pre, ?_⟩
      rw [outcomes_concat, hpre, hs, replicate_concat, List.append_assoc]
    · simp at h

/-- The converse: the counters after such a sequence. -/
theorem observation_of_shape (hf : 1 ≤ lim.failure) {k : Nat} (hk : k < lim.recovery)
    {pre : List Bool} (h : outcomes rs = pre ++ List.replicate lim.failure false ++
      List.replicate k true) :
    (observation lim rs).1 = .down ∧ (observation lim rs).2.2 = k := by
  induction k generalizing rs with
  | zero =>
    rw [List.replicate_zero, List.append_nil] at h
    have hfull : lim.failure ≤ trailing false rs := le_trailing_iff.mpr ⟨pre, h⟩
    rcases List.eq_nil_or_concat rs with rfl | ⟨init, r, rfl⟩
    · rw [trailing_nil] at hfull
      omega
    · rw [List.concat_eq_append] at hfull ⊢
      have hs : r.succeeded = false := by
        rw [trailing_concat] at hfull
        split at hfull
        · next hs => exact hs
        · omega
      rw [observation_failure hs, if_pos hfull]
      exact ⟨rfl, rfl⟩
  | succ k ih =>
    rw [replicate_concat, ← List.append_assoc] at h
    rcases List.eq_nil_or_concat rs with rfl | ⟨init, r, rfl⟩
    · simp [outcomes] at h
    · rw [List.concat_eq_append] at h ⊢
      rw [outcomes_concat] at h
      obtain ⟨hinit, hlast⟩ := List.append_inj' h rfl
      have hs : r.succeeded = true := by simpa using hlast
      obtain ⟨hdown, hcount⟩ := ih (by omega) hinit
      rw [observation_success hs, hcount, if_pos ⟨hdown, hk⟩]
      exact ⟨rfl, rfl⟩

/-! ## Leaving a monitor that is down -/

/-- A full run of failures, some successes but not enough, and a failure. With
a limit of one, the last failure is a full run by itself. -/
def Relapse (lim : Limits) (rs : List ObservedResult) : Prop :=
  2 ≤ lim.failure ∧ ∃ k, 1 ≤ k ∧ k < lim.recovery ∧
    List.replicate lim.failure false ++ List.replicate k true ++ [false] <:+: outcomes rs

theorem Relapse.mono {rs' : List ObservedResult} (h : Relapse lim rs) (hrs : rs <+: rs') :
    Relapse lim rs' := by
  obtain ⟨hf, k, hk, hk', hinfix⟩ := h
  refine ⟨hf, k, hk, hk', hinfix.trans ?_⟩
  exact (hrs.map ObservedResult.succeeded).isInfix

/-- A monitor that is down stays down, recovers for good, or relapses. -/
theorem down_concat (hr : 1 ≤ lim.recovery) (hdown : (observation lim rs).1 = .down) :
    (observation lim (rs ++ [r])).1 = .down ∨
    (observation lim (rs ++ [r])).1 = .healthy ∧ Newest lim.recovery true (rs ++ [r]) ∨
    Relapse lim (rs ++ [r]) := by
  obtain ⟨hlt, pre, hshape⟩ := observation_down hr hdown
  cases hs : r.succeeded with
  | true =>
    rw [observation_success hs]
    by_cases hmore : (observation lim rs).2.2 + 1 < lim.recovery
    · rw [if_pos ⟨hdown, hmore⟩]
      exact .inl rfl
    rw [if_neg fun h => hmore h.2]
    refine .inr (.inl ⟨rfl, newest_iff.mpr (le_trailing_iff.mpr ?_)⟩)
    have hcount : lim.recovery = (observation lim rs).2.2 + 1 := by omega
    refine ⟨pre ++ List.replicate lim.failure false, ?_⟩
    rw [outcomes_concat, hshape, hs, hcount, replicate_concat, List.append_assoc]
  | false =>
    rw [observation_failure hs]
    by_cases hfull : lim.failure ≤ trailing false (rs ++ [r])
    · rw [if_pos hfull]
      exact .inl rfl
    -- the run of failures was broken, so there were successes
    right; right
    have hsome : 1 ≤ (observation lim rs).2.2 := by
      by_contra hzero
      have hnone : (observation lim rs).2.2 = 0 := by omega
      rw [hnone, List.replicate_zero, List.append_nil] at hshape
      have := le_trailing_iff.mpr ⟨pre, hshape⟩
      rw [trailing_concat, if_pos hs] at hfull
      omega
    have htwo : 2 ≤ lim.failure := by
      rw [trailing_concat, if_pos hs] at hfull
      omega
    refine ⟨htwo, _, hsome, hlt, pre, [], ?_⟩
    rw [outcomes_concat, hshape, hs]
    simp

/-- What the claim of the documentation is: a monitor leaves the state down
only with a result that completes its recovery. -/
def LeavesDownRecovered (lim : Limits) (rs : List ObservedResult) : Prop :=
  ∀ pre r, pre ++ [r] <+: rs → (observation lim pre).1 = .down →
    (observation lim (pre ++ [r])).1 ≠ .down → Newest lim.recovery true (pre ++ [r])

/-- A relapse breaks it: the failure makes the monitor a degraded one. -/
theorem Relapse.leaves (hf : 1 ≤ lim.failure) (h : Relapse lim rs) :
    ∃ pre r, pre ++ [r] <+: rs ∧ (observation lim pre).1 = .down ∧
      r.succeeded = false ∧ (observation lim (pre ++ [r])).1 = .degraded := by
  obtain ⟨htwo, k, hk, hk', a, b, hsplit⟩ := h
  -- cut the results where the outcomes are cut
  have hcut : rs.map ObservedResult.succeeded =
      (a ++ List.replicate lim.failure false ++ List.replicate k true) ++
        ([false] ++ b) := by
    have : outcomes rs = _ := hsplit.symm
    rw [outcomes] at this
    rw [this]
    simp
  obtain ⟨pre, rest, rfl, hpre, hrest⟩ := List.map_eq_append_iff.mp hcut
  obtain ⟨one, rest', rfl, hone, -⟩ := List.map_eq_append_iff.mp hrest
  obtain ⟨r, rfl, hs⟩ := List.map_eq_singleton_iff.mp hone
  refine ⟨pre, r, ⟨rest', by simp⟩, (observation_of_shape hf hk' hpre).1, hs, ?_⟩
  have hnone : trailing false pre = 0 := by
    refine trailing_zero (b := true) ?_
    exact Nat.lt_of_lt_of_le hk (le_trailing_iff.mpr ⟨_, hpre⟩)
  rw [observation_failure hs, if_neg]
  rw [trailing_concat, if_pos hs]
  omega

theorem leavesDownRecovered_iff (hf : 1 ≤ lim.failure) (hr : 1 ≤ lim.recovery)
    (rs : List ObservedResult) :
    LeavesDownRecovered lim rs ↔ ¬ Relapse lim rs := by
  constructor
  · intro hlaw hrel
    obtain ⟨pre, r, hprefix, hdown, hs, hdeg⟩ := hrel.leaves hf
    have hnew := hlaw pre r hprefix hdown (by simp [hdeg])
    rw [newest_iff, trailing_concat, if_neg (by simp [hs])] at hnew
    omega
  · intro hno pre r hprefix hdown hleft
    rcases down_concat hr (r := r) hdown with hstay | ⟨-, hnew⟩ | hrel
    · exact absurd hstay hleft
    · exact hnew
    · exact absurd (hrel.mono hprefix) hno

/-! ## The run of failures at the end -/

/-- The unbroken run of failures that ends at the newest result. -/
def failureRun (rs : List ObservedResult) : List ObservedResult :=
  (rs.reverse.takeWhile fun r => r.succeeded == false).reverse

theorem failureRun_suffix (rs : List ObservedResult) : failureRun rs <:+ rs := by
  have hprefix := List.takeWhile_prefix (l := rs.reverse)
    fun r : ObservedResult => r.succeeded == false
  have hsuffix := List.reverse_suffix.mpr hprefix
  rwa [List.reverse_reverse] at hsuffix

/-- The newest results, within the run. -/
theorem getElem?_failureRun (hn : n < trailing false rs) :
    ∃ r, rs.reverse[n]? = some r ∧ r ∈ failureRun rs := by
  obtain ⟨rest, hrest⟩ := List.takeWhile_prefix (l := rs.reverse)
    fun r : ObservedResult => r.succeeded == false
  have hget := List.getElem?_eq_getElem (l := rs.reverse.takeWhile fun r => r.succeeded == false) hn
  refine ⟨_, ?_, List.mem_reverse.mpr (List.getElem_mem hn)⟩
  conv_lhs => rw [← hrest]
  rw [List.getElem?_append_left hn]
  exact hget

theorem scheduledAt_le_of_key {r' : ObservedResult} (h : r.key ≤ r'.key) :
    r.scheduledAt ≤ r'.scheduledAt := by
  rw [ObservedResult.key, ObservedResult.key, orderKey, orderKey, Prod.Lex.toLex_le_toLex] at h
  rcases h with h | h
  · exact le_of_lt h
  · exact le_of_eq h.1

/-- The oldest failure of the run comes first. -/
theorem head_failureRun {first : ObservedResult} (hasc : Ascending ObservedResult.key rs)
    (hfirst : (failureRun rs).head? = some first) (hr : r ∈ failureRun rs) :
    first.scheduledAt ≤ r.scheduledAt := by
  have hrun : Ascending ObservedResult.key (failureRun rs) :=
    List.Pairwise.sublist (failureRun_suffix rs).sublist hasc
  obtain ⟨rest, hrest⟩ := List.head?_eq_some_iff.mp hfirst
  rw [hrest] at hrun hr
  rcases List.mem_cons.mp hr with rfl | hr
  · exact le_refl _
  · exact scheduledAt_le_of_key (le_of_lt ((List.pairwise_cons.mp hrun).1 r hr))

/-- What the opening of an incident should say: the newest results, as many as
the threshold, are failures, and the incident started with the first failure of
their run. -/
def OpenedByRun (threshold : Nat) (rs : List ObservedResult) (startedAt : Time) :
    Prop :=
  Newest threshold false rs ∧ (failureRun rs).head?.map ObservedResult.scheduledAt = some startedAt

/-- The newest result is a failure, and no failure of its run is older than the
last one that counts for the threshold. -/
def Prompt (threshold : Nat) (rs : List ObservedResult) : Prop :=
  (∃ newest, rs.getLast? = some newest ∧ newest.succeeded = false) ∧
    ∀ r ∈ failureRun rs, ∀ oldest, rs.reverse[threshold - 1]? = some oldest →
      oldest.scheduledAt ≤ r.scheduledAt

/-- A newest result that failed leaves a monitor that is down only with a full
run of failures. -/
theorem full_run (hdown : (observation lim rs).1 = .down)
    (hlast : ∃ newest, rs.getLast? = some newest ∧ newest.succeeded = false) :
    lim.failure ≤ trailing false rs := by
  obtain ⟨newest, hnewest, hs⟩ := hlast
  obtain ⟨init, rfl⟩ := List.getLast?_eq_some_iff.mp hnewest
  rw [observation_failure hs] at hdown
  split at hdown
  · next h => exact h
  · simp at hdown

theorem openedByRun_iff (hf : 1 ≤ lim.failure) {startedAt : Time} (now : Time)
    (hasc : Ascending ObservedResult.key rs) (hdown : (observation lim rs).1 = .down)
    (hstart : startedAt = ((rs.reverse.take lim.failure).map
      ObservedResult.scheduledAt).getLast?.getD now) :
    OpenedByRun lim.failure rs startedAt ↔ Prompt lim.failure rs := by
  -- with a full run, the start is that of the last failure that counts
  have holdest : lim.failure ≤ trailing false rs → ∃ oldest first,
      rs.reverse[lim.failure - 1]? = some oldest ∧ oldest ∈ failureRun rs ∧
      (failureRun rs).head? = some first ∧ startedAt = oldest.scheduledAt := by
    intro hfull
    obtain ⟨oldest, hget, hmem⟩ :=
      getElem?_failureRun (show lim.failure - 1 < trailing false rs by omega)
    cases hhead : (failureRun rs).head? with
    | none =>
      rw [List.head?_eq_none_iff] at hhead
      rw [hhead] at hmem
      cases hmem
    | some first =>
    refine ⟨oldest, first, hget, hmem, rfl, ?_⟩
    rw [hstart, List.getLast?_map, List.getLast?_take, if_neg (by omega), hget]
    rfl
  constructor
  · rintro ⟨hnew, hhead⟩
    rw [newest_iff] at hnew
    obtain ⟨oldest, first, hget, hmem, hfirst, heq⟩ := holdest hnew
    refine ⟨?_, fun r hr oldest' hget' => ?_⟩
    · rcases List.eq_nil_or_concat rs with rfl | ⟨init, r, rfl⟩
      · rw [trailing_nil] at hnew
        omega
      · rw [List.concat_eq_append] at hnew ⊢
        refine ⟨r, by simp, ?_⟩
        rw [trailing_concat] at hnew
        split at hnew
        · next hs => exact hs
        · omega
    · rw [hget] at hget'
      cases hget'
      rw [hfirst, Option.map_some, Option.some.injEq] at hhead
      rw [← heq, ← hhead]
      exact head_failureRun hasc hfirst hr
  · rintro ⟨hlast, hprompt⟩
    have hfull := full_run hdown hlast
    obtain ⟨oldest, first, hget, hmem, hfirst, heq⟩ := holdest hfull
    refine ⟨newest_iff.mpr hfull, ?_⟩
    have hle := head_failureRun hasc hfirst hmem
    have hge := hprompt first (List.mem_of_mem_head? hfirst) oldest hget
    rw [hfirst, Option.map_some, heq, le_antisymm hle hge]

end WatchTrace.Spec
