import Mathlib.Data.List.Basic
import Mathlib.Order.Basic

/-!
# Timelines

A timeline is a list of spans: half-open intervals, of which some have no end
yet. It is in order if no span ends before it starts and no instant lies in
two of them. Two things happen to it: what is open is closed at some instant,
and a new span is opened at that instant. Both keep the order as long as the
instant is no earlier than anything on record, and that is the only thing to
know about it.
-/

namespace WatchTrace.Arith

variable {T : Type}

/-- From `start` on, up to but not including `stop`. -/
structure Span (T : Type) where
  start : T
  stop : Option T
  deriving DecidableEq

namespace Span

/-- The span, ended at `now` if it had no end. -/
def closed (now : T) (s : Span T) : Span T :=
  match s.stop with
  | none => { s with stop := some now }
  | some _ => s

theorem closed_stop (now : T) (s : Span T) : ∃ e, (s.closed now).stop = some e ∧
    (s.stop = none ∧ e = now ∨ s.stop = some e) := by
  unfold closed
  cases h : s.stop with
  | none => exact ⟨now, rfl, .inl ⟨rfl, rfl⟩⟩
  | some e => exact ⟨e, h, .inr rfl⟩

variable [Preorder T]

/-- The instant lies in the span. -/
def Covers (s : Span T) (t : T) : Prop := s.start ≤ t ∧ ∀ e, s.stop = some e → t < e

/-- No instant lies in both. -/
def Apart (s s' : Span T) : Prop := ∀ t, ¬(s.Covers t ∧ s'.Covers t)

/-- A span that has been closed covers no more than before. -/
theorem Covers.of_closed {now t : T} {s : Span T} (h : (s.closed now).Covers t) :
    s.Covers t := by
  unfold closed at h
  cases hs : s.stop with
  | none =>
    rw [hs] at h
    exact ⟨h.1, fun e he => by rw [hs] at he; cases he⟩
  | some e =>
    rw [hs] at h
    exact h

end Span

variable [Preorder T]

/-- Nothing on record is later than `now`. -/
def Settled (now : T) (l : List (Span T)) : Prop :=
  ∀ s ∈ l, s.start ≤ now ∧ ∀ e, s.stop = some e → e ≤ now

instance [DecidableLE T] (now : T) (l : List (Span T)) : Decidable (Settled now l) :=
  inferInstanceAs (Decidable (∀ s ∈ l, s.start ≤ now ∧ ∀ e, s.stop = some e → e ≤ now))

/-- The spans are in order. -/
structure Timeline (l : List (Span T)) : Prop where
  ordered : ∀ s ∈ l, ∀ e, s.stop = some e → s.start ≤ e
  apart : l.Pairwise Span.Apart

namespace Timeline

variable {l : List (Span T)} {now : T}

theorem close (h : Timeline l) (hnow : Settled now l) : Timeline (l.map (Span.closed now)) where
  ordered := by
    intro s' hs' e he
    obtain ⟨s, hs, rfl⟩ := List.mem_map.mp hs'
    obtain ⟨e', he', hor⟩ := s.closed_stop now
    have hstart : (s.closed now).start = s.start := by
      unfold Span.closed
      cases s.stop <;> rfl
    rw [he] at he'
    cases he'
    rw [hstart]
    rcases hor with ⟨-, rfl⟩ | hold
    · exact (hnow s hs).1
    · exact h.ordered s hs e hold
  apart := by
    rw [List.pairwise_map]
    exact h.apart.imp fun hapart t ht => hapart t ⟨ht.1.of_closed, ht.2.of_closed⟩

/-- Everything is over, so a new span meets nothing. -/
theorem extend (h : Timeline l) (hover : ∀ s ∈ l, ∃ e, s.stop = some e ∧ e ≤ now) :
    Timeline (l ++ [⟨now, none⟩]) where
  ordered := by
    intro s hs e he
    rcases List.mem_append.mp hs with hs | hs
    · exact h.ordered s hs e he
    · rw [List.mem_singleton] at hs
      subst hs
      cases he
  apart := by
    refine List.pairwise_append.mpr ⟨h.apart, List.pairwise_singleton _ _, ?_⟩
    intro s hs s' hs' t ht
    rw [List.mem_singleton] at hs'
    subst hs'
    obtain ⟨e, he, hle⟩ := hover s hs
    have hlt : t < e := ht.1.2 e he
    have hge : now ≤ t := ht.2.1
    exact absurd (hle.trans hge) (not_le_of_gt hlt)

/-- After everything was closed at an instant that is not too early. -/
theorem over_of_closed (hnow : Settled now l) :
    ∀ s ∈ l.map (Span.closed now), ∃ e, s.stop = some e ∧ e ≤ now := by
  intro s' hs'
  obtain ⟨s, hs, rfl⟩ := List.mem_map.mp hs'
  obtain ⟨e, he, hor⟩ := s.closed_stop now
  refine ⟨e, he, ?_⟩
  rcases hor with ⟨-, rfl⟩ | hold
  · exact le_refl e
  · exact (hnow s hs).2 e hold

end Timeline

end WatchTrace.Arith
