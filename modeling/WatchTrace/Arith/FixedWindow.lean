import Mathlib.Data.List.Basic

/-!
# Counting in fixed windows

A counter that admits so many events in a window. A window begins with the first
event that finds no window, or finds that the last one has run its length; from
then on events are counted, and turned away when there are too many. An event
that is turned away leaves no trace.

The times do not go back. Then windows never overlap, no two begin at the same
time, and each of them admits no more than its limit.
-/

namespace WatchTrace.Arith

/-- The window in progress. -/
structure Window where
  started : Int
  count : Int

variable {stored : Option Window}

variable {now : Int} {rest : List Int}

namespace Window

/-- The window an event falls into. -/
def current (length now : Int) : Option Window → Window
  | none => ⟨now, 0⟩
  | some w => if length ≤ now - w.started then ⟨now, 0⟩ else w

/-- The events that are admitted, each with the beginning of its window. -/
def admitted (limit length : Int) : Option Window → List Int → List (Int × Int)
  | _, [] => []
  | stored, now :: rest =>
    if limit ≤ (current length now stored).count then admitted limit length stored rest
    else (now, (current length now stored).started) :: admitted limit length
        (some ⟨(current length now stored).started, (current length now stored).count + 1⟩) rest

variable {limit length : Int}

/-- The window in progress began in the past and is not overdrawn. -/
structure Before (limit : Int) (stored : Option Window) (times : List Int) : Prop where
  past : ∀ w ∈ stored, ∀ t ∈ times, w.started ≤ t
  within : ∀ w ∈ stored, w.count ≤ limit
  sorted : times.Pairwise (· ≤ ·)

/-- How many events may still be admitted in the window that begins at `s`. -/
def room (limit : Int) (stored : Option Window) (s : Int) : Int :=
  match stored with
  | none => limit
  | some w => if s < w.started then 0 else if s = w.started then limit - w.count else limit

theorem room_nonneg {times : List Int} (hlimit : 0 ≤ limit) (h : Before limit stored times)
    (s : Int) : 0 ≤ room limit stored s := by
  unfold room
  split
  · exact hlimit
  next w =>
  have hcount := h.within w rfl
  split
  · omega
  · split <;> omega

/-- A new window begins when the last one has run its length. -/
theorem current_cases (length now : Int) (stored : Option Window) :
    (current length now stored = ⟨now, 0⟩ ∧ ∀ w ∈ stored, length ≤ now - w.started) ∨
      (stored = some (current length now stored) ∧
        now - (current length now stored).started < length) := by
  cases stored with
  | none => exact .inl ⟨rfl, nofun⟩
  | some w =>
  by_cases hover : length ≤ now - w.started
  · refine .inl ⟨if_pos hover, fun w' hw' => ?_⟩
    cases hw'
    exact hover
  · have hsame : current length now (some w) = w := if_neg hover
    rw [hsame]
    exact .inr ⟨rfl, by omega⟩

/-- An event that is admitted uses up the room of its own window, and adds none to
any other. -/
theorem room_admitted (hlength : 0 < length) (hlimit : 0 ≤ limit)
    (h : Before limit stored (now :: rest))
    (hroom : ¬ limit ≤ (current length now stored).count) (s : Int) :
    room limit (some ⟨(current length now stored).started,
        (current length now stored).count + 1⟩) s +
      (if (current length now stored).started = s then 1 else 0) ≤ room limit stored s := by
  have hnonneg := room_nonneg hlimit h s
  have hcases := current_cases length now stored
  generalize current length now stored = c at hroom hcases ⊢
  rcases hcases with ⟨rfl, hover⟩ | ⟨rfl, -⟩
  · -- a new window, which begins after the old one
    cases stored with
    | none =>
      simp only [room]
      repeat' split
      all_goals omega
    | some w =>
    have hover := hover w rfl
    have hcount := h.within w rfl
    simp only [room] at hroom hnonneg ⊢
    repeat' split
    all_goals omega
  · simp only [room]
    repeat' split
    all_goals omega

theorem Before.admitted (h : Before limit stored (now :: rest))
    (hroom : ¬ limit ≤ (current length now stored).count) :
    Before limit (some ⟨(current length now stored).started,
      (current length now stored).count + 1⟩) rest := by
  obtain ⟨hle, hsorted⟩ := List.pairwise_cons.mp h.sorted
  refine ⟨fun w hw t ht => ?_, fun w hw => ?_, hsorted⟩
  · cases hw
    have ht' := hle t ht
    rcases current_cases length now stored with ⟨hnew, -⟩ | ⟨hold, -⟩
    · rw [hnew]
      exact ht'
    · exact h.past _ hold t (List.mem_cons_of_mem _ ht)
  · cases hw
    simp only
    omega

/-- No window admits more than its limit. -/
theorem length_admitted_le (hlength : 0 < length) (hlimit : 0 ≤ limit) (s : Int) :
    ∀ {times : List Int} {stored : Option Window}, Before limit stored times →
      (((admitted limit length stored times).filter fun e => e.2 = s).length : Int) ≤
        room limit stored s := by
  intro times
  induction times with
  | nil =>
    intro stored h
    exact room_nonneg hlimit h s
  | cons now rest ih =>
    intro stored h
    unfold admitted
    split
    · exact ih ⟨fun w hw t ht => h.past w hw t (List.mem_cons_of_mem _ ht), h.within,
        (List.pairwise_cons.mp h.sorted).2⟩
    next hroom =>
    have hused := room_admitted hlength hlimit h hroom s
    have hrest := ih (h.admitted hroom)
    rw [List.filter_cons]
    split
    · next hs =>
      rw [if_pos (of_decide_eq_true hs)] at hused
      rw [List.length_cons, Int.natCast_add]
      omega
    · next hs =>
      rw [if_neg fun heq => hs (decide_eq_true heq)] at hused
      omega

/-- An event lies in its window. -/
theorem admitted_within (hlength : 0 < length) :
    ∀ {times : List Int} {stored : Option Window}, Before limit stored times →
      ∀ e ∈ admitted limit length stored times, e.2 ≤ e.1 ∧ e.1 < e.2 + length := by
  intro times
  induction times with
  | nil =>
    intro stored _ e he
    cases he
  | cons now rest ih =>
    intro stored h e he
    unfold admitted at he
    split at he
    · exact ih ⟨fun w hw t ht => h.past w hw t (List.mem_cons_of_mem _ ht), h.within,
        (List.pairwise_cons.mp h.sorted).2⟩ e he
    next hroom =>
    rcases List.mem_cons.mp he with rfl | he
    · rcases current_cases length now stored with ⟨hnew, -⟩ | ⟨hold, hlast⟩
      · rw [hnew]
        simp only
        omega
      · have hpast := h.past _ hold now List.mem_cons_self
        simp only
        omega
    · exact ih (h.admitted hroom) e he

/-- Another window than the one in progress begins when that has run its length. -/
theorem started_of_admitted (hlength : 0 ≤ length) :
    ∀ {times : List Int} (w : Window), ∀ e ∈ admitted limit length (some w) times,
      e.2 = w.started ∨ w.started + length ≤ e.2 := by
  intro times
  induction times with
  | nil =>
    intro w e he
    cases he
  | cons now rest ih =>
    intro w e he
    unfold admitted at he
    split at he
    · exact ih w e he
    have hstart : (current length now (some w)).started = w.started ∨
        w.started + length ≤ (current length now (some w)).started := by
      rcases current_cases length now (some w) with ⟨hnew, hover⟩ | ⟨hold, -⟩
      · have := hover w rfl
        rw [hnew]
        exact .inr (by simp only; omega)
      · exact .inl (by rw [← Option.some.inj hold])
    rcases List.mem_cons.mp he with rfl | he
    · exact hstart
    · have := ih _ e he
      simp only at this
      omega

/-- Two windows are the same, or begin a length apart. -/
theorem admitted_apart (hlength : 0 ≤ length) : ∀ {times : List Int} {stored : Option Window},
      ∀ e ∈ admitted limit length stored times, ∀ e' ∈ admitted limit length stored times,
        e'.2 = e.2 ∨ e.2 + length ≤ e'.2 ∨ e'.2 + length ≤ e.2 := by
  intro times
  induction times with
  | nil =>
    intro stored e he
    cases he
  | cons now rest ih =>
    intro stored
    unfold admitted
    split
    · exact ih
    have hlater : ∀ e ∈ admitted limit length (some ⟨(current length now stored).started,
        (current length now stored).count + 1⟩) rest,
        e.2 = (current length now stored).started ∨
          (current length now stored).started + length ≤ e.2 :=
      started_of_admitted hlength ⟨(current length now stored).started, _⟩
    intro e he e' he'
    rcases List.mem_cons.mp he with rfl | he
    · rcases List.mem_cons.mp he' with rfl | he'
      · exact .inl rfl
      · exact (hlater e' he').imp_right .inl
    · rcases List.mem_cons.mp he' with rfl | he'
      · exact (hlater e he).imp Eq.symm .inr
      · exact ih e he e' he'

variable {times : List Int}

/-- Windows that begin less than a length apart are one window. -/
theorem countP_started_le (hlength : 0 < length) (hlimit : 0 ≤ limit)
    (h : Before limit none times) (a : Int) :
    ((admitted limit length none times).countP fun e => a ≤ e.2 ∧ e.2 < a + length) ≤ limit := by
  rw [List.countP_eq_length_filter]
  cases hes : (admitted limit length none times).filter fun e => a ≤ e.2 ∧ e.2 < a + length with
  | nil => exact hlimit
  | cons e es =>
  have hmem : ∀ e' ∈ e :: es, e' ∈ admitted limit length none times ∧ a ≤ e'.2 ∧
      e'.2 < a + length := by
    intro e' he'
    rw [← hes] at he'
    simpa using he'
  have hsame : ∀ e' ∈ e :: es, e'.2 = e.2 := by
    intro e' he'
    have hapart := admitted_apart (Int.le_of_lt hlength) e (hmem e List.mem_cons_self).1 e' (hmem e' he').1
    have := (hmem e List.mem_cons_self).2
    have := (hmem e' he').2
    omega
  have hle : (e :: es).length ≤
      ((admitted limit length none times).filter fun e' => e'.2 = e.2).length := by
    rw [← hes, ← List.countP_eq_length_filter, ← List.countP_eq_length_filter]
    refine List.countP_mono_left fun e' he' hin => ?_
    exact decide_eq_true (hsame e' (hes ▸ List.mem_filter.2 ⟨he', hin⟩))
  have := length_admitted_le hlength hlimit e.2 h
  simp only [room] at this
  omega

/-- **Any interval of the length of a window** holds no more than two windows
admit. -/
theorem countP_interval_le (hlength : 0 < length) (hlimit : 0 ≤ limit)
    (h : Before limit none times) (a : Int) :
    ((admitted limit length none times).countP fun e => a ≤ e.1 ∧ e.1 < a + length) ≤
      2 * limit := by
  have hlate := countP_started_le hlength hlimit h a
  have hearly := countP_started_le hlength hlimit h (a - length)
  have hsplit : ∀ es : List (Int × Int), (∀ e ∈ es, e.2 ≤ e.1 ∧ e.1 < e.2 + length) →
      (es.countP fun e => a ≤ e.1 ∧ e.1 < a + length) ≤
        (es.countP fun e => a ≤ e.2 ∧ e.2 < a + length) +
          es.countP fun e => a - length ≤ e.2 ∧ e.2 < a - length + length := by
    intro es hes
    induction es with
    | nil => exact Nat.zero_le _
    | cons e es ih =>
      obtain ⟨he, hes⟩ := List.forall_mem_cons.1 hes
      have := ih hes
      simp only [List.countP_cons, decide_eq_true_eq]
      repeat' split
      all_goals omega
  have := hsplit _ (admitted_within hlength h)
  omega

end Window

end WatchTrace.Arith
