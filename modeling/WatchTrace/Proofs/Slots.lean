import Mathlib.Algebra.BigOperators.Group.List.Basic
import Mathlib.Data.List.Perm.Basic
import WatchTrace.Model.Report
import WatchTrace.Proofs.Outbox

/-!
# Slots, hours and reports

Two queries generate the expected slots of a monitor: the hourly rollup for
one bucket and the report for any window. Each slot is the start of a minute or
so, each bound is a timestamp, and a series is cut off at both ends by
arithmetic on the bounds. That arithmetic is settled once, for one period:
its slots in a window are an interval of indices of one series. A window then
falls apart wherever it is cut, and a window of whole hours into its hours.

Timestamps of the server are whole microseconds. The last slot before a bound
is found by taking a microsecond off the bound, which is right for exactly that
reason.
-/

namespace WatchTrace.Proofs

open Tx Arith Model

/-- What the columns of `monitor_schedule_periods` and their `CHECK` constraints
promise. -/
structure Regular (p : SchedulePeriod) : Prop where
  interval : p.intervalSeconds ∈ [60, 120, 300, 600, 1800]
  first : p.startsAt ≤ p.firstSlotAt
  firstWhole : microsecond ∣ p.firstSlotAt
  endsWhole : ∀ endsAt, p.endsAt = some endsAt → microsecond ∣ endsAt

/-- One period is over when the other starts. -/
def NonOverlapping (p q : SchedulePeriod) : Prop :=
  (∃ endsAt, p.endsAt = some endsAt ∧ endsAt ≤ q.startsAt) ∨
    (∃ endsAt, q.endsAt = some endsAt ∧ endsAt ≤ p.startsAt)

/-! ## One period -/

section Period

variable {p : SchedulePeriod} {fromAt mid toAt slot : Int}

/-- The distance between slots. -/
abbrev stepOf (p : SchedulePeriod) : Int := p.intervalSeconds * second

/-- Where the slots of a period in a window end. -/
abbrev endIn (p : SchedulePeriod) (toAt : Int) : Int := min (p.endsAt.getD toAt) toAt

theorem Regular.step_pos (h : Regular p) : 0 < stepOf p := by
  have hinterval := h.interval
  simp only [List.mem_cons, List.not_mem_nil, or_false] at hinterval
  have hpos : 0 < p.intervalSeconds := by omega
  exact Int.mul_pos hpos (by decide)

theorem microsecond_dvd_step : microsecond ∣ stepOf p :=
  Int.dvd_mul_of_dvd_right (by decide)

theorem Regular.endIn_whole (h : Regular p) (hto : microsecond ∣ toAt) :
    microsecond ∣ endIn p toAt := by
  unfold endIn
  cases hends : p.endsAt with
  | none => simpa using hto
  | some endsAt =>
  rcases Int.le_total endsAt toAt with hle | hle
  · rw [Option.getD_some, Int.min_eq_left hle]
    exact h.endsWhole endsAt hends
  · rw [Option.getD_some, Int.min_eq_right hle]
    exact hto

/-- The slots of a period in a window, by their indices. -/
theorem Regular.slots_eq (h : Regular p) (hto : microsecond ∣ toAt) :
    p.slots fromAt toAt = points p.firstSlotAt (stepOf p) (index p.firstSlotAt (stepOf p) fromAt)
      (index p.firstSlotAt (stepOf p) (endIn p toAt)) := by
  have hstep := h.step_pos
  unfold SchedulePeriod.slots
  dsimp only
  split
  · next hguard =>
    have hstart : max 0 (ceilDiv (fromAt - p.firstSlotAt) (stepOf p)) =
        ((index p.firstSlotAt (stepOf p) fromAt : Nat) : Int) := by
      unfold index
      omega
    rw [hstart, generateSeries_eq_points hstep (by decide)
      (Int.dvd_sub (h.endIn_whole hto) h.firstWhole) microsecond_dvd_step]
    refine List.filter_eq_self.mpr ?_
    intro slot hslot
    obtain ⟨k, hk, hfrom, _⟩ := (mem_points_iff hstep).mp hslot
    have hfirst : p.firstSlotAt ≤ slot := by
      rw [hk]
      exact Int.le_add_of_nonneg_right (Int.mul_nonneg (Int.natCast_nonneg k) (Int.le_of_lt hstep))
    have hstarts : p.startsAt ≤ slot := Int.le_trans h.first hfirst
    exact decide_eq_true (Int.max_le.mpr ⟨hfrom, hstarts⟩)
  · next hguard =>
    -- the series is empty anyway
    refine (points_eq_nil ?_).symm
    by_cases hstarts : p.startsAt < toAt
    · have hends : p.endsAt.getD toAt ≤ fromAt :=
        Int.not_lt.mp fun hlt => hguard ⟨hstarts, hlt⟩
      exact index_mono hstep (Int.le_trans (Int.min_le_left _ _) hends)
    have hlate : endIn p toAt ≤ p.firstSlotAt + (0 : Nat) * stepOf p := by
      have h₁ : endIn p toAt ≤ toAt := Int.min_le_right _ _
      have h₂ : toAt ≤ p.startsAt := Int.not_lt.mp hstarts
      have h₃ : endIn p toAt ≤ p.firstSlotAt :=
        Int.le_trans h₁ (Int.le_trans h₂ h.first)
      simpa using h₃
    exact Nat.le_trans ((index_le_iff hstep).mpr hlate) (Nat.zero_le _)

theorem Regular.mem_slots (h : Regular p) (hto : microsecond ∣ toAt) : slot ∈ p.slots fromAt toAt ↔
      ∃ k : Nat, slot = p.firstSlotAt + k * stepOf p ∧ fromAt ≤ slot ∧
        slot < endIn p toAt := by
  rw [h.slots_eq hto]
  exact mem_points_iff h.step_pos

/-- A window can be cut anywhere. -/
theorem Regular.slots_append (h : Regular p) (hmid : microsecond ∣ mid)
    (hto : microsecond ∣ toAt) (h₁ : fromAt ≤ mid) (h₂ : mid ≤ toAt) :
    p.slots fromAt mid ++ p.slots mid toAt = p.slots fromAt toAt := by
  have hstep := h.step_pos
  rw [h.slots_eq hmid, h.slots_eq hto, h.slots_eq hto]
  by_cases hends : mid ≤ p.endsAt.getD mid
  · have hmid' : endIn p mid = mid := Int.min_eq_right hends
    have hle : mid ≤ endIn p toAt := by
      unfold endIn
      cases hp : p.endsAt with
      | none => simpa using h₂
      | some endsAt =>
        rw [hp] at hends
        exact Int.le_min.mpr ⟨hends, h₂⟩
    rw [hmid']
    exact points_append (index_mono hstep h₁) (index_mono hstep hle)
  · -- the period is over before the cut, so the second part is empty
    obtain ⟨endsAt, hp, hlt⟩ : ∃ endsAt, p.endsAt = some endsAt ∧ endsAt < mid := by
      cases hp : p.endsAt with
      | none =>
        rw [hp] at hends
        exact absurd (Int.le_refl mid) hends
      | some endsAt =>
        rw [hp] at hends
        exact ⟨endsAt, rfl, Int.not_le.mp hends⟩
    have hend : ∀ t, mid ≤ t → endIn p t = endsAt := by
      intro t ht
      unfold endIn
      rw [hp, Option.getD_some]
      exact Int.min_eq_left (Int.le_trans (Int.le_of_lt hlt) ht)
    rw [hend mid (Int.le_refl mid), hend toAt h₂]
    rw [points_eq_nil (index_mono hstep (Int.le_of_lt hlt)), List.append_nil]

theorem Regular.nodup_slots (h : Regular p) (hto : microsecond ∣ toAt) :
    (p.slots fromAt toAt).Nodup := by
  rw [h.slots_eq hto]
  exact nodup_points h.step_pos

end Period

/-! ## One monitor -/

variable {p : SchedulePeriod}

section Monitor

variable {c : Core} {m : Uuid} {fromAt mid toAt slot : Int}

/-- The periods of a monitor are as the schema has them. -/
def RegularPeriods (c : Core) (m : Uuid) : Prop :=
  ∀ p ∈ c.periods, p.monitorId = m → Regular p

/-- Its periods do not overlap. -/
def DisjointPeriods (c : Core) (m : Uuid) : Prop :=
  (c.periods.filter fun p => p.monitorId == m).Pairwise NonOverlapping

theorem RegularPeriods.of_mem (h : RegularPeriods c m)
    (hp : p ∈ c.periods.filter fun p => p.monitorId == m) : Regular p := by
  obtain ⟨hmem, hid⟩ := List.mem_filter.mp hp
  exact h p hmem (beq_iff_eq.mp hid)

theorem RegularPeriods.slots_perm (h : RegularPeriods c m) (hmid : microsecond ∣ mid)
    (hto : microsecond ∣ toAt) (h₁ : fromAt ≤ mid) (h₂ : mid ≤ toAt) :
    (c.expectedSlots m fromAt mid ++ c.expectedSlots m mid toAt).Perm
      (c.expectedSlots m fromAt toAt) := by
  have hcut : c.expectedSlots m fromAt toAt =
      (c.periods.filter fun p => p.monitorId == m).flatMap fun p =>
        p.slots fromAt mid ++ p.slots mid toAt := by
    refine (List.flatMap_congr ?_).symm
    intro p hp
    exact (h.of_mem hp).slots_append hmid hto h₁ h₂
  rw [hcut]
  exact List.flatMap_append_perm _ _ _

theorem RegularPeriods.mem_bounds (h : RegularPeriods c m) (hto : microsecond ∣ toAt)
    (hslot : slot ∈ c.expectedSlots m fromAt toAt) : fromAt ≤ slot ∧ slot < toAt := by
  obtain ⟨p, hp, hmem⟩ := List.mem_flatMap.mp hslot
  obtain ⟨k, -, hfrom, hend⟩ := ((h.of_mem hp).mem_slots hto).mp hmem
  exact ⟨hfrom, Int.lt_of_lt_of_le hend (Int.min_le_right _ _)⟩

/-- Slots of a period lie in the period. -/
theorem Regular.bounds (h : Regular p) (hto : microsecond ∣ toAt)
    (hslot : slot ∈ p.slots fromAt toAt) :
    p.startsAt ≤ slot ∧ ∀ endsAt, p.endsAt = some endsAt → slot < endsAt := by
  obtain ⟨k, hk, -, hend⟩ := (h.mem_slots hto).mp hslot
  constructor
  · refine Int.le_trans h.first ?_
    rw [hk]
    exact Int.le_add_of_nonneg_right
      (Int.mul_nonneg (Int.natCast_nonneg k) (Int.le_of_lt h.step_pos))
  · intro endsAt hends
    rw [endIn, hends, Option.getD_some] at hend
    exact Int.lt_of_lt_of_le hend (Int.min_le_left _ _)

theorem nodup_expectedSlots (h : RegularPeriods c m) (hapart : DisjointPeriods c m)
    (hto : microsecond ∣ toAt) : (c.expectedSlots m fromAt toAt).Nodup := by
  refine List.nodup_flatMap.mpr ⟨fun p hp => (h.of_mem hp).nodup_slots hto, ?_⟩
  refine List.Pairwise.imp_of_mem ?_ hapart
  intro p q hp hq hpq slot hslotp hslotq
  obtain ⟨hp₁, hp₂⟩ := (h.of_mem hp).bounds hto hslotp
  obtain ⟨hq₁, hq₂⟩ := (h.of_mem hq).bounds hto hslotq
  rcases hpq with ⟨endsAt, hends, hle⟩ | ⟨endsAt, hends, hle⟩
  · exact Int.not_lt.mpr (Int.le_trans hle hq₁) (hp₂ endsAt hends)
  · exact Int.not_lt.mpr (Int.le_trans hle hp₁) (hq₂ endsAt hends)

end Monitor

/-! ## Counting -/

section Counts

instance : AddCommMonoid SlotCounts where
  add_assoc _ _ _ := SlotCounts.ext (Nat.add_assoc _ _ _) (Nat.add_assoc _ _ _)
    (Nat.add_assoc _ _ _) (Int.add_assoc _ _ _)
  zero_add _ := SlotCounts.ext (Nat.zero_add _) (Nat.zero_add _) (Nat.zero_add _) (Int.zero_add _)
  add_zero _ := SlotCounts.ext (Nat.add_zero _) (Nat.add_zero _) (Nat.add_zero _) (Int.add_zero _)
  add_comm _ _ := SlotCounts.ext (Nat.add_comm _ _) (Nat.add_comm _ _) (Nat.add_comm _ _)
    (Int.add_comm _ _)
  nsmul := nsmulRec

theorem expected_add (a b : SlotCounts) : (a + b).expected = a.expected + b.expected := rfl

theorem observed_add (a b : SlotCounts) : (a + b).observed = a.observed + b.observed := rfl

theorem successful_add (a b : SlotCounts) : (a + b).successful = a.successful + b.successful := rfl

variable {l : Ledger} {m : Uuid}

@[simp] theorem countSlots_nil : l.countSlots m [] = 0 := rfl

theorem countSlots_append (as bs : List Time) :
    l.countSlots m (as ++ bs) = l.countSlots m as + l.countSlots m bs := by
  rw [Ledger.countSlots, List.map_append, List.sum_append]
  rfl

theorem countSlots_perm {as bs : List Time} (h : as.Perm bs) :
    l.countSlots m as = l.countSlots m bs := (h.map _).sum_eq

/-- Counts are nested: successful within observed within expected. -/
def Nested (counts : SlotCounts) : Prop :=
  counts.successful ≤ counts.observed ∧ counts.observed ≤ counts.expected

theorem nested_countSlots (slots : List Time) : Nested (l.countSlots m slots) := by
  induction slots with
  | nil => exact ⟨Nat.le_refl 0, Nat.le_refl 0⟩
  | cons slot slots ih =>
    have hone : Nested (SlotCounts.ofChecks (l.checksAt m slot)) :=
      ⟨List.countP_le_length, Nat.le_max_right _ _⟩
    exact ⟨Nat.add_le_add hone.1 ih.1, Nat.add_le_add hone.2 ih.2⟩

end Counts

/-! ## Hours -/

variable {now : Int} {column : Rollup → Nat} {count : SlotCounts → Nat}

section Hours

variable {db : Database} {m : Uuid} {fromAt b : Int} {k : Nat}

/-- The hours of a window of `k` hours. -/
def hoursFrom (fromAt : Int) (k : Nat) : List Int :=
  (List.range k).map fun (j : Nat) => fromAt + j * hour

theorem hoursFrom_succ :
    hoursFrom fromAt (k + 1) = hoursFrom fromAt k ++ [fromAt + k * hour] := by
  rw [hoursFrom, List.range_succ, List.map_append]
  rfl

theorem hour_whole (j : Int) : microsecond ∣ j * hour :=
  Int.dvd_mul_of_dvd_right (by decide)

/-- The end of the `k`-th hour. -/
theorem hours_succ (k : Nat) : fromAt + (k + 1 : Nat) * hour = fromAt + k * hour + hour := by
  rw [Int.natCast_add, Int.natCast_one, Int.add_mul, Int.one_mul, Int.add_assoc]

/-- A window of whole hours falls into its hours. -/
theorem RegularPeriods.hours_perm (h : RegularPeriods db.core m)
    (hfrom : microsecond ∣ fromAt) (k : Nat) :
    ((hoursFrom fromAt k).flatMap fun b => db.core.expectedSlots m b (b + hour)).Perm
      (db.core.expectedSlots m fromAt (fromAt + k * hour)) := by
  have hwhole : ∀ j : Nat, microsecond ∣ fromAt + j * hour :=
    fun j => Int.dvd_add hfrom (hour_whole j)
  have hpos : ∀ j : Nat, 0 ≤ (j : Int) * hour :=
    fun j => Int.mul_nonneg (Int.natCast_nonneg j) (by decide)
  induction k with
  | zero =>
    have hnil : db.core.expectedSlots m fromAt (fromAt + (0 : Nat) * hour) = [] := by
      refine List.eq_nil_iff_forall_not_mem.mpr fun slot hslot => ?_
      obtain ⟨hlow, hhigh⟩ := h.mem_bounds (hwhole 0) hslot
      simp only [Int.natCast_zero, Int.zero_mul, Int.add_zero] at hhigh
      exact Int.not_lt.mpr hlow hhigh
    rw [hnil]
    exact List.Perm.nil
  | succ k ih =>
    have hnext : fromAt + k * hour ≤ fromAt + (k + 1 : Nat) * hour := by
      rw [hours_succ]
      exact Int.le_add_of_nonneg_right (by decide)
    have hcut := h.slots_perm (hwhole k) (hwhole (k + 1))
      (Int.le_add_of_nonneg_right (hpos k)) hnext
    rw [hoursFrom_succ, List.flatMap_append, List.flatMap_singleton]
    refine List.Perm.trans (ih.append_right _) ?_
    rw [hours_succ] at hcut ⊢
    exact hcut

/-! ### The rows of an hour -/

/-- The rows `RollupHour` computes for one monitor: one, or none if it has no
slot in the hour. -/
def hourRows (db : Database) (m : Uuid) (b now : Time) : List Rollup :=
  ((hourlyAggregate b db now).filter fun e => e.1 == m).map Prod.snd

theorem mem_monitorsExpected {c : Core} {toAt : Int} :
    m ∈ c.monitorsExpected b toAt ↔ c.expectedSlots m b toAt ≠ [] := by
  simp only [Core.monitorsExpected, Core.expectedSlots, List.mem_dedup, List.mem_map,
    List.mem_filter, ne_eq, List.flatMap_eq_nil_iff, not_forall, Bool.not_eq_true',
    List.isEmpty_eq_false_iff, beq_iff_eq]
  constructor
  · rintro ⟨p, ⟨hp, hslots⟩, hid⟩
    exact ⟨p, ⟨hp, hid⟩, hslots⟩
  · rintro ⟨p, ⟨hp, hid⟩, hslots⟩
    exact ⟨p, ⟨hp, hslots⟩, hid⟩

theorem hourRows_eq : hourRows db m b now =
      if db.core.expectedSlots m b (hourEnd b now) = [] then []
      else [hourlyRollup db m b now] := by
  unfold hourRows hourlyAggregate
  rw [List.filter_map, List.map_map]
  have hnodup : (db.core.monitorsExpected b (hourEnd b now)).Nodup := List.nodup_dedup _
  have hfilter : (db.core.monitorsExpected b (hourEnd b now)).filter
      ((fun e : Uuid × Rollup => e.1 == m) ∘ fun m => (m, hourlyRollup db m b now)) =
      if db.core.expectedSlots m b (hourEnd b now) = [] then [] else [m] := by
    have hbeq : ((fun e : Uuid × Rollup => e.1 == m) ∘
        fun m => (m, hourlyRollup db m b now)) = fun x => x == m := rfl
    rw [hbeq, List.filter_beq]
    by_cases hslots : db.core.expectedSlots m b (hourEnd b now) = []
    · rw [if_pos hslots, List.count_eq_zero_of_not_mem fun hmem =>
        mem_monitorsExpected.mp hmem hslots]
      rfl
    · rw [if_neg hslots, List.count_eq_one_of_mem hnodup (mem_monitorsExpected.mpr hslots)]
      rfl
  rw [hfilter]
  split <;> rfl

/-- When the hour is over, the sum of a column over the rows of the hour is the
count over its slots. -/
theorem sum_hourRows (hnow : b + hour ≤ now) (hzero : count 0 = 0)
    (hcolumn : column (hourlyRollup db m b now) = count (db.ledger.countSlots m
      (db.core.expectedSlots m b (hourEnd b now)))) :
    ((hourRows db m b now).map column).sum =
      count (db.ledger.countSlots m (db.core.expectedSlots m b (b + hour))) := by
  have hend : hourEnd b now = b + hour := Int.min_eq_left hnow
  rw [hend] at hcolumn
  rw [hourRows_eq, hend]
  split
  · next hnil =>
    rw [hnil, countSlots_nil, hzero]
    rfl
  · simp [hcolumn]

/-- The same over the hours of a window. -/
theorem sum_hours (h : RegularPeriods db.core m) (hfrom : microsecond ∣ fromAt)
    {now : Time → Time} (hnow : ∀ b ∈ hoursFrom fromAt k, b + hour ≤ now b)
    (hzero : count 0 = 0) (hadd : ∀ a b, count (a + b) = count a + count b)
    (hcolumn : ∀ b now, column (hourlyRollup db m b now) =
      count (db.ledger.countSlots m (db.core.expectedSlots m b (hourEnd b now)))) :
    ((hoursFrom fromAt k).map fun b => ((hourRows db m b (now b)).map column).sum).sum =
      count (db.ledger.countSlots m
        (db.core.expectedSlots m fromAt (fromAt + k * hour))) := by
  have hsum : ∀ bs : List Int, (∀ b ∈ bs, b + hour ≤ now b) →
      (bs.map fun b => ((hourRows db m b (now b)).map column).sum).sum =
        count (db.ledger.countSlots m
          (bs.flatMap fun b => db.core.expectedSlots m b (b + hour))) := by
    intro bs
    induction bs with
    | nil =>
      intro _
      exact hzero.symm
    | cons b bs ih =>
      intro hbs
      rw [List.map_cons, List.sum_cons, List.flatMap_cons, countSlots_append, hadd,
        sum_hourRows (hbs b List.mem_cons_self) hzero (hcolumn b (now b)),
        ih fun b' hb' => hbs b' (List.mem_cons_of_mem _ hb')]
  rw [hsum _ hnow, countSlots_perm (h.hours_perm hfrom k)]

end Hours

/-! ## Reports -/

variable {r : Reliability}

section Report

variable (i n : Nat) (env : Nat → Env) (w : World) (db : Database) (m : Uuid) (fromAt toAt : Int)

theorem databaseTimestamp_whole {t : Int} (h : microsecond ∣ t) :
    databaseTimestamp t = t := by
  show t - t % microsecond = t
  rw [Int.emod_eq_zero_of_dvd h, Int.sub_zero]

/-- Counts that are nested are normal already. -/
theorem normalize_nested {counts : SlotCounts} (h : Nested counts) (hr : r = Reliability.normalize
      { expected := counts.expected, observed := counts.observed
        successful := counts.successful }) :
    r.expected = counts.expected ∧ r.observed = counts.observed ∧
      r.successful = counts.successful := by
  obtain ⟨h₁, h₂⟩ := h
  subst hr
  simp only [Reliability.normalize]
  omega

/-- The answer of the report query, normalized. -/
def reportOf (db : Database) (m : Uuid) (fromAt toAt : Int) : Reliability :=
  let counts := db.ledger.countSlots m (db.core.expectedSlots m fromAt toAt)
  Reliability.normalize { expected := counts.expected, observed := counts.observed
                          successful := counts.successful }

theorem reportOf_counts (hr : r = reportOf db m fromAt toAt) :
    let counts := db.ledger.countSlots m (db.core.expectedSlots m fromAt toAt)
    r.expected = counts.expected ∧ r.observed = counts.observed ∧
      r.successful = counts.successful :=
  normalize_nested (nested_countSlots _) hr

/-- The end of a report: the present, if the window goes beyond it. -/
def clamped (wall toAt : Int) : Int := if wall < toAt then wall else toAt

theorem report_exec (ses : Session Database Key Env) :
    (report m fromAt toAt).exec remote i env ⟨n, ses, db, w⟩ =
      if clamped (env n).wall toAt ≤ fromAt then
        (.error errReportWindow, ⟨n + 1, ses, db, w⟩)
      else
        (.ok (reportOf db m (databaseTimestamp fromAt)
          (databaseTimestamp (clamped (env n).wall toAt))), ⟨n + 4, .idle, db, w⟩) := by
  rw [report, clock, Prog.exec_then (Prog.exec_call fun _ _ => rfl)]
  show Prog.exec remote i env (if clamped (env n).wall toAt ≤ fromAt then _ else _) _ = _
  split
  · rfl
  · rfl

variable {db m fromAt}

/-- Hourly rollups and reports agree. For a window of whole hours that is over,
the rows recomputed for its hours add up to the report; every expected slot of
the window is expected in exactly one hour; and what was successful was
observed, and what was observed expected. -/
theorem rollups_agree (hregular : RegularPeriods db.core m)
    (hdisjoint : DisjointPeriods db.core m) (hfrom : hour ∣ fromAt) {k : Nat} (hk : 0 < k)
    {now : Time → Time} (hnow : ∀ b ∈ hoursFrom fromAt k, b + hour ≤ now b)
    (hwall : fromAt + k * hour ≤ (env n).wall) :
    ∃ r, ((report m fromAt (fromAt + k * hour)).solo remote i env n .idle db w).1 = .ok r ∧
      r.expected = ((hoursFrom fromAt k).map fun b =>
        ((hourRows db m b (now b)).map Rollup.expectedChecks).sum).sum ∧
      r.observed = ((hoursFrom fromAt k).map fun b =>
        ((hourRows db m b (now b)).map Rollup.observedChecks).sum).sum ∧
      r.successful = ((hoursFrom fromAt k).map fun b =>
        ((hourRows db m b (now b)).map Rollup.successfulChecks).sum).sum ∧
      0 ≤ r.successful ∧ r.successful ≤ r.observed ∧ r.observed ≤ r.expected ∧
      (∀ slot ∈ db.core.expectedSlots m fromAt (fromAt + k * hour),
        ((hoursFrom fromAt k).map fun b =>
          (db.core.expectedSlots m b (b + hour)).count slot).sum = 1) := by
  have hwhole : microsecond ∣ fromAt := Int.dvd_trans (by decide) hfrom
  have hend : microsecond ∣ fromAt + k * hour := Int.dvd_add hwhole (hour_whole k)
  have hlt : fromAt < fromAt + k * hour :=
    Int.lt_add_of_pos_right _ (Int.mul_pos (Int.natCast_pos.mpr hk) (by decide))
  have hclamp : clamped (env n).wall (fromAt + k * hour) = fromAt + k * hour :=
    if_neg (Int.not_lt.mpr hwall)
  obtain ⟨hexpected, hobserved, hsuccessful⟩ := reportOf_counts db m fromAt (fromAt + k * hour) rfl
  have hnested := nested_countSlots (l := db.ledger) (m := m)
    (db.core.expectedSlots m fromAt (fromAt + k * hour))
  refine ⟨reportOf db m fromAt (fromAt + k * hour), ?_, ?_, ?_, ?_, ?_, ?_, ?_, ?_⟩
  · rw [Prog.solo_eq, report_exec, hclamp, if_neg (Int.not_le.mpr hlt),
      databaseTimestamp_whole hwhole, databaseTimestamp_whole hend]
  · rw [hexpected, sum_hours hregular hwhole hnow rfl expected_add fun _ _ => rfl]
  · rw [hobserved, sum_hours hregular hwhole hnow rfl observed_add fun _ _ => rfl]
  · rw [hsuccessful, sum_hours hregular hwhole hnow rfl successful_add fun _ _ => rfl]
  · rw [hsuccessful]
    exact Int.natCast_nonneg _
  · rw [hsuccessful, hobserved]
    exact Int.ofNat_le.mpr hnested.1
  · rw [hobserved, hexpected]
    exact Int.ofNat_le.mpr hnested.2
  · intro slot hslot
    have honce := List.count_eq_one_of_mem (nodup_expectedSlots hregular hdisjoint hend) hslot
    rw [← (hregular.hours_perm hwhole k).count_eq, List.count_flatMap] at honce
    exact honce

end Report

namespace Sample

/-- The monitor has been scheduled every minute from the start. -/
def periodic : Core :=
  { core with periods := [
      { organizationId := 2, environmentId := 3, monitorId := 1
        intervalSeconds := 60, startsAt := 0, firstSlotAt := 60 * second
        endsAt := none }] }

theorem periodic_regular : RegularPeriods periodic 1 := by
  intro p hp _
  cases List.mem_singleton.mp hp
  exact ⟨by decide, by decide, by decide, nofun⟩

theorem periodic_disjoint : DisjointPeriods periodic 1 := List.pairwise_singleton _ _

/-- The first slot has been checked. -/
def observedOnce : Database :=
  let scheduled := (scheduleDue primitives "platform" 1).solo remote 0
    (fun _ => moment 60 11 21) 0 .idle ⟨Ledger.empty, periodic, Journal.empty⟩ World.empty
  ((consumeNext primitives).solo remote 0 (fun _ => moment 62 13 21) 0 .idle
    scheduled.2.1 World.empty).2.1

end Sample

open Sample

/-- The first two hours of a monitor with one check. -/
theorem rollups_agree_sample : ∃ r, ((report 1 0 (0 + (2 : Nat) * hour)).solo remote 0
      (fun _ => moment 7200 14 21) 0 .idle observedOnce World.empty).1 = .ok r ∧
    r.expected = 119 ∧ r.observed = 1 ∧ r.successful = 1 := by
  have hcore : observedOnce.core.periods = periodic.periods := by rfl
  have hregular : RegularPeriods observedOnce.core 1 := by
    intro p hp
    rw [hcore] at hp
    exact periodic_regular p hp
  have hdisjoint : DisjointPeriods observedOnce.core 1 := by
    rw [DisjointPeriods, hcore]
    exact periodic_disjoint
  obtain ⟨r, hr, hexpected, hobserved, hsuccessful, -⟩ :=
    rollups_agree 0 0 (fun _ => moment 7200 14 21) World.empty hregular hdisjoint
      (show hour ∣ (0 : Int) by decide) (k := 2) (by decide)
      (show ∀ b ∈ hoursFrom 0 2, b + hour ≤ (fun _ => 2 * hour) b by decide) (by decide)
  refine ⟨r, hr, ?_, ?_, ?_⟩
  · rw [hexpected]
    decide +kernel
  · rw [hobserved]
    decide +kernel
  · rw [hsuccessful]
    decide +kernel

end WatchTrace.Proofs
