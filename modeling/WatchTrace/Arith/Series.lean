import Mathlib.Data.List.Nodup

/-!
# Arithmetic series

`generate_series` enumerates `first, first + step, …` up to a last value that
may itself be in the series. Programs that want the members below a bound pass
the bound less one unit, and those that want the members from a bound on start
at the first multiple of the step after it. Both ends are rounded, once up and
once down, and in whole units both come to the same thing: an interval of
indices. Once it is written that way, cutting a series at any point is cutting
an interval.
-/

namespace WatchTrace.Arith

/-- `ceil(a / b)`, for a positive divisor. -/
def ceilDiv (a b : Int) : Int := -((-a) / b)

variable {a b k : Int}

theorem ceilDiv_le_iff (hb : 0 < b) : ceilDiv a b ≤ k ↔ a ≤ k * b := by
  have hdiv : -k ≤ -a / b ↔ -k * b ≤ -a := Int.le_ediv_iff_mul_le hb
  have hneg : -k * b = -(k * b) := Int.neg_mul k b
  unfold ceilDiv
  constructor
  · intro h
    have := hdiv.mp (by omega)
    omega
  · intro h
    have := hdiv.mpr (by omega)
    omega

theorem lt_ceilDiv_iff (hb : 0 < b) : k < ceilDiv a b ↔ k * b < a := by
  have h := ceilDiv_le_iff (a := a) (k := k) hb
  omega

variable {u : Int}

/-- In whole units, rounding up is rounding down what is one unit less. -/
theorem ceilDiv_eq_floor (hb : 0 < b) (hu : 0 < u) (ha : u ∣ a) (hub : u ∣ b) :
    ceilDiv a b = (a - u) / b + 1 := by
  have hupper : a ≤ ((a - u) / b + 1) * b := by
    have hlt := Int.lt_ediv_add_one_mul_self (a - u) hb
    obtain ⟨x, rfl⟩ := ha
    obtain ⟨y, rfl⟩ := hub
    -- both sides are multiples of the unit, and differ by less than one
    generalize (u * x - u) / (u * y) + 1 = q at hlt ⊢
    have hassoc : q * (u * y) = u * (q * y) := by
      rw [← Int.mul_assoc, Int.mul_comm q u, Int.mul_assoc]
    have hsub : u * x - u = u * (x - 1) := by rw [Int.mul_sub, Int.mul_one]
    rw [hassoc, hsub] at hlt
    rw [hassoc]
    have hle : x - 1 < q * y := Int.lt_of_mul_lt_mul_left hlt (Int.le_of_lt hu)
    exact Int.mul_le_mul_of_nonneg_left (by omega) (Int.le_of_lt hu)
  have hlower : (a - u) / b * b < a := by
    have := Int.ediv_mul_le (a - u) (Int.ne_of_gt hb)
    omega
  have h₁ := (ceilDiv_le_iff hb).mpr hupper
  have h₂ := (lt_ceilDiv_iff hb).mpr hlower
  omega

/-- `generate_series(first, last, step)`, for a positive step. -/
def generateSeries (first last step : Int) : List Int :=
  (List.range ((last - first) / step + 1).toNat).map fun (k : Nat) => first + k * step

/-! ## Members by index -/

/-- The members with indices from `a` up to, but not including, `b`. -/
def points (first step : Int) (a b : Nat) : List Int :=
  (List.range' a (b - a)).map fun (k : Nat) => first + k * step

/-- The index of the first member that is not below `x`. -/
def index (first step x : Int) : Nat := (ceilDiv (x - first) step).toNat

section

variable {first step : Int} {a b c : Nat} {x y : Int}

theorem points_append (hab : a ≤ b) (hbc : b ≤ c) :
    points first step a b ++ points first step b c = points first step a c := by
  have hlen : c - a = (b - a) + (c - b) := by omega
  have hmid : a + (b - a) = b := by omega
  have hrange := @List.range'_append_1 a (b - a) (c - b)
  rw [hmid] at hrange
  rw [points, points, points, ← List.map_append, hrange, hlen]

theorem points_eq_nil (h : b ≤ a) : points first step a b = [] := by
  have hlen : b - a = 0 := by omega
  rw [points, hlen]
  rfl

theorem index_le_iff (hstep : 0 < step) {k : Nat} :
    index first step x ≤ k ↔ x ≤ first + k * step := by
  have h := ceilDiv_le_iff (a := x - first) (k := k) hstep
  unfold index
  omega

theorem index_mono (hstep : 0 < step) (h : x ≤ y) :
    index first step x ≤ index first step y := by
  rw [index_le_iff hstep]
  exact Int.le_trans h ((index_le_iff hstep).mp (Nat.le_refl _))

theorem mem_points_iff (hstep : 0 < step) {z : Int} :
    z ∈ points first step (index first step x) (index first step y) ↔
      ∃ k : Nat, z = first + k * step ∧ x ≤ z ∧ z < y := by
  simp only [points, List.mem_map, List.mem_range'_1]
  constructor
  · rintro ⟨k, ⟨hlow, hhigh⟩, rfl⟩
    refine ⟨k, rfl, (index_le_iff hstep).mp hlow, ?_⟩
    rw [← Int.not_le, ← index_le_iff hstep]
    omega
  · rintro ⟨k, rfl, hlow, hhigh⟩
    rw [← Int.not_le, ← index_le_iff hstep] at hhigh
    have hlow' := (index_le_iff hstep).mpr hlow
    exact ⟨k, ⟨hlow', by omega⟩, rfl⟩

theorem nodup_points (hstep : 0 < step) : (points first step a b).Nodup := by
  refine List.Nodup.map ?_ List.nodup_range'
  intro k k' h
  have hmul : (k : Int) * step = k' * step := by
    dsimp only at h
    omega
  exact Int.ofNat.inj (Int.eq_of_mul_eq_mul_right (Int.ne_of_gt hstep) hmul)

/-- The series from the `a`-th member to just before `x`. -/
theorem generateSeries_eq_points (hstep : 0 < step) (hu : 0 < u) (hx : u ∣ x - first)
    (hus : u ∣ step) :
    generateSeries (first + a * step) (x - u) step =
      points first step a (index first step x) := by
  have hceil := ceilDiv_eq_floor hstep hu hx hus
  have hshift : (x - u - (first + a * step)) / step = (x - first - u) / step - a := by
    have hmove : x - u - (first + a * step) = x - first - u + (-a) * step := by
      rw [Int.neg_mul]
      omega
    rw [hmove, Int.add_mul_ediv_right _ _ (Int.ne_of_gt hstep)]
    omega
  have hlen : ((x - u - (first + a * step)) / step + 1).toNat = index first step x - a := by
    rw [hshift, index, hceil]
    omega
  rw [generateSeries, hlen, points, List.range'_eq_map_range, List.map_map]
  refine List.map_congr_left ?_
  intro k _
  show first + a * step + k * step = first + ((a + k : Nat) : Int) * step
  rw [Int.natCast_add, Int.add_mul]
  omega

end

end WatchTrace.Arith
