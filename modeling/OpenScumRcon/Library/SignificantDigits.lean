import Mathlib.Algebra.Order.Field.Power
import Mathlib.Algebra.Order.Field.Rat
import Mathlib.Data.Int.Log
import Mathlib.Data.Rat.Floor
import Mathlib.Tactic.Linarith
import Mathlib.Tactic.Positivity
import Mathlib.Tactic.Ring

/-!
# Significant digits

A positive number is written with so many significant digits: the digits of the nearest decimal
number of this length. Numbers of a binary format with `p` bits of precision are so far apart that
`n` digits tell them apart when `2 ^ p < 10 ^ (n - 1)`, whichever way ties are rounded.
-/

namespace SignificantDigits

/-! ### Rounding -/

/-- The nearest natural number. It says whether a tie goes up. -/
def roundHalf (ties : ℕ → Bool) (q : ℚ) : ℕ :=
  if q - ⌊q⌋₊ < 1 / 2 then ⌊q⌋₊
  else if 1 / 2 < q - ⌊q⌋₊ then ⌊q⌋₊ + 1
  else if ties ⌊q⌋₊ then ⌊q⌋₊ + 1 else ⌊q⌋₊

variable {ties : ℕ → Bool} {n p : ℕ} {emin : ℤ} {v w : ℚ}

/-- Rounding moves a number by a half at most. -/
theorem abs_roundHalf_sub_le (ties : ℕ → Bool) {q : ℚ} (hq : 0 ≤ q) :
  |(roundHalf ties q : ℚ) - q| ≤ 1 / 2
  := by
  have hfloor := Nat.floor_le hq
  have hlt := Nat.lt_floor_add_one q
  rw [roundHalf]
  split_ifs with hless hmore
  · rw [abs_le]
    constructor <;> linarith
  · rw [abs_le]
    push_cast
    constructor <;> linarith
  · rw [abs_le]
    push_cast
    constructor <;> linarith
  · rw [abs_le]
    constructor <;> linarith

theorem roundHalf_natCast (ties : ℕ → Bool) (k : ℕ) :
  roundHalf ties k = k
  := by
  rw [roundHalf, Nat.floor_natCast, if_pos]
  norm_num

/-- Rounding does not leave an interval between natural numbers. -/
theorem le_roundHalf {k : ℕ} {q : ℚ} (h : (k : ℚ) ≤ q) :
  k ≤ roundHalf ties q
  := by
  have hk : k ≤ ⌊q⌋₊ := Nat.le_floor h
  rw [roundHalf]
  split_ifs <;> omega

theorem roundHalf_le {k : ℕ} {q : ℚ} (hq : 0 ≤ q) (h : q < k) :
  roundHalf ties q ≤ k
  := by
  have hk : ⌊q⌋₊ < k := (Nat.floor_lt hq).mpr h
  rw [roundHalf]
  split_ifs <;> omega

/-! ### The digits -/

/-- The number with its first digit and `n` more, and the exponent of the first one. -/
def scientific (ties : ℕ → Bool) (n : ℕ) (v : ℚ) : ℕ × ℤ :=
  let digits := roundHalf ties (v * 10 ^ (n - Int.log 10 v))
  -- rounding has made one more digit
  if digits = 10 ^ (n + 1) then (10 ^ n, Int.log 10 v + 1) else (digits, Int.log 10 v)

/-- The decimal number with these digits. -/
def value (n : ℕ) (x : ℕ × ℤ) : ℚ :=
  x.1 * 10 ^ (x.2 - n)

theorem zpow_log_le (hv : 0 < v) :
  (10 : ℚ) ^ Int.log 10 v ≤ v
  := by
  have h := Int.zpow_log_le_self (b := 10) (by norm_num) hv
  exact_mod_cast h

theorem lt_zpow_log (v : ℚ) :
  v < (10 : ℚ) ^ (Int.log 10 v + 1)
  := by
  have h := Int.lt_zpow_succ_log_self (b := 10) (by norm_num) v
  exact_mod_cast h

/-- Scaled, the number has one digit and `n` more in front of its point. -/
theorem scaled_bounds (n : ℕ) (hv : 0 < v) :
  ((10 ^ n : ℕ) : ℚ) ≤ v * 10 ^ (n - Int.log 10 v) ∧
    v * 10 ^ (n - Int.log 10 v) < ((10 ^ (n + 1) : ℕ) : ℚ)
  := by
  have hpos : (0 : ℚ) < 10 ^ ((n : ℤ) - Int.log 10 v) := by positivity
  constructor
  · calc
      ((10 ^ n : ℕ) : ℚ) = 10 ^ Int.log 10 v * 10 ^ ((n : ℤ) - Int.log 10 v) := by
        rw [← zpow_add₀ (by norm_num), add_sub_cancel, zpow_natCast]
        norm_cast
      _ ≤ v * 10 ^ ((n : ℤ) - Int.log 10 v) := mul_le_mul_of_nonneg_right (zpow_log_le hv) hpos.le
  · calc
      v * 10 ^ ((n : ℤ) - Int.log 10 v)
          < 10 ^ (Int.log 10 v + 1) * 10 ^ ((n : ℤ) - Int.log 10 v) :=
        mul_lt_mul_of_pos_right (lt_zpow_log v) hpos
      _ = ((10 ^ (n + 1) : ℕ) : ℚ) := by
        rw [← zpow_add₀ (by norm_num)]
        have hexponent : Int.log 10 v + 1 + ((n : ℤ) - Int.log 10 v) = (n + 1 : ℕ) := by
          push_cast
          ring
        rw [hexponent, zpow_natCast]
        norm_cast

/-- There are exactly so many digits, and the first one is not zero. -/
theorem scientific_bounds (ties : ℕ → Bool) (n : ℕ) (hv : 0 < v) :
  10 ^ n ≤ (scientific ties n v).1 ∧ (scientific ties n v).1 < 10 ^ (n + 1)
  := by
  obtain ⟨hlow, hhigh⟩ := scaled_bounds n hv
  have hle : 10 ^ n ≤ roundHalf ties (v * 10 ^ (n - Int.log 10 v)) := le_roundHalf hlow
  have hge : roundHalf ties (v * 10 ^ (n - Int.log 10 v)) ≤ 10 ^ (n + 1) :=
    roundHalf_le (by positivity) hhigh
  rw [scientific]
  split
  · constructor
    · exact le_rfl
    · apply Nat.pow_lt_pow_right (by norm_num) (by omega)
  · omega

/-- The carry into one more digit does not change the decimal number. -/
theorem value_scientific (ties : ℕ → Bool) (n : ℕ) (v : ℚ) :
  value n (scientific ties n v)
    = roundHalf ties (v * 10 ^ (n - Int.log 10 v)) * 10 ^ (Int.log 10 v - n)
  := by
  rw [scientific]
  split
  next hcarry =>
    have hexponent : Int.log 10 v + 1 - (n : ℤ) = Int.log 10 v - n + 1 := by ring
    rw [value, hcarry]
    dsimp only
    rw [hexponent, zpow_add_one₀ (by norm_num)]
    push_cast
    ring
  next => rfl

/-- The decimal number is off by less than half a unit in the last digit. -/
theorem scientific_error (ties : ℕ → Bool) (n : ℕ) (hv : 0 < v) :
  2 * 10 ^ n * |value n (scientific ties n v) - v| ≤ v
  := by
  have hscale : (0 : ℚ) < 10 ^ (Int.log 10 v - n) := by positivity
  have hinverse : (10 : ℚ) ^ ((n : ℤ) - Int.log 10 v) * 10 ^ (Int.log 10 v - n) = 1 := by
    rw [← zpow_add₀ (by norm_num), sub_add_sub_cancel, sub_self, zpow_zero]
  have hround := abs_roundHalf_sub_le ties (q := v * 10 ^ ((n : ℤ) - Int.log 10 v)) (by positivity)
  have herror : |value n (scientific ties n v) - v|
      = |roundHalf ties (v * 10 ^ ((n : ℤ) - Int.log 10 v)) - v * 10 ^ ((n : ℤ) - Int.log 10 v)|
        * 10 ^ (Int.log 10 v - n) := by
    have hdifference : value n (scientific ties n v) - v
        = (roundHalf ties (v * 10 ^ ((n : ℤ) - Int.log 10 v)) - v * 10 ^ ((n : ℤ) - Int.log 10 v))
          * 10 ^ (Int.log 10 v - n) := by
      rw [value_scientific, sub_mul, mul_assoc v, hinverse, mul_one]
    rw [hdifference, abs_mul, abs_of_pos hscale]
  have hunit : (10 : ℚ) ^ n * 10 ^ (Int.log 10 v - n) = 10 ^ Int.log 10 v := by
    rw [← zpow_natCast, ← zpow_add₀ (by norm_num), add_sub_cancel]
  calc
    2 * 10 ^ n * |value n (scientific ties n v) - v|
        ≤ 2 * 10 ^ n * (1 / 2 * 10 ^ (Int.log 10 v - n)) := by
      rw [herror]
      gcongr
    _ = 10 ^ Int.log 10 v := by
      rw [← hunit]
      ring
    _ ≤ v := zpow_log_le hv

/-! ### Binary formats -/

/-- A number of the binary format with `p` bits of precision and this least exponent. -/
def IsFloat (p : ℕ) (emin : ℤ) (v : ℚ) : Prop :=
  ∃ (m : ℕ) (e : ℤ), |v| = m * 2 ^ e ∧ m < 2 ^ p ∧ emin ≤ e ∧ (2 ^ p ≤ 2 * m ∨ e = emin)

/-- A unit is a multiple of each smaller one. -/
theorem two_zpow_eq {e f : ℤ} (h : e ≤ f) :
  (2 : ℚ) ^ f = 2 ^ (f - e).toNat * 2 ^ e
  := by
  rw [← zpow_natCast, ← zpow_add₀ (by norm_num), Int.toNat_of_nonneg (by omega), sub_add_cancel]

theorem exists_int_of_abs {m : ℕ} {u : ℚ} (h : |v| = m * u) :
  ∃ i : ℤ, v = i * u
  := by
  rcases abs_choice v with hpos | hneg
  · use m
    rw [← hpos, h, Int.cast_natCast]
  · use -m
    rw [hneg] at h
    push_cast
    linarith

/-- Two numbers of the format are at least a unit of the first one apart. -/
theorem IsFloat.apart (hv : IsFloat p emin v) (hw : IsFloat p emin w) (hne : v ≠ w) :
  |v| ≤ 2 ^ p * |v - w|
  := by
  obtain ⟨m, e, hm, hlt, hmin, hnormal⟩ := hv
  obtain ⟨k, f, hk, hlt', hmin', -⟩ := hw
  have hunit : (0 : ℚ) < 2 ^ e := by positivity
  have hm' : (m : ℚ) < 2 ^ p := by exact_mod_cast hlt
  rcases le_or_gt e f with hle | hgt
  · -- both are multiples of the unit of the first one
    obtain ⟨i, hi⟩ := exists_int_of_abs hm
    obtain ⟨j, hj⟩ : ∃ j : ℤ, w = j * 2 ^ e := by
      apply exists_int_of_abs (m := k * 2 ^ (f - e).toNat)
      rw [hk, two_zpow_eq hle]
      push_cast
      ring
    have hij : i - j ≠ 0 := by
      intro hzero
      apply hne
      rw [hi, hj, sub_eq_zero.mp hzero]
    have hone : (1 : ℚ) ≤ |((i - j : ℤ) : ℚ)| := by
      exact_mod_cast Int.one_le_abs hij
    calc
      |v| ≤ 2 ^ p * 2 ^ e := by
        rw [hm]
        gcongr
      _ ≤ 2 ^ p * (|((i - j : ℤ) : ℚ)| * 2 ^ e) := by
        gcongr
        apply le_mul_of_one_le_left hunit.le hone
      _ = 2 ^ p * |v - w| := by
        rw [hi, hj, ← sub_mul, abs_mul, abs_of_pos hunit, Int.cast_sub]
  · -- the other one is in a lower range, so it is less by half a unit of the first one
    have hfull : (2 : ℚ) ^ p ≤ 2 * m := by
      exact_mod_cast hnormal.resolve_right (by omega)
    have hhalf : (0 : ℚ) < 2 ^ (e - 1) := by positivity
    have hdouble : (2 : ℚ) ^ e = 2 * 2 ^ (e - 1) := by
      rw [mul_comm, ← zpow_add_one₀ (by norm_num), sub_add_cancel]
    have hk' : (k : ℚ) ≤ 2 ^ p - 1 := by
      have hle : k + 1 ≤ 2 ^ p := hlt'
      have hcast : (k : ℚ) + 1 ≤ 2 ^ p := by exact_mod_cast hle
      linarith
    have hone : (1 : ℚ) ≤ 2 ^ p := one_le_pow₀ (by norm_num)
    have hw : |w| ≤ (2 ^ p - 1) * 2 ^ (e - 1) := by
      rw [hk]
      apply mul_le_mul hk' (zpow_le_zpow_right₀ (by norm_num) (by omega)) (by positivity)
      linarith
    have hdistance : |v| - |w| ≤ |v - w| := abs_sub_abs_le_abs_sub v w
    have hproduct : 0 ≤ (2 ^ p - 1) * (2 * (m : ℚ) - 2 ^ p) :=
      mul_nonneg (by linarith) (by linarith)
    calc
      |v| = 2 * m * 2 ^ (e - 1) := by
        rw [hm, hdouble]
        ring
      _ ≤ 2 ^ p * (2 * m - (2 ^ p - 1)) * 2 ^ (e - 1) := by
        apply mul_le_mul_of_nonneg_right _ hhalf.le
        nlinarith
      _ ≤ 2 ^ p * (|v| - |w|) := by
        rw [mul_assoc]
        gcongr
        rw [hm, hdouble]
        nlinarith
      _ ≤ 2 ^ p * |v - w| := by
        gcongr

/-- If there are enough digits, the number is nearer to the decimal number than any other one of the
format. -/
theorem IsFloat.nearest (ties : ℕ → Bool) (hdigits : 2 ^ p < 10 ^ n) (hv : IsFloat p emin v)
    (hpos : 0 < v) (hw : IsFloat p emin w) (hne : v ≠ w) :
  |value n (scientific ties n v) - v| < |value n (scientific ties n v) - w|
  := by
  have herror := scientific_error ties n hpos
  have hapart := hv.apart hw hne
  rw [abs_of_pos hpos] at hapart
  have hdistance : 0 < |v - w| := abs_pos.mpr (sub_ne_zero.mpr hne)
  have hpow : (2 : ℚ) ^ p < 10 ^ n := by exact_mod_cast hdigits
  have hten : (0 : ℚ) < 10 ^ n := by positivity
  have hhalf : 2 * |value n (scientific ties n v) - v| < |v - w| := by
    apply lt_of_mul_lt_mul_left _ hten.le
    calc
      10 ^ n * (2 * |value n (scientific ties n v) - v|)
          = 2 * 10 ^ n * |value n (scientific ties n v) - v| := by ring
      _ ≤ 2 ^ p * |v - w| := herror.trans hapart
      _ < 10 ^ n * |v - w| := mul_lt_mul_of_pos_right hpow hdistance
  have htriangle : |v - w| ≤ |value n (scientific ties n v) - v|
      + |value n (scientific ties n v) - w| := by
    rw [abs_sub_comm (value n (scientific ties n v)) v]
    apply abs_sub_le
  linarith

end SignificantDigits
