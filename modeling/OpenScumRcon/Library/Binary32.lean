import OpenScumRcon.Library.SignificantDigits

/-!
# Binary floating-point numbers

The values of numbers in the format binary32, and the rounding of a number to so many bits. A number
with few bits is not changed by it.
-/

/-- A floating-point number. The sign of a zero counts. -/
inductive FloatValue where
  | finite (negative : Bool) (magnitude : ℚ)
  | nonfinite

namespace SignificantDigits

/-- The nearest number with `p` bits. A tie goes to the even one. -/
def roundBits (p : ℕ) (q : ℚ) : ℚ :=
  let unit : ℚ := 2 ^ (Int.log 2 q - p + 1)
  roundHalf (fun k => k % 2 = 1) (q / unit) * unit

/-- A number with at most `p` bits is not rounded. -/
theorem roundBits_of_lt {p m : ℕ} (e : ℤ) (hm : m < 2 ^ p) :
  roundBits p (m * 2 ^ e) = m * 2 ^ e
  := by
  rcases Nat.eq_zero_or_pos m with rfl | hpos
  · rw [roundBits, Nat.cast_zero, zero_mul, zero_div]
    have hzero := roundHalf_natCast (fun k => k % 2 = 1) 0
    rw [Nat.cast_zero] at hzero
    rw [hzero, Nat.cast_zero, zero_mul]
  have hq : (0 : ℚ) < m * 2 ^ e := by
    have : (0 : ℚ) < m := by exact_mod_cast hpos
    positivity
  have hlog : Int.log 2 ((m : ℚ) * 2 ^ e) < p + e := by
    have hle := Int.zpow_log_le_self (b := 2) (by norm_num) hq
    have hlt : (m : ℚ) * 2 ^ e < 2 ^ ((p : ℤ) + e) := by
      rw [zpow_add₀ (by norm_num), zpow_natCast]
      gcongr
      exact_mod_cast hm
    have hpow := hle.trans_lt hlt
    rw [Nat.cast_ofNat] at hpow
    apply (zpow_lt_zpow_iff_right₀ (by norm_num)).mp hpow
  rw [roundBits]
  obtain ⟨u, hu⟩ : ∃ u, u = Int.log 2 ((m : ℚ) * 2 ^ e) - p + 1 := ⟨_, rfl⟩
  rw [← hu]
  have hunit : (2 : ℚ) ^ u ≠ 0 := by positivity
  have hquotient : (m : ℚ) * 2 ^ e / 2 ^ u = (m * 2 ^ (e - u).toNat : ℕ) := by
    rw [two_zpow_eq (e := u) (by omega), ← mul_assoc, mul_div_cancel_right₀ _ hunit]
    push_cast
    rfl
  rw [hquotient, roundHalf_natCast, ← hquotient, div_mul_cancel₀ _ hunit]

end SignificantDigits

namespace Binary32

/-- The magnitudes of finite numbers. -/
def IsMagnitude (v : ℚ) : Prop :=
  0 ≤ v ∧ SignificantDigits.IsFloat 24 (-149) v

def exponentField (bits : UInt32) : ℕ :=
  bits.toNat / 2 ^ 23 % 2 ^ 8

def fractionField (bits : UInt32) : ℕ :=
  bits.toNat % 2 ^ 23

def significand (bits : UInt32) : ℕ :=
  if exponentField bits = 0 then fractionField bits else 2 ^ 23 + fractionField bits

def exponent (bits : UInt32) : ℤ :=
  if exponentField bits = 0 then -149 else exponentField bits - 150

/-- The number that the bits are. -/
def ofBits (bits : UInt32) : FloatValue :=
  if exponentField bits = 255 then .nonfinite
  else .finite (2 ^ 31 ≤ bits.toNat) (significand bits * 2 ^ exponent bits)

/-- The bits of a significand are within the format, and the first one is set above the least
exponent. -/
theorem significand_bounds (bits : UInt32) :
  significand bits < 2 ^ 24 ∧ -149 ≤ exponent bits ∧
    (2 ^ 24 ≤ 2 * significand bits ∨ exponent bits = -149)
  := by
  have hfraction : fractionField bits < 2 ^ 23 := Nat.mod_lt _ (by positivity)
  rw [significand, exponent]
  split_ifs <;> omega

/-- The magnitude of a finite number is one of the format. -/
theorem isMagnitude_of_ofBits {bits : UInt32} {negative : Bool} {v : ℚ}
    (h : ofBits bits = .finite negative v) :
  IsMagnitude v
  := by
  obtain ⟨hlt, hmin, hnormal⟩ := significand_bounds bits
  rw [ofBits] at h
  split_ifs at h
  obtain ⟨-, rfl⟩ := FloatValue.finite.inj h
  have hnonneg : (0 : ℚ) ≤ significand bits * 2 ^ exponent bits := by positivity
  exact ⟨hnonneg, significand bits, exponent bits, abs_of_nonneg hnonneg, hlt, hmin, hnormal⟩

/-- A magnitude has one significand and one exponent. -/
theorem significand_unique {m k : ℕ} {e f : ℤ} (h : (m : ℚ) * 2 ^ e = k * 2 ^ f) (hm : m < 2 ^ 24)
    (he : -149 ≤ e) (hk : 2 ^ 24 ≤ 2 * k ∨ f = -149) :
  f ≤ e
  := by
  by_contra hlt
  rw [not_le] at hlt
  have hunit : (2 : ℚ) ^ e ≠ 0 := by positivity
  rw [SignificantDigits.two_zpow_eq hlt.le, ← mul_assoc] at h
  have hcast : (m : ℚ) = (k * 2 ^ (f - e).toNat : ℕ) := by
    push_cast
    apply mul_right_cancel₀ hunit h
  have hshift : m = k * 2 ^ (f - e).toNat := by exact_mod_cast hcast
  have hfull := hk.resolve_right (by omega)
  have htwo : 2 ≤ 2 ^ (f - e).toNat := by
    calc
      2 = 2 ^ 1 := rfl
      _ ≤ 2 ^ (f - e).toNat := Nat.pow_le_pow_right (by norm_num) (by omega)
  have hproduct : k * 2 ≤ k * 2 ^ (f - e).toNat := Nat.mul_le_mul_left k htwo
  omega

/-- Different bits of finite numbers are different numbers. -/
theorem ofBits_injective {bits bits' : UInt32} {negative : Bool} {v : ℚ}
    (h : ofBits bits = .finite negative v) (h' : ofBits bits' = .finite negative v) :
  bits = bits'
  := by
  obtain ⟨hlt, hmin, hnormal⟩ := significand_bounds bits
  obtain ⟨hlt', hmin', hnormal'⟩ := significand_bounds bits'
  rw [ofBits] at h h'
  split_ifs at h h'
  obtain ⟨hnegative, hv⟩ := FloatValue.finite.inj h
  obtain ⟨hnegative', hv'⟩ := FloatValue.finite.inj h'
  have heq := hv.trans hv'.symm
  have hexponent : exponent bits = exponent bits' := by
    apply le_antisymm
    · apply significand_unique heq.symm hlt' hmin' hnormal
    · apply significand_unique heq hlt hmin hnormal'
  have hunit : (2 : ℚ) ^ exponent bits' ≠ 0 := by positivity
  have hsignificand : significand bits = significand bits' := by
    rw [hexponent] at heq
    exact_mod_cast mul_right_cancel₀ hunit heq
  have hsign := decide_eq_decide.mp (hnegative.trans hnegative'.symm)
  apply UInt32.toNat_inj.mp
  have hrange := bits.toNat_lt
  have hrange' := bits'.toNat_lt
  rw [significand, significand, fractionField, fractionField, exponentField, exponentField]
    at hsignificand
  rw [exponent, exponent, exponentField, exponentField] at hexponent
  split_ifs at hsignificand hexponent <;> omega

end Binary32
