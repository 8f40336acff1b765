import Mathlib.Algebra.Group.Nat.Defs
import Mathlib.Data.List.Basic
import Mathlib.Tactic.Common

/-!
# Little-endian numbers

A natural number below `256 ^ k` is written as `k` bytes, the least significant first.
`decode` reads such bytes back. On the lists of `k` bytes the two are inverse to each
other.
-/

namespace LittleEndian

/-- The `k` least significant bytes of `n`, the least significant first. -/
def encode : ℕ → ℕ → List UInt8
  | 0, _ => []
  | k + 1, n => UInt8.ofNat (n % 256) :: encode k (n / 256)

/-- The number a list of bytes presents. -/
def decode (bytes : List UInt8) : ℕ :=
  bytes.foldr (fun b n => 256 * n + b.toNat) 0

@[simp]
theorem decode_nil :
  decode [] = 0
  := rfl

@[simp]
theorem decode_cons (b : UInt8) (bytes : List UInt8) :
  decode (b :: bytes) = 256 * decode bytes + b.toNat
  := rfl

/-- A number is written in as many bytes as asked for. -/
@[simp]
theorem length_encode (k n : ℕ) :
  (encode k n).length = k
  := by
  induction k generalizing n with
  | zero => rfl
  | succ k ih => rw [encode, List.length_cons, ih]

/-- The bound of a decoded number. -/
theorem decode_lt (bytes : List UInt8) :
  decode bytes < 256 ^ bytes.length
  := by
  induction bytes with
  | nil => simp
  | cons b bytes ih =>
      have hb := b.toNat_lt
      rw [decode_cons, List.length_cons, pow_succ]
      omega

/-- Reading back the `k` bytes of a number below `256 ^ k`. -/
theorem decode_encode {k n : ℕ} (h : n < 256 ^ k) :
  decode (encode k n) = n
  := by
  induction k generalizing n with
  | zero =>
      rw [encode, decode_nil]
      omega
  | succ k ih =>
      have hn : n / 256 < 256 ^ k := by
        rw [pow_succ] at h
        omega
      have hb : (UInt8.ofNat (n % 256)).toNat = n % 256 := by
        apply UInt8.toNat_ofNat_of_lt'
        apply Nat.mod_lt
        decide
      rw [encode, decode_cons, ih hn, hb]
      omega

/-- Writing back the number a list of bytes presents. -/
theorem encode_decode (bytes : List UInt8) :
  encode bytes.length (decode bytes) = bytes
  := by
  induction bytes with
  | nil => rfl
  | cons b bytes ih =>
      have hb := b.toNat_lt
      have hmod : (256 * decode bytes + b.toNat) % 256 = b.toNat := by omega
      have hdiv : (256 * decode bytes + b.toNat) / 256 = decode bytes := by omega
      rw [List.length_cons, decode_cons, encode, hmod, hdiv, ih, UInt8.ofNat_toNat]

end LittleEndian
