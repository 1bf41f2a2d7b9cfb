import Mathlib.Data.Nat.ModEq
import Mathlib.Tactic.NormNum

/-!
# Bytes and fixed-width integers

Big-endian fields of a byte string, and the conversions between the integer
types of a 64-bit machine: each keeps a value that fits and reduces any other
modulo the width.
-/

namespace FeedsService.Library

abbrev Bytes := List UInt8

/-- The `width` low bytes of a number, most significant byte first. -/
def encodeBE : ℕ → ℕ → Bytes
  | 0, _ => []
  | width + 1, value => encodeBE width (value / 256) ++ [UInt8.ofNat value]

def decodeBE (bytes : Bytes) : ℕ :=
  bytes.foldl (fun value byte => value * 256 + byte.toNat) 0

@[simp]
theorem length_encodeBE (width value : ℕ) :
    (encodeBE width value).length = width := by
  induction width generalizing value with
  | zero => rfl
  | succ width ih => simp [encodeBE, ih]

theorem decodeBE_append_singleton (bytes : Bytes) (byte : UInt8) :
    decodeBE (bytes ++ [byte]) = decodeBE bytes * 256 + byte.toNat := by
  simp [decodeBE]

theorem decodeBE_encodeBE (width value : ℕ) :
    decodeBE (encodeBE width value) = value % 256 ^ width := by
  induction width generalizing value with
  | zero => simp [encodeBE, decodeBE, Nat.mod_one]
  | succ width ih =>
      rw [encodeBE, decodeBE_append_singleton, ih, UInt8.toNat_ofNat']
      have hmod : value % (256 * 256 ^ width) =
          value % 256 + 256 * (value / 256 % 256 ^ width) := Nat.mod_mul
      have hpow : 256 ^ (width + 1) = 256 * 256 ^ width := by
        rw [Nat.pow_succ, Nat.mul_comm]
      rw [hpow, hmod]
      omega

/-- Conversion to a 32-bit signed integer. -/
def toInt32 (value : ℤ) : ℤ :=
  Int.bmod value (2 ^ 32)

/-- Conversion to a 64-bit signed integer. -/
def toInt64 (value : ℤ) : ℤ :=
  Int.bmod value (2 ^ 64)

def toUInt32 (value : ℤ) : ℕ :=
  (value % 2 ^ 32).toNat

/-- Conversion to a 64-bit unsigned integer, as `size_t` and `uint64_t` are. -/
def toUInt64 (value : ℤ) : ℕ :=
  (value % 2 ^ 64).toNat

theorem toInt32_of_fits {value : ℤ} (hlow : -2 ^ 31 ≤ value)
    (hhigh : value < 2 ^ 31) : toInt32 value = value := by
  apply Int.bmod_eq_of_le <;> norm_num <;> omega

theorem toInt64_of_fits {value : ℤ} (hlow : -2 ^ 63 ≤ value)
    (hhigh : value < 2 ^ 63) : toInt64 value = value := by
  apply Int.bmod_eq_of_le <;> norm_num <;> omega

theorem toUInt32_of_fits {value : ℕ} (hfits : value < 2 ^ 32) :
    toUInt32 value = value := by
  unfold toUInt32
  omega

theorem toUInt64_of_fits {value : ℕ} (hfits : value < 2 ^ 64) :
    toUInt64 value = value := by
  unfold toUInt64
  omega

/-- Subtracting modulo 2^64 twice is subtracting the difference. -/
theorem toUInt64_sub_toUInt64 (left right : ℤ) :
    toUInt64 (left - toUInt64 right) = toUInt64 (left - right) := by
  unfold toUInt64
  omega

/-- A difference taken in `size_t` and read back as a 32-bit signed integer is
the difference itself when that fits. -/
theorem toInt32_toUInt64 {value : ℤ} (hlow : -2 ^ 31 ≤ value)
    (hhigh : value < 2 ^ 31) : toInt32 (toUInt64 value) = value := by
  have hcast : ((toUInt64 value : ℕ) : ℤ) = value % 2 ^ 64 := by
    unfold toUInt64
    omega
  rw [hcast, toInt32]
  rw [Int.bmod_def]
  norm_num at hlow hhigh ⊢
  split <;> omega

/-- A size written as a 32-bit field and read back. -/
theorem int32_field {value : ℕ} (hfits : value < 2 ^ 31) :
    toInt32 (decodeBE (encodeBE 4 (toUInt32 (toInt32 value)))) = value := by
  have hsigned : toInt32 (value : ℤ) = value :=
    toInt32_of_fits (by omega) (by omega)
  rw [hsigned, toUInt32_of_fits (by omega), decodeBE_encodeBE,
    Nat.mod_eq_of_lt (by omega), hsigned]

/-- A size written as a 64-bit field and read back. -/
theorem int64_field {value : ℕ} (hfits : value < 2 ^ 63) :
    toInt64 (decodeBE (encodeBE 8 (toUInt64 (toInt64 (toUInt64 value))))) =
      value := by
  have hsigned : toInt64 (value : ℤ) = value :=
    toInt64_of_fits (by omega) (by omega)
  have hunsigned : toUInt64 (value : ℤ) = value := toUInt64_of_fits (by omega)
  rw [hunsigned, hsigned, hunsigned, decodeBE_encodeBE,
    Nat.mod_eq_of_lt (by omega), hsigned]

end FeedsService.Library
