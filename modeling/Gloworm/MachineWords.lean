import Mathlib

/-! Unsigned 32-bit arithmetic on naturals below `2 ^ 32`, the alignment macros, and the conversions
of signed values, which are integers. -/
namespace Gloworm.Word

@[irreducible] def add32 (a b : ℕ) : ℕ := (a + b) % 2 ^ 32

@[irreducible] def sub32 (a b : ℕ) : ℕ := (a + 2 ^ 32 - b) % 2 ^ 32

def alignRemainder (value size : ℕ) : ℕ := value &&& (size - 1)

def alignDown (value size : ℕ) : ℕ := value - alignRemainder value size

def alignUp (value size : ℕ) : ℕ := alignDown (add32 value (size - 1)) size

variable {a b : ℕ} {z : ℤ}

lemma add32_of_lt (h : a + b < 2 ^ 32) : add32 a b = a + b := by
  rw [add32, Nat.mod_eq_of_lt h]

lemma add32_of_eq (h : a + b = 2 ^ 32) : add32 a b = 0 := by
  simp [add32, h]

lemma sub32_of_le (hb : b ≤ a) (ha : a < 2 ^ 32) : sub32 a b = a - b := by
  unfold sub32
  omega

lemma sub32_add32 (ha : a < 2 ^ 32) (hb : b < 2 ^ 32) : sub32 (add32 a b) b = a := by
  unfold sub32 add32
  omega

lemma alignRemainder_two_pow (value k : ℕ) : alignRemainder value (2 ^ k) = value % 2 ^ k :=
  Nat.and_two_pow_sub_one_eq_mod value k

lemma alignDown_two_pow (value k : ℕ) : alignDown value (2 ^ k) = value - value % 2 ^ k := by
  rw [alignDown, alignRemainder_two_pow]

lemma dvd_alignDown (value k : ℕ) : 2 ^ k ∣ alignDown value (2 ^ k) := by
  rw [alignDown_two_pow]
  exact Nat.dvd_sub_mod value

lemma alignUp_spec {value k : ℕ} (h : value + 2 ^ k ≤ 2 ^ 32) :
    value ≤ alignUp value (2 ^ k) ∧ alignUp value (2 ^ k) < value + 2 ^ k ∧
      2 ^ k ∣ alignUp value (2 ^ k) := by
  have hk : 0 < 2 ^ k := Nat.two_pow_pos k
  have hadd : add32 value (2 ^ k - 1) = value + (2 ^ k - 1) := add32_of_lt (by omega)
  have hmod := Nat.mod_lt (value + (2 ^ k - 1)) hk
  refine ⟨?_, ?_, dvd_alignDown _ k⟩
  · rw [alignUp, hadd, alignDown_two_pow]
    omega
  · rw [alignUp, hadd, alignDown_two_pow]
    omega

@[irreducible] def toShort (z : ℤ) : ℤ := (z + 32768) % 65536 - 32768

@[irreducible] def toUnsigned (z : ℤ) : ℕ := (z % 4294967296).toNat

@[irreducible] def toSigned (n : ℕ) : ℤ := if n < 2 ^ 31 then n else n - 2 ^ 32

lemma toShort_of_mem (hlo : -32768 ≤ z) (hhi : z < 32768) : toShort z = z := by
  unfold toShort
  omega

lemma toShort_le_self (hz : -32768 ≤ z) : toShort z ≤ z := by
  unfold toShort
  omega

lemma toShort_le (z : ℤ) : toShort z < 32768 := by
  unfold toShort
  omega

lemma toUnsigned_of_mem (hlo : 0 ≤ z) (hhi : z < 4294967296) : toUnsigned z = z.toNat := by
  unfold toUnsigned
  omega

end Gloworm.Word
