import Mathlib.Data.Vector.Basic
import Mathlib.Data.UInt
import Mathlib.Data.String.Basic
import Mathlib.Data.List.Range
import Mathlib.Data.List.Nodup
import Mathlib.Tactic.SplitIfs
import Mathlib.Tactic.Set
import Mathlib.Tactic.NormNum
import Mathlib.Tactic.Ring
import Mathlib.Tactic.Positivity
import Mathlib.Tactic.IntervalCases

/-!
# Machine words

The `u32` arithmetic of the kernel, over `UInt32`, and what it is on the natural numbers:
wrapping addition and subtraction modulo `2^32` (the source's `wrapping_add`,
`wrapping_sub`), the unsigned order, `saturating_add` and `saturating_mul`, and the reading of a
word `as i32`.
Proofs about these operations rewrite with the lemmas here and close with `omega`.
-/

namespace HkKernel

/-- `u32::saturating_add`. -/
def saturatingAdd (a b : UInt32) : UInt32 :=
  if a.toNat + b.toNat < 2 ^ 32 then a + b else 0xFFFFFFFF

/-- `u32::saturating_mul`. -/
def saturatingMul (a b : UInt32) : UInt32 :=
  if a.toNat * b.toNat < 2 ^ 32 then a * b else 0xFFFFFFFF

/-- A word read `as i32`. -/
def asI32 (a : UInt32) : Int := if a.toNat < 2 ^ 31 then a.toNat else a.toNat - 2 ^ 32

namespace U32

theorem toNat_lt (a : UInt32) : a.toNat < 2 ^ 32 := a.toNat_lt_size

theorem toNat_add (a b : UInt32) : (a + b).toNat = (a.toNat + b.toNat) % 2 ^ 32 := by
  simp [UInt32.toNat, UInt32.add_def, BitVec.toNat_add]

theorem toNat_sub (a b : UInt32) : (a - b).toNat = (2 ^ 32 - b.toNat + a.toNat) % 2 ^ 32 := by
  simp [UInt32.toNat, UInt32.sub_def, BitVec.toNat_sub]

theorem toNat_mul (a b : UInt32) : (a * b).toNat = a.toNat * b.toNat % 2 ^ 32 := by
  simp [UInt32.toNat, UInt32.mul_def, BitVec.toNat_mul]

theorem toNat_ofNat (n : Nat) : (UInt32.ofNat n).toNat = n % 2 ^ 32 := by
  simp [UInt32.ofNat, UInt32.toNat]

theorem toNat_one : (1 : UInt32).toNat = 1 := rfl

theorem le_iff (a b : UInt32) : a ≤ b ↔ a.toNat ≤ b.toNat := by
  simp [UInt32.le_def, UInt32.toNat, BitVec.le_def]

theorem lt_iff (a b : UInt32) : a < b ↔ a.toNat < b.toNat := by
  simp [UInt32.lt_def, UInt32.toNat, BitVec.lt_def]

theorem eq_iff (a b : UInt32) : a = b ↔ a.toNat = b.toNat :=
  ⟨congrArg _, UInt32.toNat.inj⟩

theorem ofNat_toNat (a : UInt32) : UInt32.ofNat a.toNat = a := by
  rw [eq_iff, toNat_ofNat, Nat.mod_eq_of_lt (toNat_lt a)]

theorem sub_zero (a : UInt32) : a - 0 = a := by
  rw [eq_iff, toNat_sub, UInt32.toNat_zero]; have := toNat_lt a; omega

theorem add_one_sub_sub_one (a b : UInt32) : a + 1 - b - 1 = a - b := by
  have := toNat_lt a; have := toNat_lt b
  simp only [eq_iff, toNat_sub, toNat_add, toNat_one]
  omega

/-- Adding `n` before subtracting `b` adds `n` to the difference, when that does not wrap. -/
theorem toNat_add_ofNat_sub {a b : UInt32} {n : Nat} (h : (a - b).toNat + n < 2 ^ 32) :
    (a + UInt32.ofNat n - b).toNat = (a - b).toNat + n := by
  have := toNat_lt a; have := toNat_lt b
  simp only [toNat_sub, toNat_add, toNat_ofNat] at h ⊢
  omega

theorem toNat_saturatingAdd (a b : UInt32) :
    (saturatingAdd a b).toNat = min (a.toNat + b.toNat) (2 ^ 32 - 1) := by
  unfold saturatingAdd
  split_ifs with h
  · rw [toNat_add, Nat.mod_eq_of_lt h]; omega
  · show 4294967295 = _; omega

theorem toNat_saturatingMul (a b : UInt32) :
    (saturatingMul a b).toNat = min (a.toNat * b.toNat) (2 ^ 32 - 1) := by
  unfold saturatingMul
  split_ifs with h
  · rw [toNat_mul, Nat.mod_eq_of_lt h]; omega
  · show 4294967295 = _; omega

end U32

end HkKernel
