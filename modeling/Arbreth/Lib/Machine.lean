/-
  Machine integers as naturals.

  A `u64` of the modelled code is a `Nat`; where an operation can leave the range the
  model says which of the source's readings applies: `wrap64` for the plain operators
  (the release profile does not check them), `satAdd64` and `satMul64` for the saturating
  ones. A `U256` amount is a `BitVec 256`, so that no amount can leave the range, and its
  saturating operations are read through `toNat`.
-/
import Arbreth.Lib.Bytes

namespace Arbreth.Lib

/-- Reduce to 64 bits. -/
def wrap64 (n : Nat) : Nat := n % 2 ^ 64

/-- `u64::MAX`. -/
def u64Max : Nat := 2 ^ 64 - 1

/-- `u64::saturating_mul`. -/
def satMul64 (a b : Nat) : Nat := min (a * b) u64Max

/-- `u64::saturating_add`. -/
def satAdd64 (a b : Nat) : Nat := min (a + b) u64Max

/-- `u64::leading_zeros`. -/
def leadingZeros64 (n : Nat) : Nat := if n = 0 then 64 else 63 - Nat.log2 n

theorem wrap64_of_lt {n : Nat} (h : n < 2 ^ 64) : wrap64 n = n := Nat.mod_eq_of_lt h

theorem wrap64_lt (n : Nat) : wrap64 n < 2 ^ 64 := Nat.mod_lt _ (by decide)

theorem satAdd64_of_lt {a b : Nat} (h : a + b < 2 ^ 64) : satAdd64 a b = a + b :=
  Nat.min_eq_left (Nat.le_pred_of_lt h)

theorem satMul64_of_lt {a b : Nat} (h : a * b < 2 ^ 64) : satMul64 a b = a * b := by
  unfold satMul64 u64Max
  omega

theorem satAdd64_le_satAdd64 {a a' b b' : Nat} (ha : a ≤ a') (hb : b ≤ b') :
    satAdd64 a b ≤ satAdd64 a' b' := by
  unfold satAdd64
  omega

theorem satMul64_le_satMul64 {a a' b b' : Nat} (ha : a ≤ a') (hb : b ≤ b') :
    satMul64 a b ≤ satMul64 a' b' := by
  have := Nat.mul_le_mul ha hb
  unfold satMul64
  omega

/-! ## 256-bit amounts -/

/-- `U256::MAX`. -/
def u256Max : Nat := 2 ^ 256 - 1

/-- The word of a natural, the largest one where it does not fit. -/
def clamp256 (n : Nat) : U256 := BitVec.ofNat 256 (min n u256Max)

/-- `U256::saturating_add`. -/
def satAdd256 (a b : U256) : U256 := clamp256 (a.toNat + b.toNat)

/-- `U256::saturating_sub`. -/
def satSub256 (a b : U256) : U256 := clamp256 (a.toNat - b.toNat)

/-- `price.saturating_mul(U256::from(gas))`. -/
def satMul256 (price : U256) (gas : Nat) : U256 := clamp256 (price.toNat * gas)

@[simp] theorem toNat_clamp256 (n : Nat) : (clamp256 n).toNat = min n u256Max := by
  rw [clamp256, BitVec.toNat_ofNat, Nat.mod_eq_of_lt]
  unfold u256Max
  omega

theorem toNat_le_u256Max (a : U256) : a.toNat ≤ u256Max := Nat.le_pred_of_lt a.isLt

variable (a b : U256)

@[simp] theorem toNat_satAdd256 :
    (satAdd256 a b).toNat = min (a.toNat + b.toNat) u256Max := toNat_clamp256 _

theorem toNat_satAdd256_of_le {a b : U256} (h : a.toNat + b.toNat ≤ u256Max) :
    (satAdd256 a b).toNat = a.toNat + b.toNat := by
  rw [toNat_satAdd256]
  exact Nat.min_eq_left h

@[simp] theorem toNat_satSub256 : (satSub256 a b).toNat = a.toNat - b.toNat := by
  rw [satSub256, toNat_clamp256]
  exact Nat.min_eq_left ((Nat.sub_le _ _).trans (toNat_le_u256Max a))

@[simp] theorem toNat_satMul256 (price : U256) (gas : Nat) :
    (satMul256 price gas).toNat = min (price.toNat * gas) u256Max := toNat_clamp256 _

theorem toNat_satMul256_of_lt {price : U256} {gas : Nat} (h : price.toNat * gas < 2 ^ 256) :
    (satMul256 price gas).toNat = price.toNat * gas := by
  rw [toNat_satMul256]
  exact Nat.min_eq_left (Nat.le_pred_of_lt h)

/-- The smaller amount. -/
def min256 (a b : U256) : U256 := if a < b then a else b

@[simp] theorem toNat_min256 : (min256 a b).toNat = min a.toNat b.toNat := by
  unfold min256
  split
  · next h => exact (Nat.min_eq_left (BitVec.le_of_lt h)).symm
  · next h => exact (Nat.min_eq_right (BitVec.not_lt.mp h)).symm

@[simp] theorem satAdd256_zero (a : U256) : satAdd256 a 0 = a := by
  refine BitVec.eq_of_toNat_eq ?_
  rw [toNat_satAdd256, show (0 : U256).toNat = 0 from rfl, Nat.add_zero]
  exact Nat.min_eq_left (toNat_le_u256Max a)

@[simp] theorem satSub256_zero (a : U256) : satSub256 a 0 = a := by
  refine BitVec.eq_of_toNat_eq ?_
  rw [toNat_satSub256, show (0 : U256).toNat = 0 from rfl, Nat.sub_zero]

end Arbreth.Lib
