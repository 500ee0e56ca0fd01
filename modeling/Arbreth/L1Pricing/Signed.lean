/-
  Signed amounts of the L1 pricer (arbos, l1_pricing/mod.rs; arb-storage, backed_types.rs).

  The update of the price computes with a magnitude and a sign, `true` for positive; storage
  keeps the last surplus in two's complement. `signedValue` is the integer such a pair stands
  for: on it `signed_sub` is subtraction where nothing saturates, and `signed_div` is division
  rounding toward minus infinity.
-/
import Arbreth.Lib.Machine

namespace Arbreth.L1Pricing

open Arbreth.Lib

/-- `signed_div`. -/
def signedDiv (mag : U256) (positive : Bool) (divisor : U256) : U256 × Bool :=
  if divisor = 0 then (0, true)
  else if positive then (mag / divisor, true)
  else if mag % divisor = 0 then
    if mag / divisor = 0 then (0, true) else (mag / divisor, false)
  else (mag / divisor + 1, false)

/-- `signed_add`. -/
def signedAdd (aMag : U256) (aPos : Bool) (bMag : U256) (bPos : Bool) : U256 × Bool :=
  if aPos = bPos then (satAdd256 aMag bMag, aPos)
  else if bMag ≤ aMag then (satSub256 aMag bMag, aPos)
  else (satSub256 bMag aMag, bPos)

/-- `signed_sub`. -/
def signedSub (aMag : U256) (aPos : Bool) (bMag : U256) (bPos : Bool) : U256 × Bool :=
  signedAdd aMag aPos bMag (!bPos)

/-- `get_signed`: magnitude and whether it is negative. -/
def getSigned (raw : U256) : U256 × Bool :=
  if raw.getLsbD 255 then (~~~raw + 1, true) else (raw, false)

/-- What `set_last_surplus` stores. -/
def setSigned (magnitude : U256) (negative : Bool) : U256 :=
  if negative then ~~~magnitude + 1 else magnitude

/-- The integer of a magnitude and a sign. -/
def signedValue (v : U256 × Bool) : Int := if v.2 then (v.1.toNat : Int) else -(v.1.toNat : Int)

variable (m : U256) {a b : U256 × Bool}

@[simp] theorem signedValue_true : signedValue (m, true) = m.toNat := rfl

@[simp] theorem signedValue_false : signedValue (m, false) = -(m.toNat : Int) := rfl

theorem signedValue_not (pos : Bool) : signedValue (m, !pos) = -signedValue (m, pos) := by
  cases pos with
  | true => rfl
  | false => simp

theorem signedValue_signedAdd (hfits : (signedValue a + signedValue b).natAbs < 2 ^ 256) :
    signedValue (signedAdd a.1 a.2 b.1 b.2) = signedValue a + signedValue b := by
  obtain ⟨m, p⟩ := a
  obtain ⟨n, q⟩ := b
  simp only [signedAdd, BitVec.le_def]
  -- Equal signs add up, other signs leave the larger one.
  cases p <;> cases q <;>
    simp only [signedValue_true, signedValue_false, reduceIte, Bool.false_eq_true,
      Bool.true_eq_false] at hfits ⊢
  · simp only [toNat_satAdd256]
    unfold u256Max
    omega
  · split <;> simp only [signedValue_true, signedValue_false, toNat_satSub256] <;> omega
  · split <;> simp only [signedValue_true, signedValue_false, toNat_satSub256] <;> omega
  · simp only [toNat_satAdd256]
    unfold u256Max
    omega

theorem signedValue_signedSub (hfits : (signedValue a - signedValue b).natAbs < 2 ^ 256) :
    signedValue (signedSub a.1 a.2 b.1 b.2) = signedValue a - signedValue b := by
  have hneg : signedValue (b.1, !b.2) = -signedValue b := signedValue_not b.1 b.2
  rw [sub_eq_add_neg, ← hneg] at hfits ⊢
  exact signedValue_signedAdd hfits

theorem quotient_succ_lt {m d : Nat} (hm : m < 2 ^ 256) (hd : 0 < d) (hr : m % d ≠ 0) :
    m / d + 1 < 2 ^ 256 := by
  have hd1 : d ≠ 1 := by
    rintro rfl
    exact hr (Nat.mod_one m)
  have hle : m / d ≤ m / 2 := Nat.div_le_div_left (by omega) (by decide)
  omega

/-- Division of a negative amount rounds away from zero where there is a remainder. -/
theorem neg_fdiv (m d : Nat) (hd : 0 < d) :
    (-(m : Int)).fdiv d = if m % d = 0 then -((m / d : Nat) : Int) else -((m / d + 1 : Nat) : Int) := by
  rw [Int.fdiv_eq_ediv_of_nonneg _ (Int.natCast_nonneg d), Int.neg_ediv,
    Int.sign_eq_one_of_pos (Int.natCast_pos.mpr hd)]
  simp only [Int.natCast_dvd_natCast, Nat.dvd_iff_mod_eq_zero]
  split
  · simp
  · push_cast
    ring

/-- `signed_div` is floor division; by zero both give zero. -/
theorem signedValue_signedDiv (v : U256 × Bool) (d : U256) :
    signedValue (signedDiv v.1 v.2 d) = (signedValue v).fdiv d.toNat := by
  obtain ⟨m, pos⟩ := v
  by_cases hd0 : d = 0
  · rw [hd0, signedDiv, if_pos rfl]
    exact (Int.fdiv_zero _).symm
  have hd : 0 < d.toNat := Nat.pos_of_ne_zero fun h => hd0 (BitVec.eq_of_toNat_eq h)
  have hmod : m % d = 0 ↔ m.toNat % d.toNat = 0 := by
    rw [← BitVec.toNat_inj, BitVec.toNat_umod]
    rfl
  dsimp only [signedDiv]
  rw [if_neg hd0]
  cases pos with
  | true =>
    rw [if_pos rfl, signedValue_true, signedValue_true, BitVec.toNat_udiv,
      Int.fdiv_eq_ediv_of_nonneg _ (Int.natCast_nonneg _)]
    rfl
  | false =>
    rw [if_neg Bool.false_ne_true, signedValue_false, neg_fdiv _ _ hd]
    split
    · next hr =>
      rw [if_pos (hmod.mp hr)]
      split
      · next hq =>
        have : m.toNat / d.toNat = 0 := by rw [← BitVec.toNat_udiv, hq]; rfl
        rw [this]
        rfl
      · rw [signedValue_false, BitVec.toNat_udiv]
    · next hr =>
      have hr' : m.toNat % d.toNat ≠ 0 := fun h => hr (hmod.mpr h)
      rw [if_neg hr', signedValue_false, BitVec.toNat_add, BitVec.toNat_udiv,
        show (1 : U256).toNat = 1 from rfl, Nat.mod_eq_of_lt (quotient_succ_lt m.isLt hd hr')]

/-! ## Two's complement -/

theorem getLsbD_255 (raw : U256) : raw.getLsbD 255 = true ↔ 2 ^ 255 ≤ raw.toNat := by
  have := raw.isLt
  rw [show raw.getLsbD 255 = raw.msb from rfl, BitVec.msb_eq_decide, decide_eq_true_iff]

theorem toNat_not_succ : (~~~m + 1).toNat = (2 ^ 256 - m.toNat) % 2 ^ 256 := by
  rw [show ~~~m + 1 = -m from (BitVec.neg_eq_not_add m).symm, BitVec.toNat_neg]

/-- Reading the stored word gives its two's complement value. -/
theorem signedValue_getSigned (raw : U256) :
    signedValue ((getSigned raw).1, !(getSigned raw).2) = raw.toInt := by
  have hlt := raw.isLt
  have hmsb : raw.msb = raw.getLsbD 255 := rfl
  rw [BitVec.toInt_eq_msb_cond, hmsb, getSigned]
  split
  · next h =>
    have := (getLsbD_255 raw).mp h
    rw [Bool.not_true, signedValue_false, toNat_not_succ]
    omega
  · rfl

/-- A magnitude below 2^255 is read back as it was stored; zero is not negative. -/
theorem getSigned_setSigned {m : U256} {neg : Bool} (hm : m.toNat < 2 ^ 255)
    (hneg : neg = true → m ≠ 0) : getSigned (setSigned m neg) = (m, neg) := by
  cases neg with
  | false =>
    have hbit : ¬ m.getLsbD 255 = true := by
      rw [getLsbD_255]
      omega
    rw [setSigned, if_neg Bool.false_ne_true, getSigned, if_neg hbit]
  | true =>
    have hpos : m.toNat ≠ 0 := fun h => hneg rfl (BitVec.eq_of_toNat_eq h)
    have hstored : (~~~m + 1).getLsbD 255 = true := by
      rw [getLsbD_255, toNat_not_succ]
      omega
    rw [setSigned, if_pos rfl, getSigned, if_pos hstored]
    congr 1
    refine BitVec.eq_of_toNat_eq ?_
    rw [toNat_not_succ, toNat_not_succ]
    omega

end Arbreth.L1Pricing
