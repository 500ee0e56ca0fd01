/-
  The data price cannot be gamed by splitting (arbos, programs/data_pricer.rs).

  What `update_model` asks for a byte depends on the pricer only through the demand it stores, and
  grows with it. The demand grows with the stored one and with the bytes, and falls with the time
  as long as the seconds passed fit the 32 bits they are cast to. A second charge at the same time
  finds no second passed, so its demand is the one of both charges made at once, and the first
  charge was priced at a lower one.
-/
import Arbreth.L2Pricing.Monotone

namespace Arbreth.Stylus

open Arbreth.Lib
open Arbreth.L2Pricing (le_approxExp approxExp_mono)

namespace DataPricer

/-- The values the stored fields can have. -/
structure InRange (d : DataPricer) : Prop where
  demand : d.demand ≤ u32Max
  bytesPerSecond : d.bytesPerSecond ≤ u32Max
  lastUpdateTime : d.lastUpdateTime ≤ u64Max
  minPrice : d.minPrice ≤ u32Max
  inertia : d.inertia ≤ u32Max

/-- The demand `update_model` stores. -/
def demandAfter (d : DataPricer) (bytes time : Nat) : Nat :=
  min (d.demand - min (d.bytesPerSecond * ((time - d.lastUpdateTime) % 2 ^ 32)) u32Max + bytes)
    u32Max

/-- The price of a byte at a demand. -/
def priceAt (d : DataPricer) (demand : Nat) : Nat :=
  saturatingMulByBips d.minPrice (approxExpBasisPoints (oneInBips * demand / d.inertia) 12)

variable {d : DataPricer} {bytes time : Nat}

theorem updateModel_eq (hinertia : 0 < d.inertia) (bytes time : Nat) :
    d.updateModel bytes time =
      (BitVec.ofNat 256 (satMul64 (d.priceAt (d.demandAfter bytes time)) bytes),
        { d with demand := d.demandAfter bytes time, lastUpdateTime := time }) :=
  if_neg (Nat.pos_iff_ne_zero.mp hinertia)

theorem toNat_cost (hinertia : 0 < d.inertia) (bytes time : Nat) :
    (d.updateModel bytes time).1.toNat =
      satMul64 (d.priceAt (d.demandAfter bytes time)) bytes := by
  have hle : satMul64 (d.priceAt (d.demandAfter bytes time)) bytes ≤ u64Max := Nat.min_le_right _ _
  rw [updateModel_eq hinertia, BitVec.toNat_ofNat]
  exact Nat.mod_eq_of_lt (hle.trans_lt (by decide))

/-! ## The price of a byte -/

theorem priceAt_mono {m n : Nat} (h : m ≤ n) : d.priceAt m ≤ d.priceAt n := by
  have hexponent : oneInBips * m / d.inertia ≤ oneInBips * n / d.inertia :=
    Nat.div_le_div_right (Nat.mul_le_mul_left _ h)
  have hbips := Nat.mul_le_mul_left d.minPrice (approxExp_mono hexponent 12)
  exact min_le_min_right _ (Nat.div_le_div_right hbips)

/-- The exponential is at least one. -/
theorem minPrice_le_priceAt (h : d.InRange) (demand : Nat) : d.minPrice ≤ d.priceAt demand := by
  refine le_min ?_ (h.minPrice.trans (by decide))
  rw [Nat.le_div_iff_mul_le (by decide)]
  exact Nat.mul_le_mul_left _ (le_approxExp _ _)

/-! ## The demand -/

theorem demandAfter_mono_bytes {a b : Nat} (h : a ≤ b) :
    d.demandAfter a time ≤ d.demandAfter b time :=
  min_le_min_right _ (Nat.add_le_add_left h _)

theorem demandAfter_mono_demand {demand : Nat} (h : d.demand ≤ demand) :
    d.demandAfter bytes time ≤ { d with demand }.demandAfter bytes time :=
  min_le_min_right _ (Nat.add_le_add_right (Nat.sub_le_sub_right h _) _)

theorem demandAfter_anti_time {later : Nat} (h : time ≤ later)
    (hpassed : later - d.lastUpdateTime < 2 ^ 32) :
    d.demandAfter bytes later ≤ d.demandAfter bytes time := by
  unfold demandAfter
  rw [Nat.mod_eq_of_lt hpassed, Nat.mod_eq_of_lt (by omega)]
  have hcredit := Nat.mul_le_mul_left d.bytesPerSecond (Nat.sub_le_sub_right h d.lastUpdateTime)
  omega

/-- Two charges at one time leave the demand of one. -/
theorem demandAfter_split (a b : Nat) :
    { d with demand := d.demandAfter a time, lastUpdateTime := time }.demandAfter b time =
      d.demandAfter (a + b) time := by
  simp only [demandAfter, Nat.sub_self, Nat.zero_mod, Nat.mul_zero, Nat.zero_min, Nat.sub_zero]
  omega

/-! ## Costs -/

/-- The first of two charges is priced at a lower demand. -/
theorem cost_split_le {a b : Nat}
    (hfits : d.priceAt (d.demandAfter (a + b) time) * (a + b) ≤ u64Max) :
    satMul64 (d.priceAt (d.demandAfter a time)) a +
        satMul64 (d.priceAt (d.demandAfter (a + b) time)) b ≤
      satMul64 (d.priceAt (d.demandAfter (a + b) time)) (a + b) := by
  have hprice : d.priceAt (d.demandAfter a time) ≤ d.priceAt (d.demandAfter (a + b) time) :=
    priceAt_mono (demandAfter_mono_bytes (Nat.le_add_right _ _))
  calc satMul64 (d.priceAt (d.demandAfter a time)) a + satMul64 _ b
      ≤ d.priceAt (d.demandAfter (a + b) time) * a + d.priceAt (d.demandAfter (a + b) time) * b :=
        Nat.add_le_add ((Nat.min_le_left _ _).trans (Nat.mul_le_mul_right _ hprice))
          (Nat.min_le_left _ _)
    _ = satMul64 (d.priceAt (d.demandAfter (a + b) time)) (a + b) := by
        rw [← Nat.mul_add]
        exact (min_eq_left hfits).symm

/-- `update_model` asks for at least the minimum price, more for more demand or more bytes, and
    less at a later time; two charges at one time store the demand of one charge of their sum and
    together cost no more. -/
theorem data_pricing_not_gameable (d : DataPricer) (hd : d.InRange) (hinertia : 0 < d.inertia)
    (bytes time : Nat) (hbytes : bytes ≤ u32Max) :
    d.minPrice * bytes ≤ (d.updateModel bytes time).1.toNat ∧
    (∀ demand, d.demand ≤ demand → demand ≤ u32Max →
      (d.updateModel bytes time).1 ≤ ({ d with demand }.updateModel bytes time).1) ∧
    (∀ more, bytes ≤ more → more ≤ u32Max →
      (d.updateModel bytes time).1 ≤ (d.updateModel more time).1) ∧
    (∀ later, time ≤ later → later - d.lastUpdateTime < 2 ^ 32 →
      (d.updateModel bytes later).1 ≤ (d.updateModel bytes time).1) ∧
    ∀ b, bytes + b < 2 ^ 32 →
      ((d.updateModel bytes time).2.updateModel b time).2.demand =
        (d.updateModel (bytes + b) time).2.demand ∧
      (d.priceAt (d.demandAfter (bytes + b) time) * (bytes + b) ≤ u64Max →
        (d.updateModel bytes time).1.toNat +
            ((d.updateModel bytes time).2.updateModel b time).1.toNat ≤
          (d.updateModel (bytes + b) time).1.toNat) := by
  have hstored : (d.updateModel bytes time).2 =
      { d with demand := d.demandAfter bytes time, lastUpdateTime := time } := by
    rw [updateModel_eq hinertia]
  refine ⟨?_, fun demand h _ => ?_, fun more h _ => ?_, fun later h hlater => ?_, fun b _ => ?_⟩
  · rw [toNat_cost hinertia]
    refine le_min (Nat.mul_le_mul_right _ (minPrice_le_priceAt hd _)) ?_
    exact (Nat.mul_le_mul hd.minPrice hbytes).trans (by decide)
  · rw [BitVec.le_def, toNat_cost hinertia, toNat_cost (d := { d with demand }) hinertia]
    exact satMul64_le_satMul64 (priceAt_mono (demandAfter_mono_demand h)) (Nat.le_refl _)
  · rw [BitVec.le_def, toNat_cost hinertia, toNat_cost hinertia]
    exact satMul64_le_satMul64 (priceAt_mono (demandAfter_mono_bytes h)) h
  · rw [BitVec.le_def, toNat_cost hinertia, toNat_cost hinertia]
    exact satMul64_le_satMul64 (priceAt_mono (demandAfter_anti_time h hlater)) (Nat.le_refl _)
  · generalize hs : (d.updateModel bytes time).2 = s at hstored ⊢
    have hpos : 0 < s.inertia := by rwa [hstored]
    have hdemand : s.demandAfter b time = d.demandAfter (bytes + b) time := by
      rw [hstored]
      exact demandAfter_split bytes b
    have hprice : s.priceAt = d.priceAt := by
      rw [hstored]
      rfl
    rw [updateModel_eq hpos, updateModel_eq hinertia (bytes + b)]
    refine ⟨hdemand, fun hfits => ?_⟩
    rw [← updateModel_eq hpos, ← updateModel_eq hinertia, toNat_cost hpos, toNat_cost hinertia,
      toNat_cost hinertia, hdemand, hprice]
    exact cost_split_le hfits

/-- A pricer as `init_data_pricer` leaves it. -/
def newPricer : DataPricer := ⟨0, 34865, arbitrumStartTime, 82928201, 21360419⟩

theorem data_pricing_not_gameable_new :
    (newPricer.updateModel 5000 arbitrumStartTime).1.toNat +
        ((newPricer.updateModel 5000 arbitrumStartTime).2.updateModel 70 arbitrumStartTime).1.toNat ≤
      (newPricer.updateModel 5070 arbitrumStartTime).1.toNat :=
  ((data_pricing_not_gameable newPricer ⟨by decide, by decide, by decide, by decide, by decide⟩
    (by decide) 5000 arbitrumStartTime (by decide)).2.2.2.2 70 (by decide)).2 (by decide)

end DataPricer

end Arbreth.Stylus
