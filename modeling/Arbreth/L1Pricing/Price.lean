/-
  The adjustment of the L1 price.

  The code computes with magnitudes and signs. Over the integers the same computation is one
  formula: the price moves by the derivative wanted minus the derivative seen, weighted by the
  units of the update, every division rounding toward minus infinity.
-/
import Arbreth.L1Pricing.Spending

namespace Arbreth.L1Pricing

open Arbreth.Lib

theorem signedValue_satMul (v : U256 × Bool) {n : Nat}
    (hfits : (signedValue v * n).natAbs < 2 ^ 256) :
    signedValue (satMul256 v.1 n, v.2) = signedValue v * n := by
  obtain ⟨m, pos⟩ := v
  have hmul : m.toNat * n < 2 ^ 256 := by
    cases pos with
    | true => simpa [Int.natAbs_mul] using hfits
    | false => simpa [Int.natAbs_mul] using hfits
  cases pos with
  | true =>
    rw [signedValue_true, signedValue_true, toNat_satMul256_of_lt hmul]
    exact Int.natCast_mul ..
  | false =>
    rw [signedValue_false, signedValue_false, toNat_satMul256_of_lt hmul, Int.neg_mul]
    exact congrArg Neg.neg (Int.natCast_mul ..)

namespace L1PricingState

variable {p : L1PricingState} {r : SpendingReport}

/-- The surplus as an integer. -/
def surplusInt (p : L1PricingState) : Int :=
  p.l1FeesAvailable.toNat - (p.posters.totalFundsDue.toNat + p.fundsDueForRewards.toNat)

/-- How fast the surplus should change: to nothing within the equilibration units. -/
def desiredDerivative (p : L1PricingState) : Int :=
  (-p.surplusInt).fdiv p.equilibrationUnits.toNat

/-- How fast it changed since the last update, which left the surplus `old`. -/
def actualDerivative (p : L1PricingState) (old : Int) (units : Nat) : Int :=
  (p.surplusInt - old).fdiv units

/-- The change of the price. -/
def changeInt (p : L1PricingState) (old : Int) (units : Nat) : Int :=
  ((p.desiredDerivative - p.actualDerivative old units) * units).fdiv
    ((p.equilibrationUnits.toNat / p.inertia : Nat) + units)

/-- No magnitude of the computation reaches 2^255. -/
structure SmallMagnitudes (p : L1PricingState) (old : Int) (units : Nat) (price : U256) : Prop where
  inertia : p.inertia < 2 ^ 255
  units_lt : units < 2 ^ 255
  divisor : p.equilibrationUnits.toNat / p.inertia + units < 2 ^ 255
  fees : p.l1FeesAvailable.toNat < 2 ^ 255
  need : p.posters.totalFundsDue.toNat + p.fundsDueForRewards.toNat < 2 ^ 255
  difference : (p.surplusInt - old).natAbs < 2 ^ 255
  derivative : (p.desiredDerivative - p.actualDerivative old units).natAbs < 2 ^ 255
  product : ((p.desiredDerivative - p.actualDerivative old units) * units).natAbs < 2 ^ 255
  price : (price.toNat + p.changeInt old units).natAbs < 2 ^ 255

theorem surplus_spec (hneed : p.posters.totalFundsDue.toNat + p.fundsDueForRewards.toNat < 2 ^ 255) :
    p.surplus.1.toNat = p.surplusInt.natAbs ∧ p.surplus.2 = decide (0 ≤ p.surplusInt) := by
  have hsum : (satAdd256 p.posters.totalFundsDue p.fundsDueForRewards).toNat =
      p.posters.totalFundsDue.toNat + p.fundsDueForRewards.toNat := by
    rw [toNat_satAdd256]
    unfold u256Max
    omega
  have hle := BitVec.le_def (x := satAdd256 p.posters.totalFundsDue p.fundsDueForRewards)
    (y := p.l1FeesAvailable)
  rw [hsum] at hle
  unfold surplus surplusInt
  by_cases hcover : satAdd256 p.posters.totalFundsDue p.fundsDueForRewards ≤ p.l1FeesAvailable
  · have := hle.mp hcover
    rw [if_pos hcover, toNat_satSub256, hsum]
    refine ⟨by omega, (decide_eq_true ?_).symm⟩
    omega
  · have : ¬ _ := fun h => hcover (hle.mpr h)
    rw [if_neg hcover, toNat_satSub256, hsum]
    refine ⟨by omega, (decide_eq_false ?_).symm⟩
    omega

theorem signedValue_surplus
    (hneed : p.posters.totalFundsDue.toNat + p.fundsDueForRewards.toNat < 2 ^ 255) :
    signedValue p.surplus = p.surplusInt := by
  obtain ⟨hmag, hsign⟩ := surplus_spec hneed
  rw [signedValue, hsign, hmag]
  by_cases h : 0 ≤ p.surplusInt
  · rw [decide_eq_true h, if_pos rfl]
    exact Int.natAbs_of_nonneg h
  · rw [decide_eq_false h, if_neg Bool.false_ne_true]
    omega

theorem signedValue_priceChange {units : Nat} {price : U256}
    (hsmall : SmallMagnitudes p p.lastSurplus.toInt units price) :
    signedValue (p.priceChange units) = p.changeInt p.lastSurplus.toInt units := by
  have hlt : ∀ n : Nat, n < 2 ^ 255 → n < 2 ^ 256 := fun n h => h.trans (by decide)
  have hword : (BitVec.ofNat 256 units : U256).toNat = units := by
    rw [BitVec.toNat_ofNat]
    exact Nat.mod_eq_of_lt (hlt _ hsmall.units_lt)
  have hinertia : (BitVec.ofNat 256 p.inertia : U256).toNat = p.inertia := by
    rw [BitVec.toNat_ofNat]
    exact Nat.mod_eq_of_lt (hlt _ hsmall.inertia)
  have hS := signedValue_surplus hsmall.need
  have hold := signedValue_getSigned p.lastSurplus
  have hdesired : signedValue (signedDiv p.surplus.1 (!p.surplus.2) p.equilibrationUnits) =
      p.desiredDerivative := by
    rw [signedValue_signedDiv (p.surplus.1, !p.surplus.2), signedValue_not, hS]
    rfl
  have hdiff : signedValue (signedSub p.surplus.1 p.surplus.2 (getSigned p.lastSurplus).1
      (!(getSigned p.lastSurplus).2)) = p.surplusInt - p.lastSurplus.toInt := by
    rw [signedValue_signedSub (b := ((getSigned p.lastSurplus).1, !(getSigned p.lastSurplus).2)),
      hS, hold]
    rw [hS, hold]
    exact hlt _ hsmall.difference
  unfold priceChange
  dsimp only
  generalize signedSub p.surplus.1 p.surplus.2 (getSigned p.lastSurplus).1
    (!(getSigned p.lastSurplus).2) = diff at hdiff ⊢
  generalize signedDiv p.surplus.1 (!p.surplus.2) p.equilibrationUnits = desired at hdesired ⊢
  have hactual : signedValue (signedDiv diff.1 diff.2 (BitVec.ofNat 256 units)) =
      p.actualDerivative p.lastSurplus.toInt units := by
    rw [signedValue_signedDiv, hdiff, hword]
    rfl
  generalize signedDiv diff.1 diff.2 (BitVec.ofNat 256 units) = actual at hactual ⊢
  have hchange : signedValue (signedSub desired.1 desired.2 actual.1 actual.2) =
      p.desiredDerivative - p.actualDerivative p.lastSurplus.toInt units := by
    rw [signedValue_signedSub, hdesired, hactual]
    rw [hdesired, hactual]
    exact hlt _ hsmall.derivative
  generalize signedSub desired.1 desired.2 actual.1 actual.2 = change at hchange ⊢
  have hdivisor : (satAdd256 (p.equilibrationUnits / BitVec.ofNat 256 p.inertia)
      (BitVec.ofNat 256 units)).toNat = p.equilibrationUnits.toNat / p.inertia + units := by
    rw [toNat_satAdd256, BitVec.toNat_udiv, hinertia, hword]
    exact Nat.min_eq_left (Nat.le_pred_of_lt (hlt _ hsmall.divisor))
  have hproduct : signedValue (satMul256 change.1 units, change.2) =
      (p.desiredDerivative - p.actualDerivative p.lastSurplus.toInt units) * units := by
    rw [signedValue_satMul, hchange]
    rw [hchange]
    exact hlt _ hsmall.product
  rw [signedValue_signedDiv (satMul256 change.1 units, change.2), hproduct, hdivisor, changeInt,
    Int.natCast_add]

theorem adjustPrice_exact {units : Nat} (hversion : 10 ≤ p.arbosVersion)
    (hsmall : SmallMagnitudes p p.lastSurplus.toInt units p.pricePerUnit) :
    ((p.adjustPrice units).pricePerUnit.toNat : Int) =
      max 0 (p.pricePerUnit.toNat + p.changeInt p.lastSurplus.toInt units) ∧
    getSigned (p.adjustPrice units).lastSurplus =
      (BitVec.ofNat 256 p.surplusInt.natAbs, decide (p.surplusInt < 0)) := by
  have hchange := signedValue_priceChange hsmall
  have hprice := hsmall.price
  obtain ⟨hmag, hsign⟩ := surplus_spec hsmall.need
  constructor
  · unfold adjustPrice
    generalize p.priceChange units = change at hchange ⊢
    obtain ⟨m, pos⟩ := change
    generalize p.changeInt p.lastSurplus.toInt units = d at hchange hprice ⊢
    cases pos with
    | true =>
      rw [signedValue_true] at hchange
      dsimp only
      rw [if_pos rfl, toNat_satAdd256]
      unfold u256Max
      omega
    | false =>
      rw [signedValue_false] at hchange
      dsimp only
      rw [if_neg Bool.false_ne_true, toNat_satSub256]
      omega
  · have hfees := hsmall.fees
    have hneed := hsmall.need
    have hword : p.surplus.1 = BitVec.ofNat 256 p.surplusInt.natAbs := by
      rw [← hmag, BitVec.ofNat_toNat]
      exact (BitVec.setWidth_eq _).symm
    have hneg : (!p.surplus.2) = decide (p.surplusInt < 0) := by
      rw [hsign, ← decide_not]
      exact decide_eq_decide.mpr Int.not_le
    have hsmallSurplus : p.surplus.1.toNat < 2 ^ 255 := by
      rw [hmag, surplusInt]
      omega
    have hnonzero : (!p.surplus.2) = true → p.surplus.1 ≠ 0 := by
      intro h hzero
      rw [hneg, decide_eq_true_iff] at h
      rw [hzero] at hmag
      have : (0 : U256).toNat = 0 := rfl
      omega
    have hstored : (p.adjustPrice units).lastSurplus = setSigned p.surplus.1 (!p.surplus.2) :=
      if_neg (by omega)
    rw [hstored, getSigned_setSigned hsmallSurplus hnonzero, hword, hneg]

/-- The payments do not touch what the adjustment reads besides the funds. -/
theorem settled_slots (p : L1PricingState) (r : SpendingReport) :
    (p.settled r).1.arbosVersion = p.arbosVersion ∧
    (p.settled r).1.equilibrationUnits = p.equilibrationUnits ∧
    (p.settled r).1.inertia = p.inertia ∧
    (p.settled r).1.pricePerUnit = p.pricePerUnit ∧
    (p.settled r).1.lastSurplus = p.lastSurplus := by
  rw [settled_eq]
  rcases (p.rewarded r).payPoster_cases r.batchPoster with ⟨_, h⟩ | h
  · rw [h]
    exact ⟨rfl, rfl, rfl, rfl, rfl⟩
  · rw [h]
    exact ⟨rfl, rfl, rfl, rfl, rfl⟩

/-- An update that succeeds and allocates units adjusts the price of the settled state. -/
theorem update_adjusts (hversion : 10 ≤ p.arbosVersion) (hunits : 0 < p.unitsAllocated r)
    (hok : (p.updateForBatchPosterSpending r).1 = .ok ()) :
    (p.updateForBatchPosterSpending r).2.1 =
      ((p.opened r.batchPoster).settled r).1.adjustPrice (p.unitsAllocated r) := by
  have htimes : p.TimesValid r := by
    by_contra hnot
    rw [update_of_not_timesValid hversion hnot] at hok
    cases hok
  rw [update_of_timesValid hversion htimes]
  exact if_pos hunits

theorem update_price_exact (p : L1PricingState) (r : SpendingReport) (hversion : 10 ≤ p.arbosVersion)
    (hok : (p.updateForBatchPosterSpending r).1 = .ok ()) (hunits : 0 < p.unitsAllocated r)
    (hsmall : SmallMagnitudes (p.updateForBatchPosterSpending r).2.1 p.lastSurplus.toInt
      (p.unitsAllocated r) p.pricePerUnit) :
    let after := (p.updateForBatchPosterSpending r).2.1
    let a : Int := p.unitsAllocated r
    let E : Int := p.equilibrationUnits.toNat
    let S : Int := after.l1FeesAvailable.toNat -
      (after.posters.totalFundsDue.toNat + after.fundsDueForRewards.toNat)
    let Sold : Int := p.lastSurplus.toInt
    (after.pricePerUnit.toNat : Int) =
      max 0 (p.pricePerUnit.toNat +
        (((-S).fdiv E - (S - Sold).fdiv a) * a).fdiv (E.fdiv p.inertia + a)) ∧
    getSigned after.lastSurplus = (BitVec.ofNat 256 S.natAbs, decide (S < 0)) := by
  obtain ⟨hv, he, hi, hp, hs⟩ := (p.opened r.batchPoster).settled_slots r
  have hdivisor : (p.equilibrationUnits.toNat : Int).fdiv p.inertia =
      (p.equilibrationUnits.toNat / p.inertia : Nat) :=
    Int.fdiv_eq_ediv_of_nonneg _ (Int.natCast_nonneg _)
  dsimp only
  rw [hdivisor]
  rw [update_adjusts hversion hunits hok] at hsmall ⊢
  generalize ((p.opened r.batchPoster).settled r).1 = q at hv he hi hp hs hsmall ⊢
  change _ = p.equilibrationUnits at he
  change _ = p.inertia at hi
  change _ = p.pricePerUnit at hp
  change _ = p.lastSurplus at hs
  rw [← hp, ← hs] at hsmall ⊢
  rw [← he, ← hi]
  have hq : SmallMagnitudes q q.lastSurplus.toInt (p.unitsAllocated r) q.pricePerUnit :=
    ⟨hsmall.inertia, hsmall.units_lt, hsmall.divisor, hsmall.fees, hsmall.need, hsmall.difference,
      hsmall.derivative, hsmall.product, hsmall.price⟩
  exact adjustPrice_exact (hv ▸ hversion) hq

theorem update_price_exact_deficit :
    ((sampleState.updateForBatchPosterSpending sampleReport).2.1.pricePerUnit.toNat : Int) = 53 ∧
    getSigned (sampleState.updateForBatchPosterSpending sampleReport).2.1.lastSurplus =
      (1007, true) := by
  have hexact := update_price_exact sampleState sampleReport (by decide) rfl (by decide)
    ⟨by decide +kernel, by decide +kernel, by decide +kernel, by decide +kernel, by decide +kernel,
      by decide +kernel, by decide +kernel, by decide +kernel, by decide +kernel⟩
  exact ⟨hexact.1.trans (by decide +kernel), hexact.2.trans (by decide +kernel)⟩

end L1PricingState

end Arbreth.L1Pricing
