/-
  What an update of the L1 pricing state moves.

  The stages are read off field by field (`settled_*`). Then the amounts are compared with the
  integers they stand for: `SpendingExact` states the update as integer formulas over the state
  before it, and `update_spending_exact` proves it where nothing saturates. The allocation
  counts from `lastUpdate`, which for the first update is one second before it and not the
  stored zero: `first_update_allocation` shows the difference.
-/
import Arbreth.L1Pricing.Update

namespace Arbreth.L1Pricing

open Arbreth.Lib Function
open Arbreth.Exec (l1PricerFundsPoolAddress)

/-- The transfers of a payment from the pool: none for an empty one. -/
def paid (dst : Address) (amount : U256) : List Transfer :=
  if 0 < amount then [⟨l1PricerFundsPoolAddress, dst, amount⟩] else []

theorem src_of_mem_paid {dst : Address} {amount : U256} {t : Transfer} (h : t ∈ paid dst amount) :
    t.src = l1PricerFundsPoolAddress := by
  unfold paid at h
  split at h
  · rw [List.mem_singleton.mp h]
  · cases h

theorem eq_zero_of_not_pos {v : U256} (h : ¬ 0 < v) : v = 0 :=
  Classical.not_not.mp fun hne => h ((BitVec.pos_iff_ne_zero v).mpr hne)

theorem sum_paid (dst : Address) (amount : U256) :
    ((paid dst amount).map fun t => t.amount.toNat).sum = amount.toNat := by
  unfold paid
  split
  · simp
  · next h =>
    rw [eq_zero_of_not_pos h]
    rfl

namespace L1PricingState

variable {p : L1PricingState} {r : SpendingReport} {poster : Address}

theorem payRewards_eq (p : L1PricingState) (units : Nat) : p.payRewards units =
    ({ p with
        fundsDueForRewards := satSub256 (satAdd256 p.fundsDueForRewards (p.rewardAmount units))
          (min256 p.l1FeesAvailable (p.rewardAmount units))
        l1FeesAvailable :=
          satSub256 p.l1FeesAvailable (min256 p.l1FeesAvailable (p.rewardAmount units)) },
      paid p.payRewardsTo (min256 p.l1FeesAvailable (p.rewardAmount units))) := by
  unfold payRewards paid
  dsimp only
  split
  · rfl
  · next h => rw [eq_zero_of_not_pos h, satSub256_zero p.l1FeesAvailable]

/-- A payment of nothing writes no field; a payment writes the fees and the poster's entry. -/
theorem payPoster_cases (p : L1PricingState) (poster : Address) :
    (min256 p.l1FeesAvailable (p.posters.fundsDue poster) = 0 ∧ p.payPoster poster = (p, [])) ∨
    p.payPoster poster =
      ({ p with
          l1FeesAvailable :=
            satSub256 p.l1FeesAvailable (min256 p.l1FeesAvailable (p.posters.fundsDue poster))
          posters := p.posters.setFundsDue poster
            (satSub256 (p.posters.fundsDue poster)
              (min256 p.l1FeesAvailable (p.posters.fundsDue poster))) },
        paid (p.posters.payTo poster) (min256 p.l1FeesAvailable (p.posters.fundsDue poster))) := by
  unfold payPoster paid
  dsimp only
  split
  · exact .inr rfl
  · next h => exact .inl ⟨eq_zero_of_not_pos h, rfl⟩

theorem payPoster_fees : (p.payPoster poster).1.l1FeesAvailable =
    satSub256 p.l1FeesAvailable (min256 p.l1FeesAvailable (p.posters.fundsDue poster)) := by
  rcases p.payPoster_cases poster with ⟨hzero, h⟩ | h
  · rw [h, hzero, satSub256_zero]
  · rw [h]

theorem payPoster_transfers : (p.payPoster poster).2 =
    paid (p.posters.payTo poster) (min256 p.l1FeesAvailable (p.posters.fundsDue poster)) := by
  rcases p.payPoster_cases poster with ⟨hzero, h⟩ | h
  · rw [h, hzero]
    rfl
  · rw [h]

theorem payPoster_fundsDue : (p.payPoster poster).1.posters.fundsDue =
    update p.posters.fundsDue poster (satSub256 (p.posters.fundsDue poster)
      (min256 p.l1FeesAvailable (p.posters.fundsDue poster))) := by
  rcases p.payPoster_cases poster with ⟨hzero, h⟩ | h
  · rw [h, hzero, satSub256_zero, update_eq_self]
  · rw [h]
    rfl

theorem payPoster_rewards :
    (p.payPoster poster).1.fundsDueForRewards = p.fundsDueForRewards := by
  rcases p.payPoster_cases poster with ⟨_, h⟩ | h <;> rw [h]

theorem payPoster_units : (p.payPoster poster).1.unitsSinceUpdate = p.unitsSinceUpdate := by
  rcases p.payPoster_cases poster with ⟨_, h⟩ | h <;> rw [h]

/-! ## The amounts of an update -/

/-- What the poster is owed with the reported spending. -/
def balanceDue (p : L1PricingState) (r : SpendingReport) : U256 :=
  satAdd256 (p.posters.fundsDue r.batchPoster) (p.cappedSpending r (p.unitsAllocated r))

def rewardPayment (p : L1PricingState) (r : SpendingReport) : U256 :=
  min256 p.l1FeesAvailable (p.rewardAmount (p.unitsAllocated r))

def posterPayment (p : L1PricingState) (r : SpendingReport) : U256 :=
  min256 (satSub256 p.l1FeesAvailable (p.rewardPayment r)) (p.balanceDue r)

/-- The state between the two payments. -/
def rewarded (p : L1PricingState) (r : SpendingReport) : L1PricingState :=
  { p with
    unitsSinceUpdate := p.unitsSinceUpdate - p.unitsAllocated r
    posters := p.posters.setFundsDue r.batchPoster (p.balanceDue r)
    fundsDueForRewards := satSub256 (satAdd256 p.fundsDueForRewards
      (p.rewardAmount (p.unitsAllocated r))) (p.rewardPayment r)
    l1FeesAvailable := satSub256 p.l1FeesAvailable (p.rewardPayment r) }

theorem settled_eq (p : L1PricingState) (r : SpendingReport) : p.settled r =
    ({ ((p.rewarded r).payPoster r.batchPoster).1 with lastUpdateTime := r.updateTime },
      paid p.payRewardsTo (p.rewardPayment r) ++ ((p.rewarded r).payPoster r.batchPoster).2) := by
  unfold settled
  dsimp only
  rw [payRewards_eq]
  rfl

theorem rewarded_fundsDue : (p.rewarded r).posters.fundsDue r.batchPoster = p.balanceDue r :=
  update_self ..

theorem settled_units :
    (p.settled r).1.unitsSinceUpdate = p.unitsSinceUpdate - p.unitsAllocated r := by
  rw [settled_eq]
  exact payPoster_units

theorem settled_fees : (p.settled r).1.l1FeesAvailable =
    satSub256 (satSub256 p.l1FeesAvailable (p.rewardPayment r)) (p.posterPayment r) := by
  rw [settled_eq]
  rw [payPoster_fees, rewarded_fundsDue]
  rfl

theorem settled_rewards : (p.settled r).1.fundsDueForRewards =
    satSub256 (satAdd256 p.fundsDueForRewards (p.rewardAmount (p.unitsAllocated r)))
      (p.rewardPayment r) := by
  rw [settled_eq]
  exact payPoster_rewards

theorem settled_fundsDue : (p.settled r).1.posters.fundsDue =
    update p.posters.fundsDue r.batchPoster
      (satSub256 (p.balanceDue r) (p.posterPayment r)) := by
  rw [settled_eq]
  rw [payPoster_fundsDue, rewarded_fundsDue]
  exact update_idem ..

theorem settled_transfers : (p.settled r).2 = paid p.payRewardsTo (p.rewardPayment r) ++
    paid (p.posters.payTo r.batchPoster) (p.posterPayment r) := by
  rw [settled_eq]
  rw [payPoster_transfers, rewarded_fundsDue]
  rfl

/-! ## The integer formulas -/

/-- The part of the units that falls before `updateTime`. -/
def allocation (units last updateTime currentTime : Nat) : Nat :=
  if currentTime = last then units else units * (updateTime - last) / (currentTime - last)

theorem allocation_le {units last updateTime currentTime : Nat} (h : updateTime ≤ currentTime) :
    allocation units last updateTime currentTime ≤ units := by
  unfold allocation
  split
  · exact Nat.le_refl _
  · refine Nat.div_le_of_le_mul ?_
    rw [Nat.mul_comm]
    exact Nat.mul_le_mul_right _ (Nat.sub_le_sub_right h _)

section Formulas

variable (last : Nat) (p : L1PricingState) (r : SpendingReport)

def exactUnits : Nat := allocation p.unitsSinceUpdate last r.updateTime r.currentTime

def exactSpent : Nat :=
  if p.amortizedCostCapBips = 0 then r.weiSpent.toNat
  else min r.weiSpent.toNat
    (r.l1Basefee.toNat * exactUnits last p r * p.amortizedCostCapBips / 10000)

/-- What the poster is owed before the update: nothing where it is new. -/
def oldDue : Nat :=
  if p.posters.containsPoster r.batchPoster then (p.posters.fundsDue r.batchPoster).toNat else 0

def exactRewards : Nat := min p.l1FeesAvailable.toNat (exactUnits last p r * p.perUnitReward)

def exactPosterPaid : Nat :=
  min (p.l1FeesAvailable.toNat - exactRewards last p r) (oldDue p r + exactSpent last p r)

/-- No sum or product of the update leaves its type. -/
structure NoSaturation : Prop where
  units : p.unitsSinceUpdate < 2 ^ 64
  allocated : p.unitsSinceUpdate * (r.updateTime - last) < 2 ^ 64
  cap : r.l1Basefee.toNat * exactUnits last p r * p.amortizedCostCapBips < 2 ^ 256
  due : oldDue p r + exactSpent last p r < 2 ^ 256
  rewards : p.fundsDueForRewards.toNat + exactUnits last p r * p.perUnitReward < 2 ^ 256

/-- What an update does, with `last` for the time of the last one. -/
structure SpendingExact (u : Except L1PricingError Unit × L1PricingState × List Transfer) :
    Prop where
  ok : u.1 = .ok ()
  units : u.2.1.unitsSinceUpdate + exactUnits last p r = p.unitsSinceUpdate
  transfers : u.2.2 = paid p.payRewardsTo (BitVec.ofNat 256 (exactRewards last p r)) ++
    paid (if p.posters.containsPoster r.batchPoster then p.posters.payTo r.batchPoster
      else r.batchPoster) (BitVec.ofNat 256 (exactPosterPaid last p r))
  from_pool : ∀ t ∈ u.2.2, t.src = l1PricerFundsPoolAddress
  fees : u.2.1.l1FeesAvailable.toNat + (u.2.2.map fun t => t.amount.toNat).sum =
    p.l1FeesAvailable.toNat
  poster_due : (u.2.1.posters.fundsDue r.batchPoster).toNat + exactPosterPaid last p r =
    oldDue p r + exactSpent last p r
  rewards_due : u.2.1.fundsDueForRewards.toNat + exactRewards last p r =
    p.fundsDueForRewards.toNat + exactUnits last p r * p.perUnitReward
  others : ∀ q, q ≠ r.batchPoster → u.2.1.posters.fundsDue q = p.posters.fundsDue q

end Formulas

theorem unitsAllocated_eq (htimes : p.TimesValid r)
    (hfit : NoSaturation (p.lastUpdate r.updateTime) p r) :
    p.unitsAllocated r = exactUnits (p.lastUpdate r.updateTime) p r := by
  have hlast : p.lastUpdate r.updateTime ≤ r.currentTime := htimes.1.trans htimes.2
  have hunits := hfit.units
  unfold unitsAllocated exactUnits allocation
  by_cases hnow : r.currentTime = p.lastUpdate r.updateTime
  · rw [if_pos (by omega), if_pos hnow, satMul64_of_lt (by omega), Nat.mul_one, Nat.div_one]
  · rw [if_neg (by omega), if_neg hnow, satMul64_of_lt hfit.allocated]

theorem toNat_cappedSpending {last : Nat} (hversion : 10 ≤ p.arbosVersion)
    (hfit : NoSaturation last p r) :
    (p.cappedSpending r (exactUnits last p r)).toNat = exactSpent last p r := by
  unfold cappedSpending exactSpent
  by_cases hcap : p.amortizedCostCapBips = 0
  · rw [if_neg (fun h => h.2 hcap), if_pos hcap]
  · have hbase : r.l1Basefee.toNat * exactUnits last p r < 2 ^ 256 :=
      (Nat.le_mul_of_pos_right _ (Nat.pos_of_ne_zero hcap)).trans_lt hfit.cap
    have hproduct := hfit.cap
    rw [← toNat_satMul256_of_lt hbase] at hproduct
    rw [if_pos ⟨by omega, hcap⟩, if_neg hcap, toNat_min256, BitVec.toNat_udiv,
      toNat_satMul256_of_lt hproduct, toNat_satMul256_of_lt hbase, Nat.min_comm]
    rfl

theorem toNat_rewardAmount {units : Nat} (hunits : units < 2 ^ 64)
    (hfit : units * p.perUnitReward < 2 ^ 256) :
    (p.rewardAmount units).toNat = units * p.perUnitReward := by
  have hword : (BitVec.ofNat 256 units : U256).toNat = units := by
    rw [BitVec.toNat_ofNat]
    exact Nat.mod_eq_of_lt (hunits.trans (by decide))
  unfold rewardAmount
  rw [toNat_satMul256_of_lt (by rwa [hword]), hword]

section Amounts

variable (hversion : 10 ≤ p.arbosVersion) (htimes : p.TimesValid r)
  (hfit : NoSaturation (p.lastUpdate r.updateTime) p r)

include hversion htimes hfit in
theorem toNat_balanceDue : ((p.opened r.batchPoster).balanceDue r).toNat =
    oldDue p r + exactSpent (p.lastUpdate r.updateTime) p r := by
  have hspent : ((p.opened r.batchPoster).cappedSpending r
      ((p.opened r.batchPoster).unitsAllocated r)).toNat =
      exactSpent (p.lastUpdate r.updateTime) p r := by
    rw [← toNat_cappedSpending hversion hfit, ← unitsAllocated_eq htimes hfit]
    rfl
  have hdue : ((p.opened r.batchPoster).posters.fundsDue r.batchPoster).toNat = oldDue p r := by
    rw [opened, BatchPostersTable.fundsDue_opened_self, oldDue]
    split <;> rfl
  rw [balanceDue, toNat_satAdd256, hspent, hdue]
  exact Nat.min_eq_left (Nat.le_pred_of_lt hfit.due)

include htimes hfit in
theorem toNat_openedReward : ((p.opened r.batchPoster).rewardAmount
    ((p.opened r.batchPoster).unitsAllocated r)).toNat =
    exactUnits (p.lastUpdate r.updateTime) p r * p.perUnitReward := by
  have hunits : exactUnits (p.lastUpdate r.updateTime) p r < 2 ^ 64 :=
    (allocation_le htimes.2).trans_lt hfit.units
  have hproduct := (Nat.le_add_left _ _).trans_lt hfit.rewards
  rw [unitsAllocated_opened, unitsAllocated_eq htimes hfit]
  exact toNat_rewardAmount (p := p.opened r.batchPoster) hunits hproduct

include htimes hfit in
theorem toNat_rewardPayment : ((p.opened r.batchPoster).rewardPayment r).toNat =
    exactRewards (p.lastUpdate r.updateTime) p r := by
  rw [rewardPayment, toNat_min256, toNat_openedReward htimes hfit]
  rfl

include hversion htimes hfit in
theorem toNat_posterPayment : ((p.opened r.batchPoster).posterPayment r).toNat =
    exactPosterPaid (p.lastUpdate r.updateTime) p r := by
  rw [posterPayment, toNat_min256, toNat_satSub256, toNat_rewardPayment htimes hfit,
    toNat_balanceDue hversion htimes hfit]
  rfl

end Amounts

/-- The price is adjusted after the payments and moves nothing. -/
theorem accepted_eq (p : L1PricingState) (r : SpendingReport) :
    (p.accepted r).1.unitsSinceUpdate = (p.settled r).1.unitsSinceUpdate ∧
    (p.accepted r).1.l1FeesAvailable = (p.settled r).1.l1FeesAvailable ∧
    (p.accepted r).1.fundsDueForRewards = (p.settled r).1.fundsDueForRewards ∧
    (p.accepted r).1.posters = (p.settled r).1.posters ∧
    (p.accepted r).2 = (p.settled r).2 := by
  unfold accepted
  generalize p.settled r = s
  generalize p.unitsAllocated r = units
  dsimp only
  split
  · exact ⟨rfl, rfl, rfl, rfl, rfl⟩
  · exact ⟨rfl, rfl, rfl, rfl, rfl⟩

/-- The fees go down by what is paid, all of it from the pool. -/
theorem accepted_pays (p : L1PricingState) (r : SpendingReport) :
    (p.accepted r).1.l1FeesAvailable.toNat + ((p.accepted r).2.map fun t => t.amount.toNat).sum =
      p.l1FeesAvailable.toNat ∧
    ∀ t ∈ (p.accepted r).2, t.src = l1PricerFundsPoolAddress := by
  obtain ⟨_, hfees, _, _, hlist⟩ := p.accepted_eq r
  rw [hfees, hlist, settled_fees, settled_transfers]
  constructor
  · have hrewards : (p.rewardPayment r).toNat ≤ p.l1FeesAvailable.toNat := by
      rw [rewardPayment, toNat_min256]
      exact Nat.min_le_left _ _
    have hposter : (p.posterPayment r).toNat ≤
        p.l1FeesAvailable.toNat - (p.rewardPayment r).toNat := by
      rw [posterPayment, toNat_min256, toNat_satSub256]
      exact Nat.min_le_left _ _
    rw [List.map_append, List.sum_append, sum_paid, sum_paid, toNat_satSub256, toNat_satSub256]
    omega
  · intro t ht
    rcases List.mem_append.mp ht with h | h
    · exact src_of_mem_paid h
    · exact src_of_mem_paid h

theorem update_spending_exact (p : L1PricingState) (r : SpendingReport)
    (hversion : 10 ≤ p.arbosVersion) (hlast : p.lastUpdateTime ≤ r.updateTime)
    (hnow : r.updateTime ≤ r.currentTime)
    (hfit : NoSaturation (p.lastUpdate r.updateTime) p r) :
    SpendingExact (p.lastUpdate r.updateTime) p r (p.updateForBatchPosterSpending r) := by
  have htimes := timesValid_of_le hlast hnow
  have hrewards := toNat_rewardPayment htimes hfit
  have hposter := toNat_posterPayment hversion htimes hfit
  have hdue := toNat_balanceDue hversion htimes hfit
  have hreward := toNat_openedReward htimes hfit
  have hword : ∀ v : U256, BitVec.ofNat 256 v.toNat = v := fun v => BitVec.ofNat_toNat 256 v
  obtain ⟨hu, _, hr, hp, ht⟩ := (p.opened r.batchPoster).accepted_eq r
  have hlist : ((p.opened r.batchPoster).accepted r).2 =
      paid p.payRewardsTo ((p.opened r.batchPoster).rewardPayment r) ++
      paid ((p.opened r.batchPoster).posters.payTo r.batchPoster)
        ((p.opened r.batchPoster).posterPayment r) := ht.trans settled_transfers
  have hpays := (p.opened r.batchPoster).accepted_pays r
  rw [update_of_timesValid hversion htimes]
  refine ⟨rfl, ?_, ?_, hpays.2, hpays.1, ?_, ?_, ?_⟩
  · have hle : exactUnits (p.lastUpdate r.updateTime) p r ≤ p.unitsSinceUpdate := allocation_le hnow
    rw [hu, settled_units, unitsAllocated_opened, unitsAllocated_eq htimes hfit]
    exact Nat.sub_add_cancel hle
  · rw [hlist, ← hrewards, ← hposter, hword, hword, opened, BatchPostersTable.payTo_opened_self]
  · rw [hp, settled_fundsDue, update_self, toNat_satSub256, hdue, hposter]
    exact Nat.sub_add_cancel (Nat.min_le_right _ _)
  · rw [hr, settled_rewards, toNat_satSub256, toNat_satAdd256, hreward, hrewards]
    have hfits := hfit.rewards
    have hle : exactRewards (p.lastUpdate r.updateTime) p r ≤
        exactUnits (p.lastUpdate r.updateTime) p r * p.perUnitReward := Nat.min_le_right _ _
    change min (p.fundsDueForRewards.toNat + _) u256Max - _ + _ = _
    unfold u256Max
    omega
  · intro q hq
    rw [hp, settled_fundsDue, update_of_ne hq]
    exact BatchPostersTable.fundsDue_opened_of_ne hq

/-- A pricing state with fees for a part of what is due. -/
def sampleState : L1PricingState where
  arbosVersion := 40
  payRewardsTo := 0xaa
  equilibrationUnits := 1000
  inertia := 10
  perUnitReward := 10
  lastUpdateTime := 100
  fundsDueForRewards := 7
  pricePerUnit := 50
  lastSurplus := 0
  amortizedCostCapBips := 20000
  posters := initializeBatchPostersTable Exec.batchPosterAddress
  unitsSinceUpdate := 1000
  l1FeesAvailable := 6000

def sampleReport : SpendingReport where
  updateTime := 150
  currentTime := 200
  batchPoster := Exec.batchPosterAddress
  weiSpent := 2500
  l1Basefee := 2

theorem update_spending_exact_capped :
    exactSpent 100 sampleState sampleReport = 2000 ∧
    SpendingExact 100 sampleState sampleReport
      (sampleState.updateForBatchPosterSpending sampleReport) :=
  ⟨by decide +kernel, update_spending_exact sampleState sampleReport (by decide) (by decide)
    (by decide) ⟨by decide, by decide, by decide +kernel, by decide +kernel, by decide +kernel⟩⟩

/-- The first update counts from one second before it: with the stored time zero in its place
    the formula is wrong. -/
theorem first_update_allocation : ∃ (p : L1PricingState) (r : SpendingReport),
    10 ≤ p.arbosVersion ∧ p.lastUpdateTime ≤ r.updateTime ∧ r.updateTime ≤ r.currentTime ∧
    NoSaturation p.lastUpdateTime p r ∧ NoSaturation (p.lastUpdate r.updateTime) p r ∧
    ¬ SpendingExact p.lastUpdateTime p r (p.updateForBatchPosterSpending r) := by
  refine ⟨{ sampleState with lastUpdateTime := 0 }, sampleReport, by decide, by decide, by decide,
    ⟨by decide, by decide, by decide +kernel, by decide +kernel, by decide +kernel⟩,
    ⟨by decide, by decide, by decide +kernel, by decide +kernel, by decide +kernel⟩, ?_⟩
  intro h
  exact absurd h.units (by decide +kernel)

end L1PricingState

end Arbreth.L1Pricing
