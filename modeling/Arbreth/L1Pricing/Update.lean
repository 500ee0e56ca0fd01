/-
  The L1 pricing state and its update from a batch poster's spending report
  (arbos, l1_pricing/mod.rs).

  The results of the transfers are dropped by the update, so that it is modelled by the state it
  leaves and the transfers it issues, in order; what they do to the balances is the caller's.
  Reads of storage never fail. `per_batch_gas_cost` and `gas_floor_per_token` are not read here
  and are left out.

  `update_cases` says once what an update can do: nothing below ArbOS 10, open the poster and
  refuse the times, or all of it (`accepted`).
-/
import Arbreth.Exec.TxProcessor
import Arbreth.L1Pricing.Posters
import Arbreth.L1Pricing.Signed

namespace Arbreth.L1Pricing

open Arbreth.Lib
open Arbreth.Exec (l1PricerFundsPoolAddress)

/-- The fields only the pricing code writes. -/
structure L1PricingSlots where
  arbosVersion : Nat
  payRewardsTo : Address
  equilibrationUnits : U256
  inertia : Nat
  perUnitReward : Nat
  lastUpdateTime : Nat
  fundsDueForRewards : U256
  pricePerUnit : U256
  lastSurplus : U256
  amortizedCostCapBips : Nat
  posters : BatchPostersTable

/-- `L1PricingState`: with the two counters that the block executor writes too. -/
structure L1PricingState extends L1PricingSlots where
  unitsSinceUpdate : Nat
  l1FeesAvailable : U256

/-- The arguments of `update_for_batch_poster_spending`. -/
structure SpendingReport where
  updateTime : Nat
  currentTime : Nat
  batchPoster : Address
  weiSpent : U256
  l1Basefee : U256

/-- A call of `transfer_fn`. -/
structure Transfer where
  src : Address
  dst : Address
  amount : U256
  deriving DecidableEq

namespace L1PricingState

/-- The last update the allocation counts from: the first update has none before it. -/
def lastUpdate (p : L1PricingState) (updateTime : Nat) : Nat :=
  if p.lastUpdateTime = 0 ∧ 0 < updateTime then updateTime - 1 else p.lastUpdateTime

def unitsAllocated (p : L1PricingState) (r : SpendingReport) : Nat :=
  let allocNum := r.updateTime - p.lastUpdate r.updateTime
  let allocDenom := r.currentTime - p.lastUpdate r.updateTime
  if allocDenom = 0 then satMul64 p.unitsSinceUpdate 1 / 1
  else satMul64 p.unitsSinceUpdate allocNum / allocDenom

/-- The reported spending under the amortised cost cap. -/
def cappedSpending (p : L1PricingState) (r : SpendingReport) (units : Nat) : U256 :=
  if 3 ≤ p.arbosVersion ∧ p.amortizedCostCapBips ≠ 0 then
    min256 (satMul256 (satMul256 r.l1Basefee units) p.amortizedCostCapBips / 10000) r.weiSpent
  else r.weiSpent

def recordSpending (p : L1PricingState) (poster : Address) (weiSpent : U256) : L1PricingState :=
  { p with
    posters := p.posters.setFundsDue poster (satAdd256 (p.posters.fundsDue poster) weiSpent) }

def rewardAmount (p : L1PricingState) (units : Nat) : U256 :=
  satMul256 (BitVec.ofNat 256 units) p.perUnitReward

/-- Record the reward and pay what the fees cover. -/
def payRewards (p : L1PricingState) (units : Nat) : L1PricingState × List Transfer :=
  let payment := min256 p.l1FeesAvailable (p.rewardAmount units)
  let p := { p with
    fundsDueForRewards :=
      satSub256 (satAdd256 p.fundsDueForRewards (p.rewardAmount units)) payment }
  if 0 < payment then
    ({ p with l1FeesAvailable := satSub256 p.l1FeesAvailable payment },
      [⟨l1PricerFundsPoolAddress, p.payRewardsTo, payment⟩])
  else (p, [])

/-- Pay the poster what the remaining fees cover. -/
def payPoster (p : L1PricingState) (poster : Address) : L1PricingState × List Transfer :=
  let balanceDue := p.posters.fundsDue poster
  let amount := min256 p.l1FeesAvailable balanceDue
  if 0 < amount then
    ({ p with
        l1FeesAvailable := satSub256 p.l1FeesAvailable amount
        posters := p.posters.setFundsDue poster (satSub256 balanceDue amount) },
      [⟨l1PricerFundsPoolAddress, p.posters.payTo poster, amount⟩])
  else (p, [])

/-- The surplus, as magnitude and sign. -/
def surplus (p : L1PricingState) : U256 × Bool :=
  let needFunds := satAdd256 p.posters.totalFundsDue p.fundsDueForRewards
  if needFunds ≤ p.l1FeesAvailable then (satSub256 p.l1FeesAvailable needFunds, true)
  else (satSub256 needFunds p.l1FeesAvailable, false)

/-- The change of the price, as magnitude and sign. -/
def priceChange (p : L1PricingState) (units : Nat) : U256 × Bool :=
  let s := p.surplus
  let inertiaUnits := p.equilibrationUnits / BitVec.ofNat 256 p.inertia
  let allocPlusInert := satAdd256 inertiaUnits (BitVec.ofNat 256 units)
  let old := getSigned p.lastSurplus
  let desired := signedDiv s.1 (!s.2) p.equilibrationUnits
  let diff := signedSub s.1 s.2 old.1 (!old.2)
  let actual := signedDiv diff.1 diff.2 (BitVec.ofNat 256 units)
  let change := signedSub desired.1 desired.2 actual.1 actual.2
  signedDiv (satMul256 change.1 units) change.2 allocPlusInert

/-- Set the price and the last surplus. -/
def adjustPrice (p : L1PricingState) (units : Nat) : L1PricingState :=
  let change := p.priceChange units
  { p with
    lastSurplus :=
      if p.arbosVersion < 7 then p.lastSurplus else setSigned p.surplus.1 (!p.surplus.2)
    pricePerUnit :=
      if change.2 then satAdd256 p.pricePerUnit change.1 else satSub256 p.pricePerUnit change.1 }

/-- The update up to its payments, on the state with the poster open. -/
def settled (p : L1PricingState) (r : SpendingReport) : L1PricingState × List Transfer :=
  let units := p.unitsAllocated r
  let p := { p with unitsSinceUpdate := p.unitsSinceUpdate - units }
  let p := p.recordSpending r.batchPoster (p.cappedSpending r units)
  let rewards := p.payRewards units
  let poster := rewards.1.payPoster r.batchPoster
  ({ poster.1 with lastUpdateTime := r.updateTime }, rewards.2 ++ poster.2)

/-- The update after its times are accepted. -/
def accepted (p : L1PricingState) (r : SpendingReport) : L1PricingState × List Transfer :=
  let units := p.unitsAllocated r
  let s := p.settled r
  (if 0 < units then s.1.adjustPrice units else s.1, s.2)

/-- `update_for_batch_poster_spending`: its result, the state it leaves (also where it fails) and
    the transfers it issues. -/
def updateForBatchPosterSpending (p : L1PricingState) (r : SpendingReport) :
    Except L1PricingError Unit × L1PricingState × List Transfer :=
  if p.arbosVersion < 10 then (.ok (), p, [])
  else
    match p.posters.openPoster r.batchPoster true with
    | .error e => (.error e, p, [])
    | .ok posters =>
      let p := { p with posters }
      if r.currentTime < r.updateTime ∨ r.updateTime < p.lastUpdate r.updateTime then
        (.error .invalidUpdateTime, p, [])
      else (.ok (), p.accepted r)

/-! ## The ways through an update -/

/-- The state with the poster open. -/
def opened (p : L1PricingState) (poster : Address) : L1PricingState :=
  { p with posters := p.posters.opened poster }

/-- The times an update accepts. -/
def TimesValid (p : L1PricingState) (r : SpendingReport) : Prop :=
  p.lastUpdate r.updateTime ≤ r.updateTime ∧ r.updateTime ≤ r.currentTime

instance (p : L1PricingState) (r : SpendingReport) : Decidable (p.TimesValid r) :=
  inferInstanceAs (Decidable (_ ∧ _))

variable {p : L1PricingState} {r : SpendingReport}

theorem timesValid_of_le (hlast : p.lastUpdateTime ≤ r.updateTime)
    (hnow : r.updateTime ≤ r.currentTime) : p.TimesValid r := by
  refine ⟨?_, hnow⟩
  unfold lastUpdate
  split
  · exact Nat.sub_le _ _
  · exact hlast

theorem update_of_timesValid (hversion : 10 ≤ p.arbosVersion) (htimes : p.TimesValid r) :
    p.updateForBatchPosterSpending r = (.ok (), (p.opened r.batchPoster).accepted r) := by
  have hrefused : ¬ (r.currentTime < r.updateTime ∨
      r.updateTime < (p.opened r.batchPoster).lastUpdate r.updateTime) := by
    rintro (h | h)
    · exact absurd htimes.2 (Nat.not_le.mpr h)
    · exact absurd htimes.1 (Nat.not_le.mpr h)
  rw [updateForBatchPosterSpending, if_neg (Nat.not_lt.mpr hversion),
    BatchPostersTable.openPoster_true]
  exact if_neg hrefused

theorem update_of_not_timesValid (hversion : 10 ≤ p.arbosVersion) (htimes : ¬ p.TimesValid r) :
    p.updateForBatchPosterSpending r =
      (.error .invalidUpdateTime, p.opened r.batchPoster, []) := by
  have hrefused : r.currentTime < r.updateTime ∨
      r.updateTime < (p.opened r.batchPoster).lastUpdate r.updateTime := by
    by_contra hnot
    rw [not_or, Nat.not_lt, Nat.not_lt] at hnot
    exact htimes ⟨hnot.2, hnot.1⟩
  rw [updateForBatchPosterSpending, if_neg (Nat.not_lt.mpr hversion),
    BatchPostersTable.openPoster_true]
  exact if_pos hrefused

theorem update_cases (p : L1PricingState) (r : SpendingReport) :
    p.updateForBatchPosterSpending r = (.ok (), p, []) ∨
    p.updateForBatchPosterSpending r = (.error .invalidUpdateTime, p.opened r.batchPoster, []) ∨
    p.updateForBatchPosterSpending r = (.ok (), (p.opened r.batchPoster).accepted r) := by
  by_cases hversion : p.arbosVersion < 10
  · exact .inl (if_pos hversion)
  · by_cases htimes : p.TimesValid r
    · exact .inr (.inr (update_of_timesValid (Nat.not_lt.mp hversion) htimes))
    · exact .inr (.inl (update_of_not_timesValid (Nat.not_lt.mp hversion) htimes))

theorem unitsAllocated_opened (p : L1PricingState) (r : SpendingReport) (poster : Address) :
    (p.opened poster).unitsAllocated r = p.unitsAllocated r := rfl

end L1PricingState

end Arbreth.L1Pricing
