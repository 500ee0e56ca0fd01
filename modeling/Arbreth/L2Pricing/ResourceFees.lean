/-
  The base fee and the fees of the resources, from one block to the next.

  A block commits the fees its predecessor computed (arb-evm, build.rs), takes its own base fee
  from the stored one, and then updates both at its start-block transaction for the block after
  it. The update leaves every resource fee between the minimum and the base fee it stores
  (`nextFees_le_baseFee`), and nothing else in a block touches the fees. So the fees a block
  charges are bounded by its base fee as long as the base fee was not lowered after the update:
  the chain owner can set it to any amount, and may then leave a block whose base fee is below
  its resource fees. The refund at the end of a transaction is only paid when it is positive.

  A resource without a fee, which a minimum of zero gives, is priced at the base fee of the
  moment instead, which by then is that of the next block.
-/
import Arbreth.L2Pricing.Monotone

namespace Arbreth.L2Pricing

open Arbreth.Lib

/-- What transactions do to the pricing state: the backlog they leave, and the setters of the
    chain owner. -/
inductive PricingOp where
  | updateBacklog (op : BacklogOperation) (usedGas : Nat) (usedMultiGas : MultiGas)
  | setBaseFeeWei (value : U256)
  | setMinBaseFeeWei (value : U256)
  | setSpeedLimitPerSecond (limit : Nat)
  | setMaxPerBlockGasLimit (limit : Nat)
  | setMaxPerTxGasLimit (limit : Nat)
  | setPricingInertia (value : Nat)
  | setBacklogTolerance (value : Nat)
  | setGasBacklog (backlog : Nat)
  | clearGasConstraints
  | addGasConstraint (target adjustmentWindow backlog : Nat)
  | clearMultiGasConstraints
  | addMultiGasConstraint (target adjustmentWindow backlog : Nat) (weights : ResourceKind → Nat)

def PricingOp.apply (s : L2PricingState) : PricingOp → L2PricingState
  | updateBacklog op usedGas usedMultiGas => s.updateBacklog op usedGas usedMultiGas
  | setBaseFeeWei value => { s with baseFeeWei := value }
  | setMinBaseFeeWei value => { s with minBaseFeeWei := value }
  | setSpeedLimitPerSecond limit => { s with speedLimitPerSecond := limit }
  | setMaxPerBlockGasLimit limit => { s with perBlockGasLimit := limit }
  | setMaxPerTxGasLimit limit => { s with perTxGasLimit := limit }
  | setPricingInertia value => { s with pricingInertia := value }
  | setBacklogTolerance value => { s with backlogTolerance := value }
  | setGasBacklog backlog => { s with gasBacklog := backlog }
  | clearGasConstraints => { s with gasConstraints := [] }
  | addGasConstraint target adjustmentWindow backlog =>
    { s with gasConstraints := s.gasConstraints ++ [⟨target, adjustmentWindow, backlog⟩] }
  | clearMultiGasConstraints => { s with multiGasConstraints := [] }
  | addMultiGasConstraint target adjustmentWindow backlog weights =>
    -- `set_resource_weights` keeps the largest weight beside the weights.
    let maxWeight := (ResourceKind.all.map weights).foldl max 0
    { s with
      multiGasConstraints :=
        s.multiGasConstraints ++ [⟨target, adjustmentWindow, backlog, maxWeight, weights⟩] }

/-- A block: the time since its predecessor, and what its transactions do. -/
structure Block where
  timePassed : Nat
  ops : List PricingOp

namespace L2PricingState

/-- The state after the start-block transaction. -/
def startBlock (s : L2PricingState) (b : Block) : L2PricingState :=
  s.commitMultiGasFees.updatePricingModel b.timePassed

/-- The state after a block. -/
def runBlock (s : L2PricingState) (b : Block) : L2PricingState :=
  b.ops.foldl PricingOp.apply (s.startBlock b)

variable {s : L2PricingState} {b : Block}

/-! ## What a block leaves alone -/

theorem nextFees_apply (s : L2PricingState) (op : PricingOp) :
    (op.apply s).nextFees = s.nextFees := by
  cases op with
  | updateBacklog op usedGas usedMultiGas =>
    unfold PricingOp.apply updateBacklog
    cases s.gasModelToUse <;> rfl
  | _ => rfl

theorem nextFees_foldl (s : L2PricingState) (ops : List PricingOp) :
    (ops.foldl PricingOp.apply s).nextFees = s.nextFees := by
  induction ops generalizing s with
  | nil => rfl
  | cons op ops ih => exact (ih _).trans (nextFees_apply s op)

theorem commit_of_multi (h : s.gasModelToUse = .multiGasConstraints) :
    s.commitMultiGasFees = { s with currentFees := s.nextFees } := if_pos h

theorem startBlock_of_multi (h : s.gasModelToUse = .multiGasConstraints) (b : Block) :
    s.startBlock b =
      { s with currentFees := s.nextFees }.updatePricingModelMultiConstraints b.timePassed := by
  have hmodel : { s with currentFees := s.nextFees }.gasModelToUse = .multiGasConstraints := h
  rw [startBlock, commit_of_multi h, updatePricingModel, hmodel]

/-- The fees the block after this one charges are those the update of this one computed. -/
theorem currentFees_next_block (hmodel : s.gasModelToUse = .multiGasConstraints)
    (hstill : (s.runBlock b).gasModelToUse = .multiGasConstraints) :
    (s.runBlock b).commitMultiGasFees.currentFees =
      ({ s with currentFees := s.nextFees }.updatePricingModelMultiConstraints
        b.timePassed).nextFees := by
  rw [commit_of_multi hstill, ← startBlock_of_multi hmodel b]
  exact nextFees_foldl (s.startBlock b) b.ops

/-! ## The cost of a usage -/

/-- The fee `multi_dimensional_price_for_refund_with_fees` takes for a kind. -/
def refundFee (s : L2PricingState) (cachedFees : ResourceKind → U256) (kind : ResourceKind) :
    U256 :=
  if kind = .singleDim then s.baseFeeWei
  else if cachedFees kind = 0 then s.baseFeeWei else cachedFees kind

variable {gasUsed : MultiGas} {cached : ResourceKind → U256}

theorem price_loop_le {s : L2PricingState} {bound : U256} (kinds : List ResourceKind)
    (h : ∀ kind, gasUsed.gas kind ≠ 0 → s.refundFee cached kind ≤ bound) (total : U256) :
    (kinds.foldl (fun total kind =>
        let amount := gasUsed.gas kind
        if amount = 0 then total
        else satAdd256 total (satMul256 (s.refundFee cached kind) amount)) total).toNat ≤
      total.toNat + bound.toNat * (kinds.map gasUsed.gas).sum := by
  induction kinds generalizing total with
  | nil => exact Nat.le_add_right _ _
  | cons kind kinds ih =>
    refine (ih _).trans ?_
    rw [List.map_cons, List.sum_cons, Nat.mul_add, ← Nat.add_assoc]
    refine Nat.add_le_add_right ?_ _
    dsimp only
    split
    · exact Nat.le_add_right _ _
    · next hne =>
      have hfee := Nat.mul_le_mul_right (gasUsed.gas kind) (BitVec.le_def.mp (h kind hne))
      rw [toNat_satAdd256, toNat_satMul256]
      exact (Nat.min_le_left _ _).trans
        (Nat.add_le_add_left ((Nat.min_le_left _ _).trans hfee) _)

/-- A usage costs at most its sum at the highest fee it meets. -/
theorem price_le {s : L2PricingState} {bound : U256}
    (h : ∀ kind, gasUsed.gas kind ≠ 0 → s.refundFee cached kind ≤ bound) :
    (s.multiDimensionalPriceForRefundWithFees gasUsed cached).toNat ≤
      bound.toNat * gasUsed.sum := by
  have hloop := price_loop_le ResourceKind.all h 0
  rwa [show (0 : U256).toNat = 0 from rfl, Nat.zero_add] at hloop

/-! ## Two blocks -/

/-- **The base fee bounds the resource fees.** Let a block update the prices in the multi-gas
    model, and let the base fee not be lowered again in the rest of it. Then in the next block,
    still in that model, every resource fee lies between the minimum fee the update read and the
    block's base fee. If the minimum was not zero, or the stored base fee has not risen since,
    a usage without a single-dimensional part costs at most the base fee times its sum, so a
    refund against the single-dimensional cost of as much gas is not negative. -/
theorem base_fee_bounds_resource_fees (hmodel : s.gasModelToUse = .multiGasConstraints)
    (hstill : (s.runBlock b).gasModelToUse = .multiGasConstraints)
    (hkept : (s.startBlock b).baseFeeWei ≤ (s.runBlock b).baseFeeWei) :
    (∀ kind, s.minBaseFeeWei ≤ (s.runBlock b).commitMultiGasFees.currentFees kind ∧
        (s.runBlock b).commitMultiGasFees.currentFees kind ≤ (s.runBlock b).baseFeeWei) ∧
      ∀ (later : L2PricingState) (gasUsed : MultiGas), gasUsed.gas .singleDim = 0 →
        (0 < s.minBaseFeeWei ∨ later.baseFeeWei ≤ (s.runBlock b).baseFeeWei) →
        let multiCost := later.multiDimensionalPriceForRefundWithFees gasUsed
          (s.runBlock b).commitMultiGasFees.getCurrentMultiGasFees
        multiCost.toNat ≤ (s.runBlock b).baseFeeWei.toNat * gasUsed.sum ∧
          multiCost ≤ satMul256 (s.runBlock b).baseFeeWei gasUsed.sum := by
  have hfees := currentFees_next_block hmodel hstill
  have hbounds : ∀ kind, s.minBaseFeeWei ≤ (s.runBlock b).commitMultiGasFees.currentFees kind ∧
      (s.runBlock b).commitMultiGasFees.currentFees kind ≤ (s.runBlock b).baseFeeWei := by
    intro kind
    rw [hfees]
    refine ⟨minBaseFee_le_calcBaseFee _, BitVec.le_trans (nextFees_le_baseFee _ _ kind) ?_⟩
    rwa [startBlock_of_multi hmodel b] at hkept
  refine ⟨hbounds, fun later gasUsed hsingle hlive => ?_⟩
  have hfee : ∀ kind, gasUsed.gas kind ≠ 0 →
      later.refundFee (s.runBlock b).commitMultiGasFees.getCurrentMultiGasFees kind ≤
        (s.runBlock b).baseFeeWei := by
    intro kind hne
    have hkind : kind ≠ .singleDim := fun he => hne (he ▸ hsingle)
    rw [refundFee, if_neg hkind, getCurrentMultiGasFees, if_neg hkind]
    split
    · next hzero =>
      -- Only a minimum of zero leaves a resource without a fee.
      refine hlive.resolve_left fun hpos => ?_
      have hle := (hbounds kind).1
      rw [hzero] at hle
      exact Nat.lt_irrefl _ ((BitVec.lt_def.mp hpos).trans_le (BitVec.le_def.mp hle))
    · exact (hbounds kind).2
  have hcost := price_le hfee
  refine ⟨hcost, ?_⟩
  rw [BitVec.le_def, toNat_satMul256]
  exact le_min hcost (toNat_le_u256Max _)

/-- One constraint on computation, with a backlog. -/
def sampleState : L2PricingState :=
  { arbosVersion := 60, speedLimitPerSecond := 7000000, perBlockGasLimit := 32000000
    baseFeeWei := 100, minBaseFeeWei := 100, gasBacklog := 0, pricingInertia := 102
    backlogTolerance := 10, perTxGasLimit := 32000000, gasConstraints := []
    multiGasConstraints := [⟨100, 10, 5000, 1, fun kind => if kind = .computation then 1 else 0⟩]
    nextFees := fun _ => 100, currentFees := fun _ => 100 }

/-- A block that leaves the base fee alone. -/
theorem base_fee_bounds_resource_fees_sample :
    (sampleState.runBlock ⟨1, []⟩).commitMultiGasFees.currentFees .computation ≤
        (sampleState.runBlock ⟨1, []⟩).baseFeeWei ∧
      (100 : U256) < (sampleState.runBlock ⟨1, []⟩).baseFeeWei :=
  ⟨((base_fee_bounds_resource_fees (s := sampleState) (b := ⟨1, []⟩) (by decide) (by decide)
    (BitVec.le_refl _)).1 .computation).2, by decide +kernel⟩

/-- The chain owner lowers the base fee after the update: the next block charges more for
    computation than its base fee, and a transaction pays less for its gas than the resources
    cost. -/
theorem owner_lowers_base_fee :
    let s' := sampleState.runBlock ⟨1, [.setBaseFeeWei 1]⟩
    let gasUsed : MultiGas := ⟨fun kind => if kind = .computation then 21000 else 0⟩
    sampleState.gasModelToUse = .multiGasConstraints ∧
      s'.gasModelToUse = .multiGasConstraints ∧
      sampleState.minBaseFeeWei.toNat * 2 ^ 64 < 2 ^ 256 ∧
      s'.baseFeeWei < s'.commitMultiGasFees.currentFees .computation ∧
      satMul256 s'.baseFeeWei gasUsed.sum <
        s'.multiDimensionalPriceForRefundWithFees gasUsed
          s'.commitMultiGasFees.getCurrentMultiGasFees := by
  decide +kernel

end L2PricingState

end Arbreth.L2Pricing
