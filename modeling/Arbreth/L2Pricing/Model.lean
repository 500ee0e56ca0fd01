/-
  The L2 price of gas (arbos, l2_pricing/mod.rs, model.rs, gas_constraint.rs,
  multi_gas_constraint.rs, multi_gas_fees.rs).

  Three models set the base fee at the start of a block from the gas backlog: one backlog with a
  tolerance, a list of constraints with a backlog each, or, from version 60 on, constraints that
  weigh the kinds of resources and give each kind a fee of its own. In all three an exponent is
  the backlog over what the chain should work off in a window, and the fee is the minimum fee
  times the exponential of it.

  The stored fields are modelled as a record, the constraint vectors as lists. The exponents are
  `i64` in the source; none of the values that enter them is negative, so they are naturals, the
  casts and sums saturate at `i64::MAX`, and the closing `max(0)` changes nothing.
-/
import Arbreth.Stylus.Programs

namespace Arbreth.L2Pricing

open Arbreth.Lib
open Arbreth.Stylus (approxExpBasisPoints)

/-! ## Resources -/

/-- `ResourceKind`. -/
inductive ResourceKind where
  | unknown
  | computation
  | historyGrowth
  | storageAccessRead
  | storageAccessWrite
  | storageGrowth
  | singleDim
  | l2Calldata
  | wasmComputation
  deriving DecidableEq, Repr

/-- `ResourceKind::ALL`. -/
def ResourceKind.all : List ResourceKind :=
  [.unknown, .computation, .historyGrowth, .storageAccessRead, .storageAccessWrite,
    .storageGrowth, .singleDim, .l2Calldata, .wasmComputation]

theorem ResourceKind.mem_all (k : ResourceKind) : k ∈ all := by
  cases k <;> decide

/-- `MultiGas`: the gas used of each kind. -/
structure MultiGas where
  gas : ResourceKind → Nat

/-- The sum over all kinds. -/
def MultiGas.sum (g : MultiGas) : Nat := (ResourceKind.all.map g.gas).sum

/-! ## The stored state -/

/-- `GasConstraint`. -/
structure GasConstraint where
  target : Nat
  adjustmentWindow : Nat
  backlog : Nat
  deriving DecidableEq

/-- `MultiGasConstraint`. -/
structure MultiGasConstraint where
  target : Nat
  adjustmentWindow : Nat
  backlog : Nat
  maxWeight : Nat
  weights : ResourceKind → Nat

/-- `L2PricingState`, with the two sets of fees of `MultiGasFees`. -/
structure L2PricingState where
  arbosVersion : Nat
  speedLimitPerSecond : Nat
  perBlockGasLimit : Nat
  baseFeeWei : U256
  minBaseFeeWei : U256
  gasBacklog : Nat
  pricingInertia : Nat
  backlogTolerance : Nat
  perTxGasLimit : Nat
  gasConstraints : List GasConstraint
  multiGasConstraints : List MultiGasConstraint
  nextFees : ResourceKind → U256
  currentFees : ResourceKind → U256

/-- `GasModel`. `Unknown` is never chosen, and would count as legacy. -/
inductive GasModel where
  | legacy
  | singleGasConstraints
  | multiGasConstraints
  deriving DecidableEq, Repr

namespace L2PricingState

variable (s : L2PricingState)

/-- `gas_model_to_use`. -/
def gasModelToUse : GasModel :=
  if 60 ≤ s.arbosVersion ∧ 0 < s.multiGasConstraints.length then .multiGasConstraints
  else if 50 ≤ s.arbosVersion ∧ 0 < s.gasConstraints.length then .singleGasConstraints
  else .legacy

end L2PricingState

/-! ## Exponents and fees -/

/-- `i64::MAX`. -/
def i64Max : Nat := 2 ^ 63 - 1

/-- `saturating_cast_to_i64`. -/
def saturatingCastToI64 (n : Nat) : Nat := min n i64Max

/-- `natural_to_bips`. -/
def naturalToBips (n : Nat) : Nat := min (n * 10000) i64Max

/-- `i64::saturating_add` of naturals. -/
def satAddI64 (a b : Nat) : Nat := min (a + b) i64Max

/-- `calc_base_fee_from_exponent`. The product is a plain one, which wraps. -/
def calcBaseFeeFromExponent (minBaseFee : U256) (exponentBips : Nat) : U256 :=
  if exponentBips = 0 then minBaseFee
  else
    let expResult := approxExpBasisPoints exponentBips 4
    let baseFee := minBaseFee * BitVec.ofNat 256 expResult / 10000
    if baseFee < minBaseFee then minBaseFee else baseFee

/-- `BacklogOperation`. -/
inductive BacklogOperation where
  | shrink
  | grow
  deriving DecidableEq, Repr

/-- `apply_gas_delta_op`. -/
def applyGasDeltaOp (op : BacklogOperation) (backlog delta : Nat) : Nat :=
  match op with
  | .grow => satAdd64 backlog delta
  | .shrink => backlog - delta

/-- What a constraint lets off in the time passed: `backlog.saturating_sub(time * target)`. -/
def drained (backlog target timePassed : Nat) : Nat := backlog - satMul64 timePassed target

namespace GasConstraint

variable (c : GasConstraint)

def drain (timePassed : Nat) : GasConstraint :=
  { c with backlog := drained c.backlog c.target timePassed }

/-- The exponent a constraint adds, once its backlog is drained. -/
def exponent : Nat :=
  if 0 < c.backlog then
    let divisor := saturatingCastToI64 (satMul64 c.adjustmentWindow c.target)
    if divisor ≠ 0 then naturalToBips (saturatingCastToI64 c.backlog) / divisor else 0
  else 0

end GasConstraint

namespace MultiGasConstraint

variable (c : MultiGasConstraint)

def drain (timePassed : Nat) : MultiGasConstraint :=
  { c with backlog := drained c.backlog c.target timePassed }

/-- The exponent a constraint adds for one kind. -/
def exponent (kind : ResourceKind) : Nat :=
  if c.backlog = 0 then 0
  else if c.target = 0 ∨ c.adjustmentWindow = 0 ∨ c.maxWeight = 0 then 0
  else
    let divisor := saturatingCastToI64
      (satMul64 c.adjustmentWindow (satMul64 c.target c.maxWeight))
    if divisor = 0 then 0
    else if kind = .singleDim then 0
    else if c.weights kind = 0 then 0
    else naturalToBips (saturatingCastToI64 (satMul64 c.backlog (c.weights kind))) / divisor

/-- `update_backlog` of one constraint: the weighted amounts of all kinds in turn. -/
def updateBacklog (op : BacklogOperation) (gas : MultiGas) : MultiGasConstraint :=
  { c with
    backlog := ResourceKind.all.foldl (fun backlog kind =>
      if c.weights kind = 0 then backlog
      else applyGasDeltaOp op backlog (satMul64 (gas.gas kind) (c.weights kind))) c.backlog }

end MultiGasConstraint

namespace L2PricingState

variable (s : L2PricingState)

/-! ## The update at the start of a block -/

/-- `update_pricing_model_legacy`. The tolerance is a wrapping product; the difference is only
    taken where it is positive. -/
def updatePricingModelLegacy (timePassed : Nat) : L2PricingState :=
  let backlog := drained s.gasBacklog s.speedLimitPerSecond timePassed
  let toleranceLimit := wrap64 (s.backlogTolerance * s.speedLimitPerSecond)
  let divisor := saturatingCastToI64 (satMul64 s.pricingInertia s.speedLimitPerSecond)
  let baseFee :=
    if toleranceLimit < backlog then
      if divisor = 0 then s.minBaseFeeWei
      else calcBaseFeeFromExponent s.minBaseFeeWei
        (naturalToBips (saturatingCastToI64 (backlog - toleranceLimit)) / divisor)
    else s.minBaseFeeWei
  { s with gasBacklog := backlog, baseFeeWei := baseFee }

/-- The sum of the exponents of drained constraints. -/
def totalExponent (constraints : List GasConstraint) : Nat :=
  constraints.foldl (fun total c => satAddI64 total c.exponent) 0

/-- `update_pricing_model_single_constraints`. -/
def updatePricingModelSingleConstraints (timePassed : Nat) : L2PricingState :=
  let constraints := s.gasConstraints.map (·.drain timePassed)
  { s with
    gasConstraints := constraints
    baseFeeWei := calcBaseFeeFromExponent s.minBaseFeeWei (totalExponent constraints) }

/-- `calc_multi_gas_constraints_exponents`, for one kind. -/
def calcMultiGasConstraintsExponents (constraints : List MultiGasConstraint)
    (kind : ResourceKind) : Nat :=
  constraints.foldl (fun total c => satAddI64 total (c.exponent kind)) 0

/-- `update_pricing_model_multi_constraints`: each kind has its fee, and the base fee is the
    largest. -/
def updatePricingModelMultiConstraints (timePassed : Nat) : L2PricingState :=
  let constraints := s.multiGasConstraints.map (·.drain timePassed)
  let fees := fun kind => calcBaseFeeFromExponent s.minBaseFeeWei
    (calcMultiGasConstraintsExponents constraints kind)
  { s with
    multiGasConstraints := constraints
    nextFees := fees
    baseFeeWei := ResourceKind.all.foldl
      (fun largest kind => if largest < fees kind then fees kind else largest) s.minBaseFeeWei }

/-- `update_pricing_model`. -/
def updatePricingModel (timePassed : Nat) : L2PricingState :=
  match s.gasModelToUse with
  | .legacy => s.updatePricingModelLegacy timePassed
  | .singleGasConstraints => s.updatePricingModelSingleConstraints timePassed
  | .multiGasConstraints => s.updatePricingModelMultiConstraints timePassed

/-! ## Within a block -/

/-- `commit_multi_gas_fees`, with `commit_next_to_current`. -/
def commitMultiGasFees : L2PricingState :=
  if s.gasModelToUse = .multiGasConstraints then { s with currentFees := s.nextFees } else s

/-- `update_backlog`. -/
def updateBacklog (op : BacklogOperation) (usedGas : Nat) (usedMultiGas : MultiGas) :
    L2PricingState :=
  match s.gasModelToUse with
  | .legacy => { s with gasBacklog := applyGasDeltaOp op s.gasBacklog usedGas }
  | .singleGasConstraints =>
    { s with
      gasConstraints := s.gasConstraints.map fun c =>
        { c with backlog := applyGasDeltaOp op c.backlog usedGas } }
  | .multiGasConstraints =>
    { s with multiGasConstraints := s.multiGasConstraints.map (·.updateBacklog op usedMultiGas) }

/-- `STORAGE_READ_COST`. -/
def storageReadCost : Nat := 800

/-- `STORAGE_WRITE_COST`. -/
def storageWriteCost : Nat := 20000

/-- `MULTI_CONSTRAINT_STATIC_BACKLOG_UPDATE_COST`. -/
def staticBacklogUpdateCost : Nat := 20800

/-- `backlog_update_cost`. The sums and the product are plain ones, which wrap. -/
def backlogUpdateCost : Nat :=
  if 60 ≤ s.arbosVersion then staticBacklogUpdateCost
  else
    let result := if 50 ≤ s.arbosVersion then storageReadCost else 0
    if 51 ≤ s.arbosVersion ∧ 0 < s.gasConstraints.length then
      wrap64 (result + storageReadCost +
        wrap64 (s.gasConstraints.length * (storageReadCost + storageWriteCost)))
    else result + (storageReadCost + storageWriteCost)

/-- `get_current_multi_gas_fees`: the cached fees of the block, zero for the single dimension. -/
def getCurrentMultiGasFees (kind : ResourceKind) : U256 :=
  if kind = .singleDim then 0 else s.currentFees kind

end L2PricingState

/-- The loop of `multi_dimensional_price_for_refund_with_fees`: what is not priced by a cached fee
    is priced at the base fee of the moment. -/
def multiDimensionalPrice (baseFee : U256) (gasUsed : MultiGas) (cachedFees : ResourceKind → U256) :
    U256 :=
  ResourceKind.all.foldl (fun total kind =>
    let amount := gasUsed.gas kind
    if amount = 0 then total
    else
      let fee := if kind = .singleDim then baseFee
        else if cachedFees kind = 0 then baseFee else cachedFees kind
      satAdd256 total (satMul256 fee amount)) 0

/-- `multi_dimensional_price_for_refund_with_fees`. -/
def L2PricingState.multiDimensionalPriceForRefundWithFees (s : L2PricingState) (gasUsed : MultiGas)
    (cachedFees : ResourceKind → U256) : U256 :=
  multiDimensionalPrice s.baseFeeWei gasUsed cachedFees

end Arbreth.L2Pricing
