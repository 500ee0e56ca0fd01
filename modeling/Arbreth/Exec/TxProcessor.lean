/-
  Fee computations of the transaction processor (arbos, tx_processor.rs, reverted_tx_gas.rs,
  retryables/mod.rs: submission fee and escrow address).

  The functions that move balances take the moves as arguments, as the source takes closures.
-/
import Arbreth.Lib.Machine

namespace Arbreth.Exec

open Arbreth.Lib

def txGas : Nat := 21000

def batchPosterAddress : Address := 0xa4b000000000000000000073657175656e636572

def l1PricerFundsPoolAddress : Address := 0xa4b00000000000000000000000000000000000f6

/-- `TxProcessor`: the fields the executor reads. A scheduled transaction is kept as the gas
    `decode_retry_tx_gas` reads back from its encoding. -/
structure TxProcessor where
  posterFee : U256
  posterGas : Nat
  computeHoldGas : Nat
  delayedInbox : Bool
  scheduledGas : List Nat
  deriving DecidableEq

/-- `drop_tip_with_collect`. -/
def TxProcessor.dropTipWithCollect (p : TxProcessor) (arbosVersion : Nat) (collectTips : Bool) :
    Bool :=
  if p.delayedInbox then true
  else if arbosVersion = 9 then false
  else if arbosVersion < 60 then true
  else !collectTips

/-! ## The reverted transaction hook -/

/-- `reverted_tx_gas::lookup`. -/
def revertedTxGasLookup (hash : B256) : Option Nat :=
  if hash = 0x58df300a7f04fe31d41d24672786cbe1c58b4f3d8329d0d74392d814dd9f7e40 ∨
      hash = 0xe22b6570bd5e539adb0363602edfc2ceeb979802d7697dcd3b203d2d734176da then
    some 45174
  else none

/-- `RevertedTxAction`. -/
inductive RevertedTxAction where
  | none
  | preRecordedRevert (gasToConsume : Nat)
  | filteredTx
  deriving DecidableEq

/-- `reverted_tx_hook`. -/
def revertedTxHook (txHash : Option B256) (preRecordedGas : Option Nat) (isFiltered : Bool) :
    RevertedTxAction :=
  match txHash with
  | none => .none
  | some hash =>
    match preRecordedGas.orElse fun _ => revertedTxGasLookup hash with
    | some g => .preRecordedRevert (g - txGas)
    | none => if isFiltered then .filteredTx else .none

/-! ## Gas and fees -/

/-- `compute_poster_gas` outside gas estimation. -/
def computePosterGas (posterCost baseFee : U256) : Nat :=
  if baseFee = 0 then 0 else min (posterCost.toNat / baseFee.toNat) u64Max

/-- `EndTxFeeDistribution`. -/
structure EndTxFeeDistribution where
  infraFeeAccount : Address
  infraFeeAmount : U256
  networkFeeAccount : Address
  networkFeeAmount : U256
  posterFeeDestination : Address
  posterFeeAmount : U256
  l1FeesToAdd : U256

/-- `EndTxNormalParams`. -/
structure EndTxNormalParams where
  gasUsed : Nat
  baseFee : U256
  coinbase : Address
  networkFeeAccount : Address
  infraFeeAccount : Address
  minBaseFee : U256
  arbosVersion : Nat

/-- `compute_end_tx_fee_distribution`, without the gas for the backlog. -/
def TxProcessor.computeEndTxFeeDistribution (p : TxProcessor) (a : EndTxNormalParams) :
    EndTxFeeDistribution :=
  let computeGas := a.gasUsed - p.posterGas
  let computeCost := satMul256 a.baseFee computeGas
  let paysInfra := 4 < a.arbosVersion ∧ a.infraFeeAccount ≠ 0
  let infraFee := if a.minBaseFee < a.baseFee then a.minBaseFee else a.baseFee
  let infraFeeAmount := if paysInfra then satMul256 infraFee computeGas else 0
  { infraFeeAccount := a.infraFeeAccount
    infraFeeAmount := infraFeeAmount
    networkFeeAccount := a.networkFeeAccount
    networkFeeAmount := satSub256 computeCost infraFeeAmount
    posterFeeDestination :=
      if a.arbosVersion < 2 then a.coinbase else l1PricerFundsPoolAddress
    posterFeeAmount := p.posterFee
    l1FeesToAdd := if 10 ≤ a.arbosVersion then p.posterFee else 0 }

/-- The `compute_gas_for_backlog` of `compute_end_tx_fee_distribution`. -/
def TxProcessor.computeGasForBacklog (p : TxProcessor) (gasUsed : Nat) (gasPrice : U256) : Nat :=
  if gasPrice = 0 then 0
  else if p.posterGas < gasUsed then gasUsed - p.posterGas
  else gasUsed

/-- `take_funds`: what is left in the pool and what was taken. -/
def takeFunds (pool take : U256) : U256 × U256 :=
  if pool < take then (0, pool) else (pool - take, take)

variable (pool take : U256)

@[simp] theorem toNat_takeFunds_rest : (takeFunds pool take).1.toNat = pool.toNat - take.toNat := by
  unfold takeFunds
  split
  · next h => exact (Nat.sub_eq_zero_of_le (BitVec.le_of_lt h)).symm
  · next h => exact BitVec.toNat_sub_of_le (BitVec.not_lt.mp h)

@[simp] theorem toNat_takeFunds_taken :
    (takeFunds pool take).2.toNat = min pool.toNat take.toNat := by
  unfold takeFunds
  split
  · next h => exact (Nat.min_eq_left (BitVec.le_of_lt h)).symm
  · next h => exact (Nat.min_eq_right (BitVec.not_lt.mp h)).symm

theorem toNat_takeFunds_add :
    (takeFunds pool take).1.toNat + (takeFunds pool take).2.toNat = pool.toNat := by
  rw [toNat_takeFunds_rest, toNat_takeFunds_taken]
  omega

/-! ## End of a redemption -/

section Redemption

variable {σ : Type} (burnFn : σ → Address → U256 → σ)
  (transferFn : σ → Address → Address → U256 → σ)

/-- `refund_with_pool`: the state after both transfers and what is left of the pool. -/
def refundWithPool (s : σ) (refundFrom : Address) (amount maxRefund : U256)
    (refundTo sender : Address) : σ × U256 :=
  let (pool, toRefundAddr) := takeFunds maxRefund amount
  let s := transferFn s refundFrom refundTo toRefundAddr
  let s := transferFn s refundFrom sender (satSub256 amount toRefundAddr)
  (s, pool)

/-- `EndTxRetryableParams`. -/
structure EndTxRetryableParams where
  gasLeft : Nat
  gasUsed : Nat
  effectiveBaseFee : U256
  sender : Address
  refundTo : Address
  maxRefund : U256
  submissionFeeRefund : U256
  success : Bool
  networkFeeAccount : Address
  infraFeeAccount : Address
  minBaseFee : U256
  arbosVersion : Nat
  multiDimensionalCost : Option U256
  blockBaseFee : U256

/-- The submission fee goes back on success; either way it counts against the pool. -/
def refundSubmissionFee (a : EndTxRetryableParams) (s : σ) : σ × U256 :=
  if a.success then
    refundWithPool transferFn s a.networkFeeAccount a.submissionFeeRefund a.maxRefund a.refundTo
      a.sender
  else (s, (takeFunds a.maxRefund a.submissionFeeRefund).1)

/-- The infra account's part of the gas refund: state, pool, and what is left to the network. -/
def refundInfraGas (a : EndTxRetryableParams) (gasRefundAmount : U256) (s : σ) (pool : U256) :
    σ × U256 × U256 :=
  if 11 ≤ a.arbosVersion ∧ a.infraFeeAccount ≠ 0 then
    let infraFee := if a.minBaseFee < a.effectiveBaseFee then a.minBaseFee else a.effectiveBaseFee
    let taken := takeFunds gasRefundAmount (satMul256 infraFee a.gasLeft)
    let r := refundWithPool transferFn s a.infraFeeAccount taken.2 pool a.refundTo a.sender
    (r.1, r.2, taken.1)
  else (s, pool, gasRefundAmount)

/-- The multi-dimensional refund. -/
def refundMultiDimensional (a : EndTxRetryableParams) (singleGasCost : U256) (s : σ) (pool : U256) :
    σ :=
  match a.multiDimensionalCost with
  | some multiCost =>
    if multiCost < singleGasCost ∧ a.effectiveBaseFee = a.blockBaseFee then
      (refundWithPool transferFn s a.networkFeeAccount (satSub256 singleGasCost multiCost) pool
        a.refundTo a.sender).1
    else s
  | none => s

/-- `end_tx_retryable`: the burn of the gas refund and the refunds. Whether the ticket is
    deleted or its value returned to escrow is decided by `success` alone. -/
def endTxRetryable (a : EndTxRetryableParams) (s : σ) : σ :=
  let gasRefundAmount := satMul256 a.effectiveBaseFee a.gasLeft
  let singleGasCost := satMul256 a.effectiveBaseFee a.gasUsed
  let submission := refundSubmissionFee transferFn a (burnFn s a.sender gasRefundAmount)
  let pool := (takeFunds submission.2 singleGasCost).1
  let infra := refundInfraGas transferFn a gasRefundAmount submission.1 pool
  let network := refundWithPool transferFn infra.1 a.networkFeeAccount infra.2.2 infra.2.1 a.refundTo
    a.sender
  refundMultiDimensional transferFn a singleGasCost network.1 network.2

end Redemption

/-! ## Submitting a retryable -/

def retryableLifetimeSeconds : Nat := 7 * 24 * 60 * 60

/-- The ASCII bytes of "retryable escrow". -/
def escrowLabel : Bytes :=
  [0x72, 0x65, 0x74, 0x72, 0x79, 0x61, 0x62, 0x6c, 0x65, 0x20, 0x65, 0x73, 0x63, 0x72, 0x6f, 0x77]

/-- `retryable_escrow_address`. -/
def retryableEscrowAddress (keccak256 : Bytes → B256) (ticketId : B256) : Address :=
  (keccak256 (escrowLabel ++ wordBytes ticketId)).setWidth 160

/-- `retryable_submission_fee`. -/
def retryableSubmissionFee (calldataLength : Nat) (l1BaseFee : U256) : U256 :=
  satMul256 l1BaseFee (1400 + 6 * calldataLength)

/-- `compute_retryable_gas_split`: infra cost and network cost. -/
def computeRetryableGasSplit (gas : Nat) (effectiveBaseFee : U256) (infraFeeAccount : Address)
    (minBaseFee : U256) (arbosVersion : Nat) : U256 × U256 :=
  let gasCost := satMul256 effectiveBaseFee gas
  if 11 ≤ arbosVersion ∧ infraFeeAccount ≠ 0 then
    let infraFee := if minBaseFee < effectiveBaseFee then minBaseFee else effectiveBaseFee
    let (networkCost, infraCost) := takeFunds gasCost (satMul256 infraFee gas)
    (infraCost, networkCost)
  else (0, gasCost)

/-- `SubmitRetryableParams`. -/
structure SubmitRetryableParams where
  ticketId : B256
  sender : Address
  feeRefundAddr : Address
  depositValue : U256
  retryValue : U256
  gasFeeCap : U256
  gas : Nat
  maxSubmissionFee : U256
  retryDataLen : Nat
  l1BaseFee : U256
  effectiveBaseFee : U256
  currentTime : Nat
  balanceAfterMint : U256
  infraFeeAccount : Address
  minBaseFee : U256
  arbosVersion : Nat

/-- Why `compute_submit_retryable_fees` refuses: "insufficient funds for max submission fee:
    have … want …" and "max submission fee … is less than actual …". -/
inductive SubmitError where
  | insufficientFunds (available want : U256)
  | maxFeeBelowActual (max actual : U256)
  deriving DecidableEq

/-- `SubmitRetryableFees`. -/
structure SubmitRetryableFees where
  submissionFee : U256
  submissionFeeRefund : U256 := 0
  timeout : Nat
  canPayForGas : Bool := false
  gasCost : U256 := 0
  infraCost : U256 := 0
  networkCost : U256 := 0
  gasPriceRefund : U256 := 0
  gasCostRefund : U256 := 0
  availableRefund : U256 := 0
  withheldSubmissionFee : U256 := 0
  error : Option SubmitError := none

/-- `compute_submit_retryable_fees`. -/
def computeSubmitRetryableFees (a : SubmitRetryableParams) : SubmitRetryableFees :=
  let submissionFee := retryableSubmissionFee a.retryDataLen a.l1BaseFee
  let timeout := wrap64 (a.currentTime + retryableLifetimeSeconds)
  if a.balanceAfterMint < a.maxSubmissionFee then
    { submissionFee, timeout, error := some (.insufficientFunds a.balanceAfterMint a.maxSubmissionFee) }
  else if a.maxSubmissionFee < submissionFee then
    { submissionFee, timeout, error := some (.maxFeeBelowActual a.maxSubmissionFee submissionFee) }
  else
    let available := (takeFunds a.depositValue a.retryValue).1
    let (available, withheldSubmissionFee) := takeFunds available submissionFee
    let (available, submissionFeeRefund) :=
      takeFunds available (satSub256 a.maxSubmissionFee submissionFee)
    let maxGasCost := satMul256 a.gasFeeCap a.gas
    let balance := satSub256 (satSub256 a.balanceAfterMint submissionFee) a.retryValue
    let balance := if a.feeRefundAddr ≠ a.sender then satSub256 balance submissionFeeRefund else balance
    let canPayForGas :=
      decide (¬ a.gasFeeCap < a.effectiveBaseFee ∧ txGas ≤ a.gas ∧ ¬ balance < maxGasCost)
    let (infraCost, networkCost) := computeRetryableGasSplit a.gas a.effectiveBaseFee
      a.infraFeeAccount a.minBaseFee a.arbosVersion
    let gasCost := satMul256 a.effectiveBaseFee a.gas
    if canPayForGas then
      let gasPriceRefund := satMul256 (satSub256 a.gasFeeCap a.effectiveBaseFee) a.gas
      let (available, withheldGasFunds) := takeFunds available gasCost
      let (available, gasPriceRefund) := takeFunds available gasPriceRefund
      let available := satAdd256 (satAdd256 available withheldGasFunds) withheldSubmissionFee
      { submissionFee, submissionFeeRefund, timeout, canPayForGas, gasCost, infraCost, networkCost,
        gasPriceRefund, availableRefund := available, withheldSubmissionFee }
    else
      let (available, gasCostRefund) := takeFunds available maxGasCost
      { submissionFee, submissionFeeRefund, timeout, canPayForGas, gasCost, infraCost, networkCost,
        gasCostRefund, availableRefund := available, withheldSubmissionFee }

end Arbreth.Exec
