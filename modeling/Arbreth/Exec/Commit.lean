/-
  `commit_transaction` (arb-evm, build.rs).

  The stages in the source's order: the run's state changes, the tip, the Stylus data fee, the
  sweep of a cancelled ticket's escrow, the burn of withdrawn value, the charge for gas the EVM
  did not sell, the end of a redemption or the distribution of fees, the block gas budget and
  the deletion of empty accounts. Receipts and the backlog of the gas price are left out.
-/
import Arbreth.Exec.Execute

namespace Arbreth.Exec

open Arbreth.Lib Arbreth.Tx
open Arbreth.L2Pricing (multiDimensionalPrice)

def arbsysAddress : Address := 0x64

def l2ToL1TxTopic : B256 := 0x3e7aafa77dbf186b7fd488006beff893744caa3c4f6f299e8a709fa2087374fc

/-- The call values of the `L2ToL1Tx` logs. -/
def withdrawals (r : TxResult) : List U256 :=
  if r.success then
    r.logs.filterMap fun log =>
      if log.address = arbsysAddress ∧ log.topics.head? = some l2ToL1TxTopic ∧
          160 ≤ log.data.length then
        some (BitVec.ofNat 256 (beNat ((log.data.drop 128).take 32)))
      else none
  else []

/-- `refresh_state_params`. -/
def refreshStateParams (s : Executor) : Option StateParams → Executor
  | none => s
  | some p =>
    { s with
      ctx := { s.ctx with
        networkFeeAccount := p.networkFeeAccount
        infraFeeAccount := p.infraFeeAccount
        minBaseFee := p.minBaseFee
        brotliCompressionLevel := p.brotliCompressionLevel }
      hooks := s.hooks.map fun h =>
        { h with
          networkFeeAccount := p.networkFeeAccount
          infraFeeAccount := p.infraFeeAccount
          minBaseFee := p.minBaseFee
          calldataPricingIncreaseEnabled := p.calldataPricingIncreaseEnabled
          collectTipsEnabled := p.collectTipsEnabled } }

/-- Move the tip revm paid to the coinbase on to the network account. -/
def redirectTip (s : Executor) (p : Pending) (gasUsed : Nat) : Executor :=
  let tip := satMul256 (BitVec.ofNat 256 p.coinbaseTipPerGas) (gasUsed - p.posterGas)
  if p.cappedGasPrice = false ∧ 0 < p.coinbaseTipPerGas ∧ 0 < gasUsed ∧
      s.ctx.coinbase ≠ s.ctx.networkFeeAccount ∧ tip ≠ 0 ∧
      ¬ s.world.getBalance s.ctx.coinbase < tip then
    s.pay s.ctx.coinbase s.ctx.networkFeeAccount tip
  else s

/-- The Stylus data fee, from the sender to the network account. -/
def payStylusDataFee (s : Executor) (p : Pending) : Executor :=
  if p.stylusDataFee ≠ 0 then
    let w := burnBalance s.world p.sender p.stylusDataFee
    { s with world := mintBalance w s.ctx.networkFeeAccount p.stylusDataFee }.touch
      [p.sender, s.ctx.networkFeeAccount]
  else s

/-- The sweep `take_cancel_escrow_sweep` asks for: the escrow's whole balance. -/
def sweepCancelled (s : Executor) : Executor :=
  match s.cancelEscrowSweep with
  | none => s
  | some (escrow, beneficiary) =>
    { s with cancelEscrowSweep := none }.doTransfer escrow beneficiary (s.world.getBalance escrow)

/-- Withdrawn value leaves the ArbSys account. -/
def burnWithdrawn (s : Executor) (value : U256) : Executor :=
  if value ≠ 0 then
    { s with world := burnBalance s.world arbsysAddress value }.touch [arbsysAddress]
  else s

/-- Charge the sender for the gas revm did not sell. -/
def chargeExtraGas (s : Executor) (p : Pending) (gasUsed : Nat) : Executor :=
  let extraGas := gasUsed - p.evmGasUsed
  if 0 < extraGas then
    { s with world := burnBalance s.world p.sender (satMul256 p.actualGasPrice extraGas) }.touch
      [p.sender]
  else s

/-- The burn closure of a redemption's end. -/
def burnFrom (s : Executor) (a : Address) (amount : U256) : Executor :=
  { s with world := s.world.applyBurn a amount }.touch [a]

/-- What the gas of a transaction costs at the fees of the block and the base fee of the moment. -/
def multiCost (s : Executor) (p : Pending) : U256 :=
  multiDimensionalPrice s.world.baseFeeWei p.chargedMultiGas s.multiGasCurrentFees

/-- The parameters of a redemption's end. -/
def retryEndParams (s : Executor) (p : Pending) (c : RetryContext) (r : TxResult) :
    EndTxRetryableParams where
  gasLeft := p.txGasLimit - r.gasUsed
  gasUsed := r.gasUsed
  effectiveBaseFee := s.ctx.basefee
  sender := p.sender
  refundTo := c.refundTo
  maxRefund := c.maxRefund
  submissionFeeRefund := c.submissionFeeRefund
  success := r.success
  networkFeeAccount := s.ctx.networkFeeAccount
  infraFeeAccount := s.ctx.infraFeeAccount
  minBaseFee := s.ctx.minBaseFee
  arbosVersion := s.ctx.arbosVersion
  multiDimensionalCost := if 60 ≤ s.ctx.arbosVersion then some (multiCost s p) else none
  blockBaseFee := s.ctx.basefee

/-- The end of a redemption: refunds, then the ticket is deleted or gets its value back. -/
def settleRetry (x : Externals) (s : Executor) (p : Pending) (c : RetryContext) (r : TxResult) :
    Executor :=
  match s.hooks with
  | none => s
  | some _ =>
    let s := endTxRetryable burnFrom Executor.doTransfer (retryEndParams s p c r) s
    if r.success then s.deleteRetryable x c.ticketId
    else s.doTransfer p.sender (retryableEscrowAddress x.keccak256 c.ticketId) c.callValue

/-- `apply_fee_distribution`. -/
def applyFeeDistribution (w : World) (dist : EndTxFeeDistribution) : World :=
  let w := mintBalance w dist.networkFeeAccount dist.networkFeeAmount
  let w := mintBalance w dist.infraFeeAccount dist.infraFeeAmount
  mintBalance w dist.posterFeeDestination dist.posterFeeAmount

/-- The refund of ArbOS 60: what the single-dimensional price charged too much. -/
def refundMultiGas (s : Executor) (p : Pending) (networkFeeAccount : Address) (gasUsed : Nat) :
    Executor :=
  let totalCost := satMul256 s.ctx.basefee gasUsed
  if 60 ≤ s.ctx.arbosVersion ∧ multiCost s p < totalCost then
    s.pay networkFeeAccount p.sender (satSub256 totalCost (multiCost s p))
  else s

/-- `compute_end_tx_fees`. -/
def computeEndTxFees (h : Hooks) (gasUsed : Nat) (baseFee : U256) : EndTxFeeDistribution :=
  h.txProc.computeEndTxFeeDistribution
    { gasUsed, baseFee, coinbase := h.coinbase, networkFeeAccount := h.networkFeeAccount
      infraFeeAccount := h.infraFeeAccount, minBaseFee := h.minBaseFee
      arbosVersion := h.arbosVersion }

/-- Fee distribution of a normal transaction. -/
def settleNormal (s : Executor) (p : Pending) (gasUsed : Nat) : Executor :=
  match s.hooks with
  | none => s
  | some h =>
    let dist := computeEndTxFees h gasUsed s.ctx.basefee
    let s := { s with world := applyFeeDistribution s.world dist }
    let s := if dist.networkFeeAmount ≠ 0 then s.touch [dist.networkFeeAccount] else s
    let s := s.touch [dist.infraFeeAccount, dist.posterFeeDestination]
    let s := refundMultiGas s p dist.networkFeeAccount gasUsed
    { s with world := { s.world with
        l1FeesAvailable := satAdd256 s.world.l1FeesAvailable dist.l1FeesToAdd } }

/-- Whether fees are distributed the normal way. -/
def isNormalType (ty : Option ArbTxType) : Bool :=
  ty = none || ty = some .legacy || ty = some .unsigned || ty = some .contract

/-- The block gas budget and the count of user transactions. -/
def chargeBlockGas (s : Executor) (p : Pending) (gasUsed : Nat) : Executor :=
  let adjusted :=
    match s.hooks with
    | some h =>
      if 11 ≤ s.ctx.arbosVersion then h.txProc.scheduledGas.foldl (· - ·) gasUsed else gasUsed
    | none => gasUsed
  let computeUsed := if adjusted < p.posterGas then txGas else max (adjusted - p.posterGas) txGas
  { s with
    blockGasLeft := s.blockGasLeft - computeUsed
    userTxsProcessed := if isUserTx p.arbTxType then s.userTxsProcessed + 1 else s.userTxsProcessed }

/-- Post-execution accounting of a pending transaction. -/
def settle (x : Externals) (s : Executor) (p : Pending) (r : TxResult) : Executor :=
  let s := chargeExtraGas s p r.gasUsed
  let s :=
    match p.retryContext with
    | some c => settleRetry x s p c r
    | none => if isNormalType p.arbTxType then settleNormal s p r.gasUsed else s
  chargeBlockGas s p r.gasUsed

/-- An account EIP-161 counts as empty. -/
def isEmptyAccount : Option Account → Bool
  | some acct => acct.nonce = 0 && acct.balance = 0 && !acct.hasCode
  | none => false

/-- Finalise: touched accounts that are empty and not protected become absent. -/
def finalise (s : Executor) : Executor :=
  let toRemove := s.touchedAccounts.filter fun a =>
    a ∉ s.zombieAccounts && isEmptyAccount (s.world.accounts a)
  { s with
    world := { s.world with
      accounts := fun a => if a ∈ toRemove then none else s.world.accounts a }
    finaliseDeleted := toRemove ++ s.finaliseDeleted
    touchedAccounts := []
    cancelEscrowSweep := none }

/-- The changes of the run: the committed state and refreshed parameters. -/
def commitRun (s : Executor) (r : TxResult) : Executor :=
  let s := { s with pending := none, world := r.state.getD s.world }.touch r.touched
  refreshStateParams s r.dirtyParams

/-- `commit_transaction`. -/
def commitTransaction (x : Externals) (s : Executor) (r : TxResult) : Executor :=
  let pending := s.pending
  let s := commitRun s r
  let s :=
    match pending with
    | some p => payStylusDataFee (redirectTip s p r.gasUsed) p
    | none => s
  let s := sweepCancelled s
  let s := burnWithdrawn s ((withdrawals r).foldl satAdd256 0)
  let s :=
    match pending with
    | some p => settle x s p r
    | none => s
  finalise s

end Arbreth.Exec
