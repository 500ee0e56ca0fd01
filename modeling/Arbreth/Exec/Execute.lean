/-
  `execute_transaction_without_commit` (arb-evm, build.rs).

  Every transaction leaves an executor state and either an error or a result for
  `commit_transaction`. Internal, deposit and submit-retryable transactions never enter the EVM.
  The others share one path: gas charging, the reverted transaction hook, validation of user
  transactions, the EVM run. The calldata units' price cache is left out.
-/
import Arbreth.Exec.Retryables

namespace Arbreth.Exec

open Arbreth.Lib Arbreth.Tx Arbreth.Parse Accessor
open Arbreth.L2Pricing (MultiGas)
open Arbreth.Stylus (addMultiGas oneKind)

/-- The executor afterwards, and what the caller gets. -/
abbrev Outcome := Executor × Except ExecError TxResult

def arbwasmAddress : Address := 0x71

def arbretryabletxAddress : Address := 0x6e

def redeemScheduledTopic : B256 :=
  0x5ccd009502509cf28762c67858994d85b163bb6e451f5e9df7c5e18c9c2e123e

def u128Max : Nat := 2 ^ 128 - 1

/-! ## Gas and prices -/

/-- `is_user_tx`. -/
def isUserTx (ty : Option ArbTxType) : Bool :=
  ty ≠ some .internal && ty ≠ some .deposit && ty ≠ some .submitRetryable && ty ≠ some .retry

/-- `tx_type_has_poster_costs`. -/
def txTypeHasPosterCosts (ty : UInt8) : Bool :=
  ¬ ty ∈ ([0x64, 0x65, 0x66, 0x68, 0x69, 0x6a] : List UInt8)

/-- `estimate_intrinsic_gas`; Shanghai starts with ArbOS 11. -/
def estimateIntrinsicGas (x : Externals) (tx : ArbTransactionSigned) (arbosVersion : Nat) : Nat :=
  let isCreate := (kind tx).isNone
  let data := input tx x.selector
  let gas := txGas + if isCreate then 32000 else 0
  let gas := satAdd64 gas (data.map fun b => if b = 0 then 4 else 16).sum
  let gas := ((accessList tx).getD []).foldl
    (fun gas item => satAdd64 (satAdd64 gas 2400) (satMul64 item.storageKeys.length 1900)) gas
  if 11 ≤ arbosVersion ∧ isCreate ∧ data ≠ [] then
    satAdd64 gas (satMul64 ((data.length + 31) / 32) 2)
  else gas

/-- `tx_floor_data_gas`. -/
def txFloorDataGas (x : Externals) (tx : ArbTransactionSigned) : Nat :=
  let data := input tx x.selector
  let zeroBytes := (data.filter (· = 0)).length
  let tokens := satAdd64 (satMul64 (data.length - zeroBytes) 4) zeroBytes
  satAdd64 txGas (satMul64 tokens 10)

section Charging

variable (x : Externals) (s : Executor) (t : ExecutableTx x)

/-- The calldata floor, zero unless the price increase is enabled. -/
def calldataFloorGas : Nat :=
  match s.hooks with
  | some h => if h.calldataPricingIncreaseEnabled then txFloorDataGas x t.tx else 0
  | none => 0

def baseFeeU128 : Nat := min s.ctx.basefee.toNat u128Max

/-- `drop_tip`, false without hooks. -/
def shouldDropTip : Bool :=
  match s.hooks with
  | some h => h.dropTip
  | none => false

/-- The price the sender pays for poster gas. -/
def actualGasPrice : U256 :=
  let effective :=
    match t.env.gasPriorityFee with
    | some maxPriority => min t.env.gasPrice (min (baseFeeU128 s + maxPriority) u128Max)
    | none => t.env.gasPrice
  if shouldDropTip s ∨ effective = 0 then s.ctx.basefee else BitVec.ofNat 256 effective

/-- Calldata units of a transaction with poster costs: only the batch poster's count. -/
def calldataUnits : Nat :=
  if txTypeHasPosterCosts t.tx.ty ∧ s.ctx.coinbase = batchPosterAddress then
    x.posterUnits t.tx s.ctx.brotliCompressionLevel
  else 0

/-- The poster gas charged. -/
def posterGasFor : Nat :=
  if s.hooks.isSome ∧ txTypeHasPosterCosts t.tx.ty then
    computePosterGas (satMul256 s.ctx.l1PricePerUnit (calldataUnits x s t)) (actualGasPrice x s t)
  else 0

/-- Gas withheld from the EVM to stay within the block or transaction limit. -/
def computeHoldGasFor : Nat :=
  match s.hooks with
  | none => 0
  | some h =>
    if h.isEthCall then 0
    else
      let intrinsic := estimateIntrinsicGas x t.tx s.ctx.arbosVersion
      let gasAfterPoster := gasLimit t.tx - intrinsic - posterGasFor x s t
      let maxCompute :=
        if h.arbosVersion < 50 then h.perBlockGasLimit else h.perTxGasLimit - intrinsic
      if 0 < maxCompute ∧ maxCompute < gasAfterPoster then gasAfterPoster - maxCompute else 0

/-- The action of the reverted transaction hook. -/
def hookAction : RevertedTxAction :=
  match s.hooks with
  | none => .none
  | some _ =>
    revertedTxHook (some (x.trieHash t.tx)) none (s.world.filtered (x.trieHash t.tx))

/-- The effective tip per gas. -/
def effectiveTipPerGas : Nat :=
  let maxMinusBase := t.env.gasPrice - baseFeeU128 s
  match t.env.gasPriorityFee with
  | some maxPriority => min maxPriority maxMinusBase
  | none => maxMinusBase

end Charging

/-- Per-transaction scratch is cleared first. -/
def Executor.resetTx (s : Executor) : Executor :=
  { s with
    cancelEscrowSweep := none
    hooks := s.hooks.map fun h =>
      { h with txProc := { h.txProc with
          posterFee := 0, posterGas := 0, computeHoldGas := 0, scheduledGas := [] } } }

/-- The pending record of a transaction that ends before the EVM. -/
def endedPending (s : Executor) (sender : Address) (gasLimit : Nat) (ty : ArbTxType)
    (evmGasUsed : Nat) : Pending :=
  ⟨sender, gasLimit, some ty, 0, evmGasUsed, oneKind .singleDim evmGasUsed, 0, none, 0, false,
    s.ctx.basefee⟩

/-- A synthetic result with the empty state. -/
def syntheticResult (success : Bool) (gasUsed : Nat) (output : Bytes) : TxResult :=
  ⟨success, gasUsed, output, [], none, [], none⟩

/-! ## Internal transactions -/

/-- One move of an internal transaction. -/
def applyInternalOp (x : Externals) (s : Executor) : InternalOp → Executor
  | .transfer src dst amount => s.doTransfer src dst amount
  | .reap id => s.deleteRetryable x id
  | .prolong id =>
    let t := s.world.tickets id
    let t := { t with
      timeout := wrap64 (t.timeout + retryableLifetimeSeconds)
      timeoutWindowsLeft := t.timeoutWindowsLeft - 1 }
    { s with world := s.world.setTicket id t }

/-- Only the ArbOS address may send one; an error aborts the block. -/
def executeInternal (x : Externals) (s : Executor) (sender : Address) (data : Bytes) : Outcome :=
  if sender ≠ arbosAddress then (s, .error .internalNotFromArbos)
  else if data.length < 4 then
    ({ s with pending := some (endedPending s sender 0 .internal 0) },
      .ok (syntheticResult true 0 []))
  else
    let o := x.internalTx s.ctx s.hooks s.world data
    let s := o.ops.foldl (applyInternalOp x) s
    let s := { s with ctx := o.ctx, hooks := o.hooks
                      world := { s.world with baseFeeWei := o.baseFeeWei } }
    let s := { s with pending := some (endedPending s sender 0 .internal 0) }
    match o.error with
    | some e => (s, .error (.internalTx e))
    | none => (s, .ok (syntheticResult true 0 []))

/-! ## Deposits -/

/-- The ASCII bytes of "filtered transaction". -/
def filteredOutput : Bytes :=
  [0x66, 0x69, 0x6c, 0x74, 0x65, 0x72, 0x65, 0x64, 0x20, 0x74, 0x72, 0x61, 0x6e, 0x73, 0x61, 0x63,
    0x74, 0x69, 0x6f, 0x6e]

/-- Mint to the sender, transfer to the recipient; a filtered deposit goes to the recipient of
    filtered funds and has a failed receipt. A deposit always has a recipient. -/
def executeDeposit (x : Externals) (s : Executor) (t : ExecutableTx x) (d : ArbDepositTx) : Outcome :=
  let isFiltered := s.world.filtered (x.trieHash t.tx)
  let dst := if isFiltered then s.world.filteredFundsRecipient else d.toAddr
  let w := mintBalance s.world t.sender d.value
  let w := transferBalance w t.sender dst d.value
  let s := { s with
    world := w
    pending := some (endedPending s t.sender 0 .deposit 0) }
  let s := s.touch [t.sender, dst]
  (s, .ok (if isFiltered then syntheticResult false 0 filteredOutput else syntheticResult true 0 []))

/-! ## Submitting a retryable -/

/-- The gas fees of a submitted retryable that pays for its redemption. -/
def payGas (s : Executor) (sender feeRefundAddr : Address) (fees : SubmitRetryableFees) : Executor :=
  let s :=
    if s.ctx.infraFeeAccount ≠ 0 then s.pay sender s.ctx.infraFeeAccount fees.infraCost else s
  let s :=
    if fees.networkCost ≠ 0 then s.pay sender s.ctx.networkFeeAccount fees.networkCost else s
  s.pay sender feeRefundAddr fees.gasPriceRefund

/-- Schedule the redemption: count the try and remember the gas of the retry transaction. -/
def scheduleRedeem (s : Executor) (ticketId : B256) (gas : Nat) : Executor :=
  match openRetryable s.ctx.arbosVersion s.world ticketId 0 with
  | some t =>
    { s with
      world := s.world.setTicket ticketId { t with numTries := wrap64 (t.numTries + 1) }
      hooks := s.hooks.map fun h =>
        { h with txProc := { h.txProc with scheduledGas := h.txProc.scheduledGas ++ [gas] } } }
  | none => s

/-- The ticket itself, with its touched escrow. -/
def createTicket (x : Externals) (s : Executor) (i : ArbSubmitRetryableTx) (ticketId : B256)
    (timeout : Nat) (beneficiary : Address) : Executor :=
  let escrow := retryableEscrowAddress x.keccak256 ticketId
  let w := if i.retryValue = 0 then s.world.materialiseEmpty escrow else s.world
  let w := w.createRetryable ticketId timeout i.sender i.retryTo i.retryValue beneficiary i.retryData
  { s with world := w }.touch [i.sender, escrow]

/-- The last steps, once the call value is in escrow. A filtered ticket is not redeemed. -/
def createSubmitted (x : Externals) (s : Executor) (i : ArbSubmitRetryableTx) (ticketId : B256)
    (feeRefundAddr beneficiary : Address) (fees : SubmitRetryableFees) (isFiltered : Bool) : Outcome :=
  let s := createTicket x s i ticketId fees.timeout beneficiary
  let s :=
    if fees.canPayForGas then
      let s := payGas s i.sender feeRefundAddr fees
      if isFiltered then s else scheduleRedeem s ticketId i.gas
    else if fees.gasCostRefund ≠ 0 then s.pay i.sender feeRefundAddr fees.gasCostRefund
    else s
  -- The gas was paid above, so that committing must not charge for it again.
  let gasUsed := if fees.canPayForGas then i.gas else 0
  ({ s with pending := some (endedPending s i.sender i.gas .submitRetryable gasUsed) },
    .ok (syntheticResult (!isFiltered) gasUsed (wordBytes ticketId)))

/-- The fees and the error of a submission, read off the state after the deposit was minted. -/
def submitFees (s : Executor) (i : ArbSubmitRetryableTx) (ticketId : B256) (feeRefundAddr : Address) :
    SubmitRetryableFees :=
  computeSubmitRetryableFees
    { ticketId, sender := i.sender, feeRefundAddr, depositValue := i.depositValue,
      retryValue := i.retryValue, gasFeeCap := i.gasFeeCap, gas := i.gas,
      maxSubmissionFee := i.maxSubmissionFee, retryDataLen := i.retryData.length,
      l1BaseFee := i.l1BaseFee, effectiveBaseFee := s.ctx.basefee,
      currentTime := s.ctx.blockTimestamp, balanceAfterMint := s.world.getBalance i.sender,
      infraFeeAccount := s.ctx.infraFeeAccount, minBaseFee := s.ctx.minBaseFee,
      arbosVersion := s.ctx.arbosVersion }

/-- A refused submission still ends with a receipt. -/
def submitRefused (s : Executor) (i : ArbSubmitRetryableTx) : Outcome :=
  ({ s with pending := some (endedPending s i.sender i.gas .submitRetryable 0) },
    .ok (syntheticResult false 0 []))

/-- Submission fee and call value; without funds for the value the fee goes back. -/
def paySubmission (x : Externals) (s : Executor) (i : ArbSubmitRetryableTx) (ticketId : B256)
    (feeRefundAddr beneficiary : Address) (fees : SubmitRetryableFees) (isFiltered : Bool) : Outcome :=
  let s :=
    if fees.submissionFee ≠ 0 then s.pay i.sender s.ctx.networkFeeAccount fees.submissionFee else s
  let s := s.pay i.sender feeRefundAddr fees.submissionFeeRefund
  let escrow := retryableEscrowAddress x.keccak256 ticketId
  match applyBalanceOp s.world (some i.sender) (some escrow) i.retryValue with
  | .error _ =>
    let s := s.touch [i.sender, escrow]
    let s := s.pay s.ctx.networkFeeAccount i.sender fees.submissionFee
    submitRefused (s.pay i.sender feeRefundAddr fees.withheldSubmissionFee) i
  | .ok w =>
    createSubmitted x { s with world := w } i ticketId feeRefundAddr beneficiary fees isFiltered

/-- `execute_submit_retryable`. -/
def executeSubmitRetryable (x : Externals) (s : Executor) (ticketId : B256)
    (i : ArbSubmitRetryableTx) : Outcome :=
  let isFiltered := s.world.filtered ticketId
  let feeRefundAddr := if isFiltered then s.world.filteredFundsRecipient else i.feeRefundAddr
  let beneficiary := if isFiltered then s.world.filteredFundsRecipient else i.beneficiary
  let s := { s with world := mintBalance s.world i.sender i.depositValue }.touch [i.sender]
  let fees := submitFees s i ticketId feeRefundAddr
  if fees.error.isSome then submitRefused s i
  else paySubmission x s i ticketId feeRefundAddr beneficiary fees isFiltered

/-! ## Retry transactions -/

/-- What rolling a retry back takes from its sender: `retry_pre_exec_undo`. -/
structure RetryUndo where
  sender : Address
  prepaid : U256
  escrow : Address
  escrowValue : U256

/-- How the preparation of a retry ends. -/
inductive RetryStart where
  | ended (outcome : Outcome)
  | started (s : Executor) (context : RetryContext) (undo : RetryUndo)

/-- Open the ticket, move its call value out of escrow, mint the prepaid gas. The messages of
    the two early ends are left out of the result. -/
def startRetry (x : Externals) (s : Executor) (sender : Address) (i : ArbRetryTx) : RetryStart :=
  let ended (s : Executor) : RetryStart :=
    .ended ({ s with pending := some (endedPending s sender 0 .retry 0) },
      .ok (syntheticResult false 0 []))
  match openRetryable s.ctx.arbosVersion s.world i.ticketId s.ctx.blockTimestamp with
  | none => ended s
  | some _ =>
    let escrow := retryableEscrowAddress x.keccak256 i.ticketId
    let s :=
      if i.value = 0 ∧ s.ctx.arbosVersion < 30 then s.createZombieIfDeleted escrow else s
    match applyBalanceOp s.world (some escrow) (some sender) i.value with
    | .error _ => ended s
    | .ok w =>
      let s := { s with world := w }
      let s := if i.value ≠ 0 then s.unzombie escrow else s
      let s := (s.unzombie sender).touch [escrow, sender]
      let prepaid := satMul256 s.ctx.basefee i.gas
      .started { s with world := mintBalance s.world sender prepaid }
        ⟨i.ticketId, i.refundTo, i.maxRefund, i.submissionFeeRefund, i.value⟩
        ⟨sender, prepaid, escrow, i.value⟩

/-! ## The EVM path -/

/-- Record the charged poster gas and the held gas with the hooks. -/
def chargeHooks (x : Externals) (s : Executor) (t : ExecutableTx x) : Executor :=
  { s with hooks := s.hooks.map fun h =>
      { h with txProc := { h.txProc with
          posterFee := satMul256 (actualGasPrice x s t) (posterGasFor x s t)
          posterGas := posterGasFor x s t
          computeHoldGas := computeHoldGasFor x s t } } }

/-- Gas charging also counts the calldata units. -/
def chargeGas (x : Externals) (s : Executor) (t : ExecutableTx x) : Executor :=
  let w := { s.world with
    unitsSinceUpdate := satAdd64 s.world.unitsSinceUpdate (calldataUnits x s t) }
  { chargeHooks x s t with world := w }

/-- `rollback_pre_exec_state`. -/
def rollbackPreExecState (s : Executor) (units : Nat) (undo : Option RetryUndo) : Executor :=
  let w := { s.world with unitsSinceUpdate := s.world.unitsSinceUpdate - units }
  let w :=
    match undo with
    | some u => transferBalance (burnBalance w u.sender u.prepaid) u.sender u.escrow u.escrowValue
    | none => w
  { s with world := w, cancelEscrowSweep := none }

/-- The end of a transaction the hook reverts: the sender's nonce moves, no EVM runs. -/
def forceRevert (x : Externals) (s : Executor) (t : ExecutableTx x) (retry : Option RetryContext)
    (posterGas gasUsed computation : Nat) (output : Bytes) : Outcome :=
  let s := { s with
    world := s.world.incrementNonce t.sender
    pending := some ⟨t.sender, gasLimit t.tx, ArbTxType.fromU8 t.tx.ty, posterGas, 0,
      addMultiGas (oneKind .singleDim posterGas) (oneKind .computation computation), 0,
      retry, 0, false, s.ctx.basefee⟩ }
  (s.touch [t.sender], .ok (syntheticResult false gasUsed output))

/-- The validation of user transactions. -/
def validateUserTx (x : Externals) (s : Executor) (t : ExecutableTx x) : Except ExecError Unit :=
  let gasLimit := gasLimit t.tx
  let balance := s.world.getBalance t.sender
  let nonce := s.world.getNonce t.sender
  let totalCost := satAdd256 (BitVec.ofNat 256 (gasLimit * t.env.gasPrice)) t.env.value
  if ArbTxType.fromU8 t.tx.ty ≠ some .contract ∧ t.env.nonce ≠ nonce then
    .error (.nonceMismatch t.sender t.env.nonce nonce)
  else if t.env.gasPrice < s.ctx.basefee.toNat then
    .error (.feeBelowBaseFee t.sender t.env.gasPrice s.ctx.basefee)
  else if balance < totalCost then .error (.insufficientFunds t.sender balance totalCost)
  else if gasLimit < calldataFloorGas x s t then
    .error (.floorDataGas t.sender gasLimit (calldataFloorGas x s t))
  else .ok ()

/-- The environment revm gets: gas without the poster's and the held part, the price without a
    dropped tip, the state's nonce where none is checked, and no value for a call of ArbWasm. -/
def evmInput (x : Externals) (s : Executor) (t : ExecutableTx x) (retry : Option RetryContext)
    (posterGas holdGas : Nat) : EvmInput :=
  let ty := ArbTxType.fromU8 t.tx.ty
  let deduction := satAdd64 posterGas holdGas
  let capped := shouldDropTip s ∧ baseFeeU128 s < t.env.gasPrice
  let toArbWasm := kind t.tx = some arbwasmAddress
  { env := { t.env with
      gasLimit := t.env.gasLimit - deduction
      gasPrice := if capped then baseFeeU128 s else t.env.gasPrice
      gasPriorityFee := if capped then some 0 else t.env.gasPriorityFee
      nonce :=
        if ty = some .retry ∨ ty = some .contract then s.world.getNonce t.sender else t.env.nonce
      value := if toArbWasm then 0 else t.env.value }
    basefee := s.ctx.basefee
    retryableId := match retry with
      | some c => c.ticketId
      | none => 0
    stylusCallValue := if toArbWasm then value t.tx else 0
    posterBalanceCorrection := min (satMul256 (actualGasPrice x s t) deduction).toNat u128Max }

/-- The gas donated to the redemptions a run scheduled: the `RedeemScheduled` logs whose ticket
    is open in the state before the run's changes are committed. -/
def scheduledRedeems (s : Executor) (out : EvmOutput) : List Nat :=
  if out.success then
    out.logs.filterMap fun log =>
      match log.topics with
      | topic :: ticketId :: _ :: _ :: _ =>
        if log.address = arbretryabletxAddress ∧ topic = redeemScheduledTopic ∧
            128 ≤ log.data.length then
          (openRetryable s.ctx.arbosVersion s.world ticketId s.ctx.blockTimestamp).map fun _ =>
            beNat (log.data.take 32)
        else none
      | _ => none
  else []

/-- The receipt's gas: the EVM's and the poster's, at least the calldata floor. -/
def receiptGas (evmGasUsed posterGas floor : Nat) : Nat :=
  let gas := if 0 < posterGas then satAdd64 evmGasUsed posterGas else evmGasUsed
  if gas < floor then satAdd64 gas (floor - gas) else gas

/-- `charged_multi_gas`: what lifts the gas to the calldata floor counts as calldata. -/
def chargedMultiGas (executed : MultiGas) (evmGasUsed posterGas floor : Nat) : MultiGas :=
  let charged := addMultiGas (oneKind .singleDim posterGas) executed
  if receiptGas evmGasUsed posterGas 0 < floor then
    addMultiGas charged (oneKind .l2Calldata (floor - charged.sum))
  else charged

/-- After a successful return of revm. -/
def finishEvm (x : Externals) (s : Executor) (t : ExecutableTx x) (retry : Option RetryContext)
    (posterGas : Nat) (out : EvmOutput) : Outcome :=
  let gasUsed := receiptGas out.gasUsed posterGas (calldataFloorGas x s t)
  let scheduled := scheduledRedeems s out
  let s := { s with
    cancelEscrowSweep := out.cancelEscrowSweep
    hooks := s.hooks.map fun h =>
      { h with txProc := { h.txProc with scheduledGas := h.txProc.scheduledGas ++ scheduled } }
    pending := some ⟨t.sender, gasLimit t.tx, ArbTxType.fromU8 t.tx.ty, posterGas,
      out.gasUsed, chargedMultiGas out.multiGas out.gasUsed posterGas (calldataFloorGas x s t),
      out.stylusDataFee, retry, effectiveTipPerGas x s t, shouldDropTip s, actualGasPrice x s t⟩ }
  (s, .ok ⟨out.success, gasUsed, [], if out.success then out.logs else [], some out.world,
    out.touched, out.dirtyParams⟩)

/-- Validation and the EVM run, once the hook has let the transaction through. -/
def validateAndRun (x : Externals) (s : Executor) (t : ExecutableTx x) (retry : Option RetryContext)
    (undo : Option RetryUndo) (units posterGas holdGas : Nat) : Outcome :=
  let validated := if isUserTx (ArbTxType.fromU8 t.tx.ty) then validateUserTx x s t else .ok ()
  match validated with
  | .error e => (rollbackPreExecState s units undo, .error e)
  | .ok () =>
    match x.evm (evmInput x s t retry posterGas holdGas) s.world with
    | .error e => (rollbackPreExecState s units undo, .error (.evm e))
    | .ok out => finishEvm x s t retry posterGas out

/-- The path of every transaction that may enter the EVM. -/
def executeEvm (x : Externals) (s : Executor) (t : ExecutableTx x) (retry : Option RetryContext)
    (undo : Option RetryUndo) : Outcome :=
  let gasLimit := gasLimit t.tx
  let posterGas := posterGasFor x s t
  if isUserTx (ArbTxType.fromU8 t.tx.ty) ∧ s.ctx.arbosVersion < 50 ∧ 0 < s.userTxsProcessed ∧
      s.blockGasLeft < max (gasLimit - posterGas) txGas then
    (chargeHooks x s t, .error .blockGasLimitReached)
  else
    match hookAction x s t with
    | .preRecordedRevert gasToConsume =>
      let intrinsic := estimateIntrinsicGas x t.tx s.ctx.arbosVersion
      forceRevert x (chargeGas x s t) t retry posterGas
        (satAdd64 (satAdd64 intrinsic gasToConsume) posterGas) gasToConsume []
    | .filteredTx =>
      forceRevert x (chargeGas x s t) t retry posterGas gasLimit
        (gasLimit - posterGas - computeHoldGasFor x s t) filteredOutput
    | .none =>
      validateAndRun x (chargeGas x s t) t retry undo (calldataUnits x s t) posterGas
        (computeHoldGasFor x s t)

/-- `execute_transaction_without_commit`. -/
def executeTransactionWithoutCommit (x : Externals) (s : Executor) (t : ExecutableTx x) : Outcome :=
  if isUserTx (ArbTxType.fromU8 t.tx.ty) ∧ s.blockGasLeft < txGas then
    (s, .error .blockGasLimitReached)
  else
    let s := s.resetTx
    match t.tx.transaction with
    | .internal i => executeInternal x s t.sender i.data
    | .deposit d => executeDeposit x s t d
    | .submitRetryable i => executeSubmitRetryable x s (x.trieHash t.tx) i
    | .retry i =>
      match startRetry x s t.sender i with
      | .ended outcome => outcome
      | .started s context undo => executeEvm x s t (some context) (some undo)
    | _ => executeEvm x s t none none

end Arbreth.Exec
