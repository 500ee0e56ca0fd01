/-
  The block executor's state and what it runs on (arb-evm, build.rs, executor.rs, context.rs).

  `Externals` collects what the executor calls: revm (`evm`), keccak256, signature recovery,
  brotli (through `posterUnits`), and the updates of internal transactions, which reach accounts
  and tickets only through the moves listed in `InternalOp`. The split of a run's gas by resource
  comes with the run.
-/
import Arbreth.Exec.TxProcessor
import Arbreth.Exec.World
import Arbreth.Parse.TxEnv
import Arbreth.Stylus.SStore

namespace Arbreth.Exec

open Arbreth.Lib Arbreth.Tx Arbreth.Parse
open Arbreth.L2Pricing (MultiGas ResourceKind)

/-- `ArbBlockExecutionCtx`: the fields read while executing transactions. -/
structure BlockCtx where
  blockTimestamp : Nat
  basefee : U256
  l1PricePerUnit : U256
  brotliCompressionLevel : Nat
  arbosVersion : Nat
  networkFeeAccount : Address
  infraFeeAccount : Address
  minBaseFee : U256
  coinbase : Address
  deriving DecidableEq

/-- `DefaultArbOsHooks`. -/
structure Hooks where
  txProc : TxProcessor
  arbosVersion : Nat
  networkFeeAccount : Address
  infraFeeAccount : Address
  minBaseFee : U256
  perBlockGasLimit : Nat
  perTxGasLimit : Nat
  coinbase : Address
  isEthCall : Bool
  calldataPricingIncreaseEnabled : Bool
  collectTipsEnabled : Bool
  deriving DecidableEq

/-- `drop_tip`. -/
def Hooks.dropTip (h : Hooks) : Bool := h.txProc.dropTipWithCollect h.arbosVersion h.collectTipsEnabled

/-- `PendingRetryContext`. -/
structure RetryContext where
  ticketId : B256
  refundTo : Address
  maxRefund : U256
  submissionFeeRefund : U256
  callValue : U256
  deriving DecidableEq

/-- `PendingArbTx`. -/
structure Pending where
  sender : Address
  txGasLimit : Nat
  arbTxType : Option ArbTxType
  posterGas : Nat
  evmGasUsed : Nat
  chargedMultiGas : MultiGas
  stylusDataFee : U256
  retryContext : Option RetryContext
  coinbaseTipPerGas : Nat
  cappedGasPrice : Bool
  actualGasPrice : U256

structure Log where
  address : Address
  topics : List B256
  data : Bytes

/-- The parameters `refresh_state_params` reads again after an owner changed them. -/
structure StateParams where
  networkFeeAccount : Address
  infraFeeAccount : Address
  minBaseFee : U256
  brotliCompressionLevel : Nat
  calldataPricingIncreaseEnabled : Bool
  collectTipsEnabled : Bool

/-- What the EVM run reads besides the state. -/
structure EvmInput where
  env : TxEnv
  basefee : U256
  retryableId : B256
  stylusCallValue : U256
  posterBalanceCorrection : Nat

/-- What comes back from revm and the precompiles: the state once its changes are committed,
    the receipt part, the per-transaction scratch the precompiles wrote, and
    `execution_multi_gas`. -/
structure EvmOutput where
  world : World
  touched : List Address
  success : Bool
  gasUsed : Nat
  gasUsed_le : gasUsed ≤ u64Max
  logs : List Log
  cancelEscrowSweep : Option (Address × Address)
  stylusDataFee : U256
  dirtyParams : Option StateParams
  multiGas : MultiGas

/-- How an internal transaction touches accounts and tickets: transfers through the closure it
    is given, and the deletion or prolongation of a ticket by the reaper. -/
inductive InternalOp where
  | transfer (src dst : Address) (amount : U256)
  | reap (ticketId : B256)
  | prolong (ticketId : B256)

structure InternalOutcome where
  ops : List InternalOp
  ctx : BlockCtx
  hooks : Option Hooks
  baseFeeWei : U256
  error : Option String

/-- Code the executor calls. -/
structure Externals where
  keccak256 : Bytes → B256
  selector : Bytes
  recoverSigner : ArbTransactionSigned → Address
  trieHash : ArbTransactionSigned → B256
  posterUnits : ArbTransactionSigned → Nat → Nat
  evm : EvmInput → World → Except String EvmOutput
  internalTx : BlockCtx → Option Hooks → World → Bytes → InternalOutcome

/-- A transaction as the executor receives it: recovered, with the environment the conversion
    gave for it. -/
structure ExecutableTx (x : Externals) where
  tx : ArbTransactionSigned
  env : TxEnv
  env_eq : arbTxToTxEnv x.selector tx (x.recoverSigner tx) = .ok env

def ExecutableTx.sender {x : Externals} (t : ExecutableTx x) : Address := x.recoverSigner t.tx

/-- `ArbBlockExecutor`. Of the precompile context only the pending escrow sweep is kept. The
    resource fees of `multi_gas_current_fees` are read once in a block. -/
structure Executor where
  world : World
  hooks : Option Hooks
  ctx : BlockCtx
  multiGasCurrentFees : ResourceKind → U256
  cancelEscrowSweep : Option (Address × Address)
  pending : Option Pending
  blockGasLeft : Nat
  userTxsProcessed : Nat
  zombieAccounts : List Address
  finaliseDeleted : List Address
  touchedAccounts : List Address

/-- `BlockExecutionError`, with the values its message prints. -/
inductive ExecError where
  | blockGasLimitReached
  | internalNotFromArbos
  | internalTx (error : String)
  | nonceMismatch (sender : Address) (txNonce stateNonce : Nat)
  | feeBelowBaseFee (sender : Address) (maxFeePerGas : Nat) (baseFee : U256)
  | insufficientFunds (sender : Address) (available want : U256)
  | floorDataGas (sender : Address) (gasLimit floor : Nat)
  | evm (error : String)
  deriving DecidableEq

/-- `EthTxResult`; `state` is none for the empty state of a run without EVM. -/
structure TxResult where
  success : Bool
  gasUsed : Nat
  output : Bytes
  logs : List Log
  state : Option World
  touched : List Address
  dirtyParams : Option StateParams

end Arbreth.Exec
