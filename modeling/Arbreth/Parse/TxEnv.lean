/-
  From a transaction to its EVM environment (arb-primitives, signed_tx.rs; arb-evm,
  transaction.rs).

  The accessors of `ArbTransactionSigned` narrow the 256-bit chain id and fee cap of the
  Arbitrum types with `Uint::to`, which panics when the value does not fit. An accessor that
  narrows returns in `Except Panic`, the others are total.
-/
import Arbreth.Lib.Outcome
import Arbreth.Parse.ParseL2

namespace Arbreth.Parse

open Arbreth.Lib Arbreth.Tx

/-- A Rust panic: `Uint::to` of a value that does not fit the target width. -/
inductive Panic where
  | uintTo (bits : Nat)
  deriving DecidableEq

/-- `Uint::to::<T>()` for an unsigned `T` of `bits` bits. -/
def uintTo (bits : Nat) (x : U256) : Except Panic Nat :=
  if x.toNat < 2 ^ bits then .ok x.toNat else .error (.uintTo bits)

theorem uintTo_ok {bits : Nat} {x : U256} : (∃ n, uintTo bits x = .ok n) ↔ x.toNat < 2 ^ bits := by
  unfold uintTo
  by_cases h : x.toNat < 2 ^ bits
  · rw [if_pos h]
    exact ⟨fun _ => h, fun _ => ⟨_, rfl⟩⟩
  · rw [if_neg h]
    exact ⟨fun ⟨_, hn⟩ => (by cases hn), fun h' => absurd h' h⟩

/-! ## Accessors -/

def retryableAddress : Address := 0x6e

def arbosAddress : Address := 0xA4B05

namespace Accessor

variable (tx : ArbTransactionSigned)

/-- `chain_id`. -/
def chainId : Except Panic (Option Nat) :=
  match tx.transaction with
  | .legacy t => .ok t.chainId
  | .deposit t => some <$> uintTo 64 t.chainId
  | .unsigned t => some <$> uintTo 64 t.chainId
  | .contract t => some <$> uintTo 64 t.chainId
  | .retry t => some <$> uintTo 64 t.chainId
  | .submitRetryable t => some <$> uintTo 64 t.chainId
  | .internal t => some <$> uintTo 64 t.chainId
  | .eip2930 t => .ok (some t.chainId)
  | .eip1559 t => .ok (some t.chainId)
  | .eip4844 t => .ok (some t.chainId)
  | .eip7702 t => .ok (some t.chainId)

/-- `nonce`. -/
def nonce : Nat :=
  match tx.transaction with
  | .legacy t => t.nonce
  | .deposit _ => 0
  | .unsigned t => t.nonce
  | .contract _ => 0
  | .retry t => t.nonce
  | .submitRetryable _ => 0
  | .internal _ => 0
  | .eip2930 t => t.nonce
  | .eip1559 t => t.nonce
  | .eip4844 t => t.nonce
  | .eip7702 t => t.nonce

/-- `gas_limit`. -/
def gasLimit : Nat :=
  match tx.transaction with
  | .legacy t => t.gasLimit
  | .deposit _ => 0
  | .unsigned t => t.gas
  | .contract t => t.gas
  | .retry t => t.gas
  | .submitRetryable t => t.gas
  | .internal _ => 0
  | .eip2930 t => t.gasLimit
  | .eip1559 t => t.gasLimit
  | .eip4844 t => t.gasLimit
  | .eip7702 t => t.gasLimit

/-- `max_fee_per_gas`. -/
def maxFeePerGas : Except Panic Nat :=
  match tx.transaction with
  | .legacy t => .ok t.gasPrice
  | .eip2930 t => .ok t.gasPrice
  | .unsigned t => uintTo 128 t.gasFeeCap
  | .contract t => uintTo 128 t.gasFeeCap
  | .retry t => uintTo 128 t.gasFeeCap
  | .submitRetryable t => uintTo 128 t.gasFeeCap
  | .eip1559 t => .ok t.maxFeePerGas
  | .eip4844 t => .ok t.maxFeePerGas
  | .eip7702 t => .ok t.maxFeePerGas
  | .deposit _ => .ok 0
  | .internal _ => .ok 0

/-- `max_priority_fee_per_gas`. -/
def maxPriorityFeePerGas : Option Nat :=
  match tx.transaction with
  | .eip1559 t => some t.maxPriorityFeePerGas
  | .eip4844 t => some t.maxPriorityFeePerGas
  | .eip7702 t => some t.maxPriorityFeePerGas
  | _ => none

/-- `kind`: the callee, none for a creation. -/
def kind : Option Address :=
  match tx.transaction with
  | .legacy t => t.toAddr
  | .deposit t => some t.toAddr
  | .unsigned t => t.toAddr
  | .contract t => t.toAddr
  | .retry t => t.toAddr
  | .submitRetryable _ => some retryableAddress
  | .internal _ => some arbosAddress
  | .eip2930 t => t.toAddr
  | .eip1559 t => t.toAddr
  | .eip4844 t => some t.toAddr
  | .eip7702 t => some t.toAddr

/-- `value`. -/
def value : U256 :=
  match tx.transaction with
  | .legacy t => t.value
  | .deposit t => t.value
  | .unsigned t => t.value
  | .contract t => t.value
  | .retry t => t.value
  | .submitRetryable t => t.retryValue
  | .internal _ => 0
  | .eip2930 t => t.value
  | .eip1559 t => t.value
  | .eip4844 t => t.value
  | .eip7702 t => t.value

/-- `input`, given the selector of the submit-retryable call. -/
def input (selector : Bytes) : Bytes :=
  match tx.transaction with
  | .legacy t => t.input
  | .deposit _ => []
  | .unsigned t => t.data
  | .contract t => t.data
  | .retry t => t.data
  | .submitRetryable t => selector ++ t.retryData
  | .internal t => t.data
  | .eip2930 t => t.input
  | .eip1559 t => t.input
  | .eip4844 t => t.input
  | .eip7702 t => t.input

/-- `access_list`. -/
def accessList : Option (List AccessListItem) :=
  match tx.transaction with
  | .eip2930 t => some t.accessList
  | .eip1559 t => some t.accessList
  | .eip4844 t => some t.accessList
  | .eip7702 t => some t.accessList
  | _ => none

/-- `authorization_list`. -/
def authorizationList : Option (List SignedAuthorization) :=
  match tx.transaction with
  | .eip7702 t => some t.authorizationList
  | _ => none

end Accessor

open Accessor

/-! ## The environment -/

/-- The fields of `TxEnv` that are set. -/
structure TxEnv where
  txType : UInt8
  caller : Address
  gasLimit : Nat
  nonce : Nat
  chainId : Option Nat
  kind : Option Address
  data : Bytes
  gasPrice : Nat
  gasPriorityFee : Option Nat
  value : U256
  accessList : List AccessListItem
  authorizationList : List SignedAuthorization

/-- The gas price, priority fee, value and gas limit of `arb_tx_to_tx_env`: free of charge for
    system transactions and submitted retryables. -/
def feeFields (tx : ArbTransactionSigned) : Except Panic (Nat × Option Nat × U256 × Nat) := do
  let arbType := ArbTxType.fromU8 tx.ty
  if arbType = some .internal ∨ arbType = some .deposit then
    let gasLimit := gasLimit tx
    return (0, some 0, 0, if gasLimit = 0 then 1000000 else gasLimit)
  else if arbType = some .submitRetryable then
    return (0, some 0, 0, gasLimit tx)
  else
    let gasPrice ← maxFeePerGas tx
    return (gasPrice, maxPriorityFeePerGas tx, value tx, gasLimit tx)

/-- `arb_tx_to_tx_env`. -/
def arbTxToTxEnv (selector : Bytes) (tx : ArbTransactionSigned) (sender : Address) :
    Except Panic TxEnv := do
  let chainId ← chainId tx
  let (gasPrice, gasPriorityFee, value, gasLimit) ← feeFields tx
  return {
    txType := if tx.ty < 0x64 then tx.ty else 0
    caller := sender
    gasLimit := gasLimit
    nonce := nonce tx
    chainId := chainId
    kind := kind tx
    data := input tx selector
    gasPrice := gasPrice
    gasPriorityFee := gasPriorityFee
    value := value
    accessList := (accessList tx).getD []
    authorizationList := (authorizationList tx).getD [] }

/-! ## When the conversion panics -/

/-- The chain id of an Arbitrum transaction fits 64 bits, and the fee cap of one that pays for
    its gas fits 128. -/
def NarrowFits (tx : ArbTransactionSigned) : Prop :=
  match tx.transaction with
  | .deposit t => t.chainId.toNat < 2 ^ 64
  | .unsigned t => t.chainId.toNat < 2 ^ 64 ∧ t.gasFeeCap.toNat < 2 ^ 128
  | .contract t => t.chainId.toNat < 2 ^ 64 ∧ t.gasFeeCap.toNat < 2 ^ 128
  | .retry t => t.chainId.toNat < 2 ^ 64 ∧ t.gasFeeCap.toNat < 2 ^ 128
  | .submitRetryable t => t.chainId.toNat < 2 ^ 64
  | .internal t => t.chainId.toNat < 2 ^ 64
  | _ => True

variable {sender : Address}

/-- The conversion fails exactly when one of its two narrowing accessors does. -/
theorem arbTxToTxEnv_ok_split {selector : Bytes} {tx : ArbTransactionSigned} :
    (∃ env, arbTxToTxEnv selector tx sender = .ok env) ↔
      (∃ id, chainId tx = .ok id) ∧ ∃ fees, feeFields tx = .ok fees := by
  refine exists_bind_ok_const fun id => ?_
  rw [exists_bind_ok_const fun _ => exists_pure_ok, and_true]

theorem feeFields_paid {tx : ArbTransactionSigned}
    (h : ∀ t ∈ ArbTxType.fromU8 tx.ty, t ≠ .internal ∧ t ≠ .deposit ∧ t ≠ .submitRetryable) :
    (∃ fees, feeFields tx = .ok fees) ↔ ∃ price, maxFeePerGas tx = .ok price := by
  unfold feeFields
  have hsys : ¬ (ArbTxType.fromU8 tx.ty = some .internal ∨ ArbTxType.fromU8 tx.ty = some .deposit) :=
    fun hor => hor.elim (fun he => (h _ he).1 rfl) (fun he => (h _ he).2.1 rfl)
  have hsub : ArbTxType.fromU8 tx.ty ≠ some .submitRetryable := fun he => (h _ he).2.2 rfl
  simp only [hsys, hsub, if_false]
  rw [exists_bind_ok_const fun _ => exists_pure_ok, and_true]

theorem arbTxToTxEnv_ok {selector : Bytes} {tx : ArbTransactionSigned} :
    (∃ env, arbTxToTxEnv selector tx sender = .ok env) ↔ NarrowFits tx := by
  rw [arbTxToTxEnv_ok_split]
  obtain ⟨t, sig⟩ := tx
  -- A type that pays reads its fee cap; the three that do not return constants.
  cases t with
  | deposit t | submitRetryable t | internal t =>
    refine (and_iff_left ⟨_, rfl⟩).trans ?_
    simp only [chainId, exists_map_ok, uintTo_ok, NarrowFits]
  | unsigned t | contract t | retry t =>
    rw [feeFields_paid (by simp [ArbTransactionSigned.ty, ArbTxType.fromU8, ArbTxType.asU8])]
    simp only [maxFeePerGas, chainId, exists_map_ok, uintTo_ok, NarrowFits]
  | legacy t | eip2930 t | eip1559 t | eip4844 t | eip7702 t =>
    exact ⟨fun _ => trivial, fun _ => ⟨⟨_, rfl⟩, _, rfl⟩⟩

/-! ## Parsed transactions -/

section Parsed

variable (c : Codecs) (selector : Bytes) (chainId : Nat)

/-- What becomes of a parsed transaction converts without a panic, whoever sent it. -/
def Converts (p : ParsedTransaction) : Prop :=
  ∀ tx, parsedTxToSigned c p chainId = some tx →
    ∀ sender, ∃ env, arbTxToTxEnv selector tx sender = .ok env

variable {c selector chainId}

theorem converts_iff {p : ParsedTransaction} {tx : ArbTransactionSigned}
    (h : parsedTxToSigned c p chainId = some tx) :
    Converts c selector chainId p ↔ NarrowFits tx := by
  constructor
  · intro hp
    exact arbTxToTxEnv_ok.mp (hp tx h 0)
  · intro hn tx' h' sender
    rw [h] at h'
    cases h'
    exact arbTxToTxEnv_ok.mpr hn

theorem chainId_fits : (BitVec.ofNat 256 (wrap64 chainId)).toNat < 2 ^ 64 := by
  have h : wrap64 chainId < 2 ^ 64 := Nat.mod_lt _ (by decide)
  rw [BitVec.toNat_ofNat]
  exact Nat.lt_of_le_of_lt (Nat.mod_le _ _) h

variable (sender : Address) (toAddr : Option Address)

theorem converts_unsigned (value : U256) (gas : Nat) (fee : U256) (nonce : Nat) (data : Bytes) :
    Converts c selector chainId (.unsignedUserTx sender toAddr value gas fee nonce data) ↔
      fee.toNat < 2 ^ 128 := by
  rw [converts_iff rfl]
  exact and_iff_right chainId_fits

theorem converts_contract (value : U256) (gas : Nat) (fee : U256) (data : Bytes) (id : B256) :
    Converts c selector chainId (.contractTx sender toAddr value gas fee data id) ↔
      fee.toNat < 2 ^ 128 := by
  rw [converts_iff rfl]
  exact and_iff_right chainId_fits

theorem converts_deposit (sender toAddr : Address) (value : U256) (id : B256) :
    Converts c selector chainId (.ethDeposit sender toAddr value id) := by
  rw [converts_iff rfl]
  exact chainId_fits

/-- The fee cap of a submitted retryable is not narrowed here, whatever it is. -/
theorem converts_submitRetryable (id : B256) (l1BaseFee deposit callvalue gasFeatureCap : U256)
    (gasLimit : Nat) (maxSubmissionFee : U256) (sender : Address) (toAddr : Option Address)
    (feeRefundAddr beneficiary : Address) (data : Bytes) :
    Converts c selector chainId (.submitRetryable id l1BaseFee deposit callvalue gasFeatureCap
      gasLimit maxSubmissionFee sender toAddr feeRefundAddr beneficiary data) := by
  rw [converts_iff rfl]
  exact chainId_fits

/-- Reports become no transaction here. -/
theorem converts_batchPostingReport (timestamp : Nat) (poster : Address) (hash : B256)
    (number : Nat) (fee : U256) (extraGas : Nat) :
    Converts c selector chainId
      (.batchPostingReport timestamp poster hash number fee extraGas) := by
  intro tx h
  cases h

/-- A signed payload that the parser lets through is an Ethereum transaction. -/
theorem converts_signed {payload rest : Bytes} {tx : ArbTransactionSigned}
    (hdec : decode2718 c payload = .ok (tx, rest)) (hty : ¬ (0x64 ≤ tx.ty ∨ tx.ty = 3)) :
    Converts c selector chainId (.signed payload) := by
  have hsigned : parsedTxToSigned c (.signed payload) chainId = some tx := by
    simp only [parsedTxToSigned, hdec]
  rw [converts_iff hsigned]
  obtain ⟨t, sig⟩ := tx
  cases t with
  | legacy | eip2930 | eip1559 | eip4844 | eip7702 => trivial
  | _ => exact absurd (.inl (by simp [ArbTransactionSigned.ty, ArbTxType.asU8])) hty

end Parsed

end Arbreth.Parse
