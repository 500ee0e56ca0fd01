/-
  Gas charging: the protocol's hook and the executor's copy of it.

  `TxProcessor::gas_charging_hook` takes the poster's gas from what is left after the intrinsic
  gas and holds back what exceeds the block's or the transaction's limit. The executor does the
  same inline before it hands the transaction to revm, with `estimate_intrinsic_gas` for the
  intrinsic gas and without a clamp where the limit is zero.

  The estimate leaves out the authorisations of EIP-7702 (`estimate_add_authorizations`).
  `clamp_matches_hook_iff` says exactly when the two agree nevertheless.
-/
import Arbreth.Exec.Entry
import Arbreth.Exec.Valid

namespace Arbreth.Exec

open Arbreth.Lib Arbreth.Tx Arbreth.Parse Accessor

/-- `GasChargingParams`. -/
structure GasChargingParams where
  baseFee : U256
  posterCost : U256
  isGasEstimation : Bool
  isEthCall : Bool
  skipL1Charging : Bool
  minBaseFee : U256
  perBlockGasLimit : Nat
  perTxGasLimit : Nat
  arbosVersion : Nat

inductive GasChargingError where
  | intrinsicGasTooLow
  deriving DecidableEq

/-- `compute_poster_gas`, with the padding of a gas estimation. -/
def computePosterGasPadded (posterCost baseFee : U256) (isGasEstimation : Bool)
    (minGasPrice : U256) : Nat :=
  if baseFee = 0 then 0
  else
    let adjusted := baseFee * 7 / 8
    let adjustedBaseFee :=
      if isGasEstimation then if adjusted < minGasPrice then minGasPrice else adjusted else baseFee
    let paddedCost := if isGasEstimation then posterCost * 11000 / 10000 else posterCost
    computePosterGas paddedCost adjustedBaseFee

/-- `gas_charging_hook`: the processor and the remaining gas. -/
def TxProcessor.gasChargingHook (p : TxProcessor) (gasRemaining intrinsicGas : Nat)
    (a : GasChargingParams) : Except GasChargingError (TxProcessor × Nat) :=
  let charges := a.baseFee ≠ 0 ∧ a.skipL1Charging = false
  let posterGas := computePosterGasPadded a.posterCost a.baseFee a.isGasEstimation a.minBaseFee
  let p := if charges then
      { p with posterGas, posterFee := satMul256 a.baseFee posterGas }
    else p
  let gasNeeded := if charges then posterGas else 0
  if gasRemaining < gasNeeded then .error .intrinsicGasTooLow
  else
    let gasRemaining := gasRemaining - gasNeeded
    let max :=
      if a.arbosVersion < 50 then a.perBlockGasLimit else a.perTxGasLimit - intrinsicGas
    if a.isEthCall = false ∧ max < gasRemaining then
      .ok ({ p with computeHoldGas := gasRemaining - max }, max)
    else .ok (p, gasRemaining)

/-- The total of `tx_intrinsic_multi_gas`: the gas revm charges before the first opcode. -/
def txIntrinsicGas (x : Externals) (tx : ArbTransactionSigned) (arbosVersion : Nat) : Nat :=
  let isCreate := (kind tx).isNone
  let data := input tx x.selector
  let zeroBytes := (data.filter (· = 0)).length
  let nonzeroBytes := data.length - zeroBytes
  let accessList := (accessList tx).getD []
  let accessListKeys := (accessList.map fun item => item.storageKeys.length).sum
  let initCodeWords :=
    if 11 ≤ arbosVersion ∧ isCreate ∧ data ≠ [] then (data.length + 31) / 32 else 0
  let base := if isCreate then 53000 else txGas
  let initCode := initCodeWords * 2
  let calldata := nonzeroBytes * 16 + zeroBytes * 4
  let access := accessList.length * 2400 + accessListKeys * 1900
  let auth := ((authorizationList tx).getD []).length * 25000
  base + initCode + calldata + access + auth

/-- What the authorisations cost. -/
def authorizationGas (tx : ArbTransactionSigned) : Nat :=
  ((authorizationList tx).getD []).length * 25000

/-! ## The estimate -/

theorem sum_calldata (data : Bytes) :
    (data.map fun b => if b = 0 then 4 else 16).sum =
      (data.length - (data.filter (· = 0)).length) * 16 + (data.filter (· = 0)).length * 4 := by
  have hle : ∀ l : Bytes, (l.filter (· = 0)).length ≤ l.length := fun l => List.length_filter_le _ _
  induction data with
  | nil => rfl
  | cons b bs ih =>
    have := hle bs
    rw [List.map_cons, List.sum_cons, ih, List.filter_cons]
    by_cases hb : b = 0
    · rw [if_pos hb, if_pos (decide_eq_true hb), List.length_cons, List.length_cons]
      omega
    · have hkept : ¬ decide (b = 0) = true := by simp [hb]
      rw [if_neg hb, if_neg hkept, List.length_cons]
      omega

theorem foldl_accessList (items : List AccessListItem) (gas : Nat)
    (hfits : gas + (items.length * 2400 +
      (items.map fun item => item.storageKeys.length).sum * 1900) < 2 ^ 64) :
    items.foldl (fun gas item =>
        satAdd64 (satAdd64 gas 2400) (satMul64 item.storageKeys.length 1900)) gas =
      gas + (items.length * 2400 + (items.map fun item => item.storageKeys.length).sum * 1900) := by
  induction items generalizing gas with
  | nil => rfl
  | cons item items ih =>
    rw [List.length_cons, List.map_cons, List.sum_cons] at hfits ⊢
    have hkeys : satMul64 item.storageKeys.length 1900 = item.storageKeys.length * 1900 :=
      satMul64_of_lt (by omega)
    have hhead : satAdd64 (satAdd64 gas 2400) (satMul64 item.storageKeys.length 1900) =
        gas + 2400 + item.storageKeys.length * 1900 := by
      rw [hkeys, satAdd64_of_lt (a := gas) (by omega), satAdd64_of_lt (by omega)]
    rw [List.foldl_cons, hhead, ih _ (by omega)]
    omega

variable {tx : ArbTransactionSigned}

/-- The estimate is the intrinsic gas without the authorisations. -/
theorem estimate_add_authorizations {x : Externals} {arbosVersion : Nat}
    (hfits : txIntrinsicGas x tx arbosVersion < 2 ^ 64) :
    estimateIntrinsicGas x tx arbosVersion + authorizationGas tx =
      txIntrinsicGas x tx arbosVersion := by
  have hdata := sum_calldata (input tx x.selector)
  unfold txIntrinsicGas txGas at hfits
  unfold txIntrinsicGas estimateIntrinsicGas authorizationGas txGas
  dsimp only at hfits ⊢
  rw [← hdata] at hfits ⊢
  generalize ((input tx x.selector).map fun b => if b = 0 then 4 else 16).sum = calldata
    at hfits ⊢
  generalize (accessList tx).getD [] = items at hfits ⊢
  have hbase : ∀ b : Bool, (21000 + if b = true then 32000 else 0) =
      if b = true then 53000 else 21000 := by decide
  rw [hbase]
  generalize (if (kind tx).isNone = true then 53000 else 21000) = base at hfits ⊢
  have hcalldata : satAdd64 base calldata = base + calldata := satAdd64_of_lt (by omega)
  rw [hcalldata, foldl_accessList items (base + calldata) (by omega)]
  split
  · next hinit =>
    rw [if_pos hinit] at hfits
    rw [satMul64_of_lt (by omega), satAdd64_of_lt (by omega)]
    omega
  · omega

/-! ## The hook against the inline code -/

section Clamp

variable (x : Externals) (s : Executor) (h : Hooks) (t : ExecutableTx x)

/-- What the hook is given for a transaction outside `eth_call` and gas estimation. -/
def chargingParams : GasChargingParams where
  baseFee := actualGasPrice x s t
  posterCost := satMul256 s.ctx.l1PricePerUnit (calldataUnits x s t)
  isGasEstimation := false
  isEthCall := false
  skipL1Charging := false
  minBaseFee := s.ctx.minBaseFee
  perBlockGasLimit := h.perBlockGasLimit
  perTxGasLimit := h.perTxGasLimit
  arbosVersion := h.arbosVersion

/-- The poster gas both compute: the poster's cost at the transaction's price. -/
def posterGasOf : Nat :=
  computePosterGas (satMul256 s.ctx.l1PricePerUnit (calldataUnits x s t)) (actualGasPrice x s t)

/-- The inline code gives revm the gas the hook leaves and records what the hook records. -/
structure ClampMatches (retry : Option RetryContext) (p : TxProcessor) (remaining : Nat) : Prop where
  gasLimit : (evmInput x (chargeGas x s t) t retry (posterGasFor x s t)
    (computeHoldGasFor x s t)).env.gasLimit = remaining + txIntrinsicGas x t.tx s.ctx.arbosVersion
  recorded : (chargeGas x s t).hooks.map (fun h =>
      (h.txProc.posterGas, h.txProc.posterFee, h.txProc.computeHoldGas)) =
    some (p.posterGas, p.posterFee, p.computeHoldGas)

/-- Before ArbOS 50 the block's limit is not zero and the transaction has no authorisations, or
    it stays below the limit with them; from ArbOS 50 on the transaction's limit exceeds the
    estimate and covers the intrinsic gas. Without a limit above the estimate nothing may be left
    to clamp. -/
def ClampAgrees : Prop :=
  let gasLimit := gasLimit t.tx
  let charged := txIntrinsicGas x t.tx s.ctx.arbosVersion + posterGasOf x s t
  if h.arbosVersion < 50 then
    (0 < h.perBlockGasLimit ∧ (authorizationGas t.tx = 0 ∨
      gasLimit + authorizationGas t.tx ≤ charged + h.perBlockGasLimit)) ∨
    (h.perBlockGasLimit = 0 ∧ gasLimit = charged)
  else
    (txIntrinsicGas x t.tx s.ctx.arbosVersion ≤ h.perTxGasLimit ∧
      txIntrinsicGas x t.tx s.ctx.arbosVersion < h.perTxGasLimit + authorizationGas t.tx) ∨
    (h.perTxGasLimit + authorizationGas t.tx ≤ txIntrinsicGas x t.tx s.ctx.arbosVersion ∧
      gasLimit = charged)

end Clamp

variable {x : Externals} {s : Executor} {h : Hooks} {t : ExecutableTx x}

theorem feeFields_gasLimit {fees : Nat × Option Nat × U256 × Nat}
    (henters : EntersEvm (ArbTxType.fromU8 tx.ty)) (hfees : feeFields tx = .ok fees) :
    fees.2.2.2 = gasLimit tx := by
  have hsystem : ¬ (ArbTxType.fromU8 tx.ty = some .internal ∨
      ArbTxType.fromU8 tx.ty = some .deposit) := fun h => h.elim henters.1 henters.2.1
  unfold feeFields at hfees
  rw [if_neg hsystem, if_neg henters.2.2] at hfees
  cases hprice : maxFeePerGas tx with
  | error e =>
    rw [hprice] at hfees
    cases hfees
  | ok price =>
    rw [hprice] at hfees
    cases hfees
    rfl

theorem env_gasLimit (henters : EntersEvm (ArbTxType.fromU8 t.tx.ty)) :
    t.env.gasLimit = gasLimit t.tx := by
  have henv := t.env_eq
  obtain ⟨chainId, -, henv⟩ := bind_eq_ok.mp henv
  obtain ⟨fees, hfees, henv⟩ := bind_eq_ok.mp henv
  rw [← feeFields_gasLimit henters hfees]
  exact (congrArg TxEnv.gasLimit (Except.ok.inj henv)).symm

/-- Types without poster costs have no units, so that the hook finds no poster gas either. -/
theorem posterGasFor_eq (hhooks : s.hooks = some h) : posterGasFor x s t = posterGasOf x s t := by
  unfold posterGasFor
  by_cases hcosts : txTypeHasPosterCosts t.tx.ty = true
  · rw [if_pos ⟨by rw [hhooks]; rfl, hcosts⟩]
    rfl
  · have hunits : calldataUnits x s t = 0 := if_neg fun h => hcosts h.1
    have hcost : satMul256 s.ctx.l1PricePerUnit 0 = 0 := by
      refine BitVec.eq_of_toNat_eq ?_
      rw [toNat_satMul256, Nat.mul_zero]
      rfl
    rw [if_neg fun h => hcosts h.2, posterGasOf, hunits, hcost, computePosterGas]
    split
    · rfl
    · simp

/-- The hooks at the start of a transaction. -/
def TxProcessor.IsReset (p : TxProcessor) : Prop :=
  p.posterGas = 0 ∧ p.posterFee = 0 ∧ p.computeHoldGas = 0

theorem computePosterGasPadded_false (cost fee minPrice : U256) :
    computePosterGasPadded cost fee false minPrice = computePosterGas cost fee := by
  unfold computePosterGasPadded computePosterGas
  by_cases hfee : fee = 0
  · rw [if_pos hfee, if_pos hfee]
  · rw [if_neg hfee]
    rfl

/-- What the hook leaves where it succeeds. -/
theorem gasChargingHook_ok {p : TxProcessor} {gas intrinsic remaining : Nat}
    (hreset : h.txProc.IsReset)
    (hhook : h.txProc.gasChargingHook gas intrinsic (chargingParams x s h t) = .ok (p, remaining)) :
    p.posterGas = posterGasOf x s t ∧
    p.posterFee = satMul256 (actualGasPrice x s t) (posterGasOf x s t) ∧
    posterGasOf x s t ≤ gas ∧
    p.computeHoldGas = gas - posterGasOf x s t -
      (if h.arbosVersion < 50 then h.perBlockGasLimit else h.perTxGasLimit - intrinsic) ∧
    remaining = min (gas - posterGasOf x s t)
      (if h.arbosVersion < 50 then h.perBlockGasLimit else h.perTxGasLimit - intrinsic) := by
  have hposter : computePosterGasPadded (chargingParams x s h t).posterCost
      (chargingParams x s h t).baseFee (chargingParams x s h t).isGasEstimation
      (chargingParams x s h t).minBaseFee = posterGasOf x s t := computePosterGasPadded_false ..
  -- Without a price nothing is charged and the reset processor already says so.
  have hfree : ¬ ((chargingParams x s h t).baseFee ≠ 0 ∧
      (chargingParams x s h t).skipL1Charging = false) →
      posterGasOf x s t = 0 ∧ actualGasPrice x s t = 0 := by
    intro hnot
    have hprice : actualGasPrice x s t = 0 := Classical.not_not.mp fun hne => hnot ⟨hne, rfl⟩
    exact ⟨by rw [posterGasOf, hprice]; rfl, hprice⟩
  have hneeded : (if (chargingParams x s h t).baseFee ≠ 0 ∧
      (chargingParams x s h t).skipL1Charging = false then posterGasOf x s t else 0) =
      posterGasOf x s t := by
    split
    · rfl
    · next hnot => exact (hfree hnot).1.symm
  have hcharged : (if (chargingParams x s h t).baseFee ≠ 0 ∧
      (chargingParams x s h t).skipL1Charging = false then
      { h.txProc with
        posterGas := posterGasOf x s t
        posterFee := satMul256 (chargingParams x s h t).baseFee (posterGasOf x s t) }
      else h.txProc) = { h.txProc with
        posterGas := posterGasOf x s t
        posterFee := satMul256 (actualGasPrice x s t) (posterGasOf x s t) } := by
    split
    · rfl
    · next hnot =>
      have hzero : satMul256 (0 : U256) 0 = 0 := by decide
      obtain ⟨hgas, hprice⟩ := hfree hnot
      rw [hgas, hprice, hzero, ← hreset.1, ← hreset.2.1]
  unfold TxProcessor.gasChargingHook at hhook
  dsimp only at hhook
  have hlimit : (if (chargingParams x s h t).arbosVersion < 50 then
      (chargingParams x s h t).perBlockGasLimit
      else (chargingParams x s h t).perTxGasLimit - intrinsic) =
      if h.arbosVersion < 50 then h.perBlockGasLimit else h.perTxGasLimit - intrinsic := rfl
  rw [hposter, hneeded, hcharged, hlimit] at hhook
  generalize (if h.arbosVersion < 50 then h.perBlockGasLimit else h.perTxGasLimit - intrinsic) = limit
    at hhook ⊢
  have hhold := hreset.2.2
  split at hhook
  · cases hhook
  · next henough =>
    split at hhook
    · next hover =>
      cases hhook
      exact ⟨rfl, rfl, by omega, rfl, by omega⟩
    · next hunder =>
      cases hhook
      have : ¬ limit < gas - posterGasOf x s t := fun hlt => hunder ⟨rfl, hlt⟩
      exact ⟨rfl, rfl, by omega, by dsimp only; omega, by omega⟩

theorem computeHoldGasFor_eq (hhooks : s.hooks = some h) (hcall : h.isEthCall = false) :
    computeHoldGasFor x s t =
      let estimate := estimateIntrinsicGas x t.tx s.ctx.arbosVersion
      let left := gasLimit t.tx - estimate - posterGasOf x s t
      let limit := if h.arbosVersion < 50 then h.perBlockGasLimit else h.perTxGasLimit - estimate
      if 0 < limit ∧ limit < left then left - limit else 0 := by
  have hposter := posterGasFor_eq (x := x) (t := t) hhooks
  unfold computeHoldGasFor
  rw [hhooks, hposter]
  dsimp only
  rw [if_neg (by rw [hcall]; exact Bool.false_ne_true)]

theorem clamp_matches_hook_iff (x : Externals) (s : Executor) (h : Hooks) (t : ExecutableTx x)
    (retry : Option RetryContext) (p : TxProcessor) (remaining : Nat) (hhooks : s.hooks = some h)
    (hcall : h.isEthCall = false) (hreset : h.txProc.IsReset)
    (henters : EntersEvm (ArbTxType.fromU8 t.tx.ty)) (hu64 : gasLimit t.tx < 2 ^ 64)
    (hintrinsic : txIntrinsicGas x t.tx s.ctx.arbosVersion ≤ gasLimit t.tx)
    (hhook : h.txProc.gasChargingHook
      (gasLimit t.tx - txIntrinsicGas x t.tx s.ctx.arbosVersion)
      (txIntrinsicGas x t.tx s.ctx.arbosVersion) (chargingParams x s h t) = .ok (p, remaining)) :
    ClampMatches x s t retry p remaining ↔ ClampAgrees x s h t := by
  obtain ⟨hgas, hfee, hle, hhold, hrest⟩ := gasChargingHook_ok hreset hhook
  have hestimate := estimate_add_authorizations (hintrinsic.trans_lt hu64)
  have hinline := computeHoldGasFor_eq (t := t) hhooks hcall
  have hposter := posterGasFor_eq (t := t) hhooks
  have hrecorded : (chargeGas x s t).hooks.map (fun h =>
      (h.txProc.posterGas, h.txProc.posterFee, h.txProc.computeHoldGas)) =
      some (p.posterGas, p.posterFee, computeHoldGasFor x s t) := by
    change (s.hooks.map _).map _ = _
    rw [hhooks, hgas, hfee, ← hposter]
    rfl
  -- The limit given to revm differs from the hook's by the gas held back and nothing else.
  have hlimit : computeHoldGasFor x s t = p.computeHoldGas →
      (evmInput x (chargeGas x s t) t retry (posterGasFor x s t)
        (computeHoldGasFor x s t)).env.gasLimit =
        remaining + txIntrinsicGas x t.tx s.ctx.arbosVersion := by
    intro hheld
    change t.env.gasLimit - satAdd64 (posterGasFor x s t) (computeHoldGasFor x s t) = _
    rw [env_gasLimit henters, hheld, hposter, satAdd64_of_lt (by omega)]
    omega
  have hmatch : ClampMatches x s t retry p remaining ↔
      computeHoldGasFor x s t = p.computeHoldGas := by
    constructor
    · intro hm
      have hpair := Option.some.inj (hrecorded.symm.trans hm.recorded)
      exact congrArg (fun v => v.2.2) hpair
    · intro hheld
      exact ⟨hlimit hheld, hheld ▸ hrecorded⟩
  rw [hmatch, hhold, hinline]
  unfold ClampAgrees
  dsimp only
  split
  · split <;> omega
  · split <;> omega

/-- A transfer with a gas limit of 40 million. -/
def largeTransfer : ExecutableTx (sampleExternals plainCall) where
  tx := ⟨.legacy ⟨some 42161, 3, 100000000, 40000000, some 0xb0b, 1000000000000000000, []⟩,
    ⟨1, 1, false⟩⟩
  env := ⟨0, sampleSender, 40000000, 3, some 42161, some 0xb0b, [], 100000000, none,
    1000000000000000000, [], []⟩
  env_eq := rfl

/-- With 32 million gas in a block, 7977400 are held back. -/
theorem clamp_matches_hook_large_transfer :
    ClampMatches (sampleExternals plainCall) (fundedExecutor false) largeTransfer none
      ⟨160000000000, 1600, 7977400, false, []⟩ 32000000 :=
  (clamp_matches_hook_iff (sampleExternals plainCall) (fundedExecutor false) sampleHooks largeTransfer
    none ⟨160000000000, 1600, 7977400, false, []⟩ 32000000 rfl rfl ⟨rfl, rfl, rfl⟩
    ⟨by decide, by decide, by decide⟩ (by decide) (by decide) (by decide +kernel)).mpr
    (by unfold ClampAgrees; decide +kernel)

/-- Gas limit 40 million and one authorisation, which costs 25000 gas. -/
def setCodeTransaction : ArbTransactionSigned :=
  ⟨.eip7702 ⟨42161, 3, 40000000, 100000000, 0, 0xb0b, 0, [],
    [⟨42161, 0xc0de, 0, ⟨1, 1, false⟩⟩], []⟩, ⟨1, 1, false⟩⟩

def setCodeTx : ExecutableTx (sampleExternals plainCall) where
  tx := setCodeTransaction
  env := ⟨4, sampleSender, 40000000, 3, some 42161, some 0xb0b, [], 100000000, some 0, 0, [],
    [⟨42161, 0xc0de, 0, ⟨1, 1, false⟩⟩]⟩
  env_eq := rfl

/-- At ArbOS 40 with 32 million gas in a block: the hook leaves 32 million after an intrinsic gas
    of 46000, the inline code hands out 32021000 in all. -/
theorem authorization_shrinks_evm_gas :
    ∃ p, sampleHooks.txProc.gasChargingHook (40000000 - 46000) 46000
        (chargingParams (sampleExternals plainCall) (fundedExecutor false) sampleHooks setCodeTx) =
        .ok (p, 32000000) ∧
      txIntrinsicGas (sampleExternals plainCall) setCodeTx.tx 40 = 46000 ∧
      (evmInput (sampleExternals plainCall)
        (chargeGas (sampleExternals plainCall) (fundedExecutor false) setCodeTx) setCodeTx none
        (posterGasFor (sampleExternals plainCall) (fundedExecutor false) setCodeTx)
        (computeHoldGasFor (sampleExternals plainCall) (fundedExecutor false)
          setCodeTx)).env.gasLimit = 32021000 ∧
      ¬ ClampMatches (sampleExternals plainCall) (fundedExecutor false) setCodeTx none p
        32000000 := by
  refine ⟨_, rfl, by decide +kernel, by decide +kernel, fun hm => ?_⟩
  exact absurd hm.gasLimit (by decide +kernel)

end Arbreth.Exec
