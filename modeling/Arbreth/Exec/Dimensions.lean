/-
  The split of a transaction's gas by resource (arb-evm, build.rs:
  execute_transaction_without_commit; multi_gas/intrinsic.rs, classify.rs, inspector.rs; evm.rs:
  run_evm_bytecode, execute_stylus_program; arb-precompiles, lib.rs: charge_*, gas_check).

  Four accumulators fill the split on their own: the intrinsic gas, the inspector of revm's
  frames, the Stylus frames with the inspectors of the EVM frames under them, and the charges of
  the precompiles. At the end the executor adds as computation whatever they leave of the gas
  used. Nothing takes gas back where they record too much.

  A transaction is modelled as the tree of its frames, each with the gas it is handed. Next to
  what a frame consumes and what it records stand the gas it consumes and nobody records, and the
  gas recorded above what was consumed. revm is trusted in one thing, that a frame does not
  consume more than it is handed.
-/
import Arbreth.Stylus.Flush

namespace Arbreth.Exec

open Arbreth.Lib
open Arbreth.L2Pricing (MultiGas ResourceKind)
open Arbreth.Stylus (addMultiGas oneKind sum_addMultiGas sum_oneKind
  attributeWasmComputation)

/-- `MultiGas::zero`. -/
def noGas : MultiGas := ⟨0⟩

/-! ## The intrinsic gas -/

/-- `IntrinsicInput`. -/
structure IntrinsicInput where
  isCreate : Bool
  zeroBytes : Nat
  nonzeroBytes : Nat
  initCodeWords : Nat
  accessListAddresses : Nat
  accessListKeys : Nat
  authListLen : Nat

/-- `intrinsic_multigas`. -/
def intrinsicMultigas (input : IntrinsicInput) : MultiGas where
  gas
    | .computation =>
      (if input.isCreate then 53000 else 21000) +
        if input.isCreate then input.initCodeWords * 2 else 0
    | .l2Calldata => input.nonzeroBytes * 16 + input.zeroBytes * 4
    | .storageAccessRead => input.accessListAddresses * 2400 + input.accessListKeys * 1900
    | .storageGrowth => input.authListLen * 25000
    | _ => 0

/-! ## The gas of an opcode -/

/-- `OpKind`. -/
inductive OpKind where
  | storageRead (cold : Bool)
  | storageWrite (cold : Bool) (original present new : U256)
  | accountAccess (cold : Bool)
  | extCodeCopy (cold : Bool) (words : Nat)
  | log (topics dataLen : Nat)
  | call (cold newAccount : Bool)
  | selfDestruct (cold newAccount : Bool)
  | other

/-- `non_computation`. -/
def nonComputation : OpKind → MultiGas
  | .storageRead cold => oneKind .storageAccessRead (if cold then 2100 - 100 else 0)
  | .storageWrite cold original present new => ⟨fun
      | .storageAccessRead => if cold then 2100 else 0
      | .storageGrowth => if present ≠ new ∧ original = present ∧ original = 0 then 20000 else 0
      | .storageAccessWrite => if present ≠ new ∧ original = present ∧ original ≠ 0 then 2900 else 0
      | _ => 0⟩
  | .accountAccess cold => oneKind .storageAccessRead (if cold then 2600 - 100 else 0)
  | .extCodeCopy cold words =>
    oneKind .storageAccessRead (wrap64 ((if cold then 2600 - 100 else 0) + words * 3))
  | .log topics dataLen => oneKind .historyGrowth (wrap64 (256 * topics + 8 * dataLen))
  | .call cold newAccount => ⟨fun
      | .storageAccessRead => if cold then 2600 - 100 else 0
      | .storageGrowth => if newAccount then 25000 else 0
      | _ => 0⟩
  | .selfDestruct cold newAccount => ⟨fun
      | .storageAccessWrite => 4900
      | .storageAccessRead => if cold then 2600 else 0
      | .storageGrowth => if newAccount then 25000 else 0
      | _ => 0⟩
  | .other => noGas

/-- `classify`. -/
def classify (kind : OpKind) (gas : Nat) : MultiGas :=
  if gas < (nonComputation kind).sum then oneKind .computation gas
  else addMultiGas (nonComputation kind)
    (oneKind .computation (gas - (nonComputation kind).sum))

/-- An opcode is split into the gas it took, also when it ran out of gas. -/
theorem sum_classify (kind : OpKind) (gas : Nat) : (classify kind gas).sum = gas := by
  unfold classify
  split
  · exact sum_oneKind _ _
  · rw [sum_addMultiGas, sum_oneKind]
    omega

/-! ## The gas of a precompile -/

/-- A charge of a precompile: `charge_precompile_gas` counts it only as used gas, the others also
    record it as gas of a kind. Each does so before anyone looks at the gas limit. -/
structure PrecompileCharge where
  kind : Option ResourceKind
  gas : Nat

/-- The gas used so far. -/
def gasUsed (charges : List PrecompileCharge) : Nat := (charges.map (·.gas)).sum

/-- The gas recorded so far. -/
def recordedCharges (charges : List PrecompileCharge) : MultiGas :=
  charges.foldr (fun c recorded =>
    match c.kind with
    | some kind => addMultiGas (oneKind kind c.gas) recorded
    | none => recorded) noGas

/-- How a call of a precompile ends: by `gas_check`, by burning what it was handed, or with gas
    used and recorded that replace the counted ones (ArbOwner, ArbFilteredTransactionsManager). -/
inductive PrecompileEnd where
  | checked
  | burned
  | overridden (gas : Nat) (recorded : MultiGas)

/-- What the call consumes of the gas handed to it. -/
def PrecompileEnd.consumed (charges : List PrecompileCharge) (limit : Nat) : PrecompileEnd → Nat
  | .checked => if limit < gasUsed charges then limit else gasUsed charges
  | .burned => limit
  | .overridden gas _ => min gas limit

/-- What the call adds to `precompile_multi_gas`. -/
def PrecompileEnd.recorded (charges : List PrecompileCharge) : PrecompileEnd → MultiGas
  | .checked => recordedCharges charges
  | .burned => recordedCharges charges
  | .overridden _ recorded => recorded

variable (charges : List PrecompileCharge)

/-! ## Frames -/

mutual

/-- What a call or creation runs: nothing (it fails before a frame is opened, or there is no
    code); a precompile of Ethereum or of Arbitrum; a program that is refused before the price
    of its start is looked at, or cannot pay it; a program, with the gas its host functions
    accounted for, its calls, and the gas left; a program given up with an error, of which nothing
    is accounted; EVM code, with the gas a failure burns; or a constructor, with the deposit
    that `create_end` records and the gas charged to the creator. -/
inductive GasCall where
  | idle
  | standard (gas : Nat)
  | precompile (charges : List PrecompileCharge) (ending : PrecompileEnd)
  | refused
  | unpaidStart
  | program (accounted : MultiGas) (calls : ProgramCalls) (left : Nat)
  | abandoned (calls : ProgramCalls)
  | evm (code : Opcodes) (burned : Nat)
  | create (code : Opcodes) (deposit charged : Nat)

/-- The calls and creations of a Stylus program, with the gas handed to each. -/
inductive ProgramCalls where
  | none
  | call (limit : Nat) (callee : GasCall) (rest : ProgramCalls)

/-- The opcodes of an EVM frame with the gas `step_end` sees them take, that of an opened frame
    included. -/
inductive Opcodes where
  | none
  | op (kind : OpKind) (delta : Nat) (rest : Opcodes)
  | frame (kind : OpKind) (delta limit : Nat) (callee : GasCall) (rest : Opcodes)

end

/-! ### Gas consumed -/

mutual

/-- The gas a frame consumes of what it is handed. -/
def GasCall.consumed (limit : Nat) : GasCall → Nat
  | .idle => 0
  | .standard gas => min gas limit
  | .precompile charges ending => ending.consumed charges limit
  | .refused => limit
  | .unpaidStart => limit
  | .program _ _ left => limit - left
  | .abandoned _ => limit
  | .evm code burned => code.consumed + burned
  | .create _ _ charged => charged

/-- The gas of a frame's opcodes, once what the frames under it left is given back. -/
def Opcodes.consumed : Opcodes → Nat
  | .none => 0
  | .op _ delta rest => delta + rest.consumed
  | .frame _ delta limit callee rest => delta - (limit - callee.consumed limit) + rest.consumed

end

/-- The gas of the calls of a program. -/
def ProgramCalls.consumed : ProgramCalls → Nat
  | .none => 0
  | .call limit callee rest => callee.consumed limit + rest.consumed

/-! ### Gas recorded -/

/-- The accumulators of a transaction: the inspector's, `stylus_multi_gas`,
    `precompile_multi_gas` and `stylus_upfront_oog_gas`. -/
structure Tally where
  opcodes : MultiGas
  stylus : MultiGas
  precompiles : MultiGas
  upfrontOog : Nat

namespace Tally

def zero : Tally := ⟨noGas, noGas, noGas, 0⟩

def add (s t : Tally) : Tally where
  opcodes := addMultiGas s.opcodes t.opcodes
  stylus := addMultiGas s.stylus t.stylus
  precompiles := addMultiGas s.precompiles t.precompiles
  upfrontOog := s.upfrontOog + t.upfrontOog

/-- `add_stylus_multi_gas`. -/
def ofStylus (gas : MultiGas) : Tally := { zero with stylus := gas }

/-- `add_precompile_multi_gas`. -/
def ofPrecompile (gas : MultiGas) : Tally := { zero with precompiles := gas }

/-- Gas of opcodes. Under a Stylus frame an inspector of its own hands it to the Stylus gas. -/
def ofOpcode (nested : Bool) (gas : MultiGas) : Tally :=
  if nested then ofStylus gas else { zero with opcodes := gas }

/-- The deposit of a creation, recorded in `create_end`, which only revm's frames reach. -/
def ofDeposit (nested : Bool) (deposit : Nat) : Tally :=
  if nested then zero else { zero with opcodes := oneKind .storageGrowth deposit }

/-- Gas of a start that cannot be paid, counted only outside of Stylus frames. -/
def ofUnpaidStart (nested : Bool) (gas : Nat) : Tally :=
  { zero with upfrontOog := if nested then 0 else gas }

end Tally

mutual

/-- What a frame records; `nested` under a Stylus frame. -/
def GasCall.tally (nested : Bool) (limit : Nat) : GasCall → Tally
  | .idle => .zero
  | .standard _ => .zero
  | .precompile charges ending => .ofPrecompile (ending.recorded charges)
  | .refused => .zero
  | .unpaidStart => .ofUnpaidStart nested limit
  | .program accounted calls left =>
    (Tally.ofStylus (attributeWasmComputation accounted (limit - calls.consumed) left)).add
      calls.tally
  | .abandoned calls => calls.tally
  | .evm code _ => code.tally nested
  | .create code deposit _ => (code.tally nested).add (.ofDeposit nested deposit)

def ProgramCalls.tally : ProgramCalls → Tally
  | .none => .zero
  | .call limit callee rest => (callee.tally true limit).add rest.tally

/-- An opcode that opens a frame is recorded with the gas it takes besides the frame's. -/
def Opcodes.tally (nested : Bool) : Opcodes → Tally
  | .none => .zero
  | .op kind delta rest => (Tally.ofOpcode nested (classify kind delta)).add (rest.tally nested)
  | .frame kind delta limit callee rest =>
    ((Tally.ofOpcode nested (classify kind (delta - limit))).add
      (callee.tally nested limit)).add (rest.tally nested)

end

/-! ### Gas that nobody records, and gas recorded and not consumed -/

/-- The gas of an opcode that no inspector sees. -/
def unseen (sink nested : Bool) (gas : Nat) : Nat := if nested || sink then 0 else gas

/-- The part of a deposit that counts. -/
def seenDeposit (sink nested : Bool) (deposit : Nat) : Nat :=
  if nested then 0 else if sink then deposit else 0

mutual

/-- The gas consumed that none of the accumulators records. -/
def GasCall.unclaimed (sink nested : Bool) (limit : Nat) : GasCall → Nat
  | .idle => 0
  | .standard gas => min gas limit
  | .precompile charges ending => ending.consumed charges limit - (ending.recorded charges).sum
  | .refused => limit
  | .unpaidStart => if nested then limit else 0
  | .program _ calls _ => calls.unclaimed sink
  | .abandoned calls => limit - calls.consumed + calls.unclaimed sink
  | .evm code burned => code.unclaimed sink nested + burned
  | .create code deposit charged =>
    charged - (code.consumed + seenDeposit sink nested deposit) + code.unclaimed sink nested

def ProgramCalls.unclaimed (sink : Bool) : ProgramCalls → Nat
  | .none => 0
  | .call limit callee rest => callee.unclaimed sink true limit + rest.unclaimed sink

def Opcodes.unclaimed (sink nested : Bool) : Opcodes → Nat
  | .none => 0
  | .op _ delta rest => unseen sink nested delta + rest.unclaimed sink nested
  | .frame _ delta limit callee rest =>
    unseen sink nested (delta - limit) + callee.unclaimed sink nested limit +
      rest.unclaimed sink nested

end

mutual

/-- The gas recorded above what was consumed: charges of a precompile beyond its limit, gas
    accounted to a program or its calls beyond what it was left, and gas of a constructor that
    the creator is not charged. -/
def GasCall.excess (sink nested : Bool) (limit : Nat) : GasCall → Nat
  | .idle => 0
  | .standard _ => 0
  | .precompile charges ending => (ending.recorded charges).sum - ending.consumed charges limit
  | .refused => 0
  | .unpaidStart => 0
  | .program accounted calls left =>
    accounted.sum + calls.consumed - (limit - left) + calls.excess sink
  | .abandoned calls => calls.consumed - limit + calls.excess sink
  | .evm code _ => code.excess sink nested
  | .create code deposit charged =>
    code.consumed + seenDeposit sink nested deposit - charged + code.excess sink nested

def ProgramCalls.excess (sink : Bool) : ProgramCalls → Nat
  | .none => 0
  | .call limit callee rest => callee.excess sink true limit + rest.excess sink

def Opcodes.excess (sink nested : Bool) : Opcodes → Nat
  | .none => 0
  | .op _ _ rest => rest.excess sink nested
  | .frame _ _ limit callee rest => callee.excess sink nested limit + rest.excess sink nested

end

mutual

/-- What revm is trusted in: the gas handed to a frame is taken with the opcode that opens it,
    and the frame does not consume more. -/
def GasCall.Bounded : GasCall → Prop
  | .program _ calls _ => calls.Bounded
  | .abandoned calls => calls.Bounded
  | .evm code _ => code.Bounded
  | .create code _ _ => code.Bounded
  | _ => True

def ProgramCalls.Bounded : ProgramCalls → Prop
  | .none => True
  | .call limit callee rest => callee.consumed limit ≤ limit ∧ callee.Bounded ∧ rest.Bounded

def Opcodes.Bounded : Opcodes → Prop
  | .none => True
  | .op _ _ rest => rest.Bounded
  | .frame _ delta limit callee rest =>
    limit ≤ delta ∧ callee.consumed limit ≤ limit ∧ callee.Bounded ∧ rest.Bounded

end

/-! ## Totals -/

/-- `attribute_wasm_computation` brings the gas of a program up to what it used, and leaves more
    than that as it is. -/
@[simp] theorem sum_attributeWasmComputation (used : MultiGas) (startingGas gasLeft : Nat) :
    (attributeWasmComputation used startingGas gasLeft).sum =
      used.sum + (startingGas - gasLeft - used.sum) := by
  have hsum : ∀ extra, (addMultiGas used (oneKind .wasmComputation extra)).sum =
      used.sum + extra := by
    intro extra
    rw [sum_addMultiGas, sum_oneKind]
  rw [← hsum (startingGas - gasLeft - used.sum)]
  refine congrArg MultiGas.sum (Arbreth.Stylus.multiGas_ext (funext fun k => ?_))
  by_cases hk : k = .wasmComputation
  · simp [attributeWasmComputation, addMultiGas, oneKind, hk]
  · simp [attributeWasmComputation, addMultiGas, oneKind, hk]

@[simp] theorem sum_noGas : noGas.sum = 0 := by decide

namespace Tally

/-- The gas the executor sums: the inspector's only if there is one. -/
def total (sink : Bool) (t : Tally) : Nat :=
  (if sink then t.opcodes.sum else 0) + t.stylus.sum + t.precompiles.sum

variable (sink nested : Bool)

@[simp] theorem total_zero : zero.total sink = 0 := by
  cases sink <;> rfl

@[simp] theorem upfrontOog_zero : zero.upfrontOog = 0 := rfl

@[simp] theorem total_add (s t : Tally) : (s.add t).total sink = s.total sink + t.total sink := by
  simp only [total, add, sum_addMultiGas]
  split <;> omega

@[simp] theorem upfrontOog_add (s t : Tally) :
    (s.add t).upfrontOog = s.upfrontOog + t.upfrontOog := rfl

variable (gas : MultiGas)

@[simp] theorem total_ofPrecompile : (ofPrecompile gas).total sink = gas.sum := by
  simp [total, ofPrecompile, zero]

@[simp] theorem upfrontOog_ofPrecompile : (ofPrecompile gas).upfrontOog = 0 := rfl

@[simp] theorem total_ofStylus : (ofStylus gas).total sink = gas.sum := by
  simp [total, ofStylus, zero]

@[simp] theorem upfrontOog_ofStylus : (ofStylus gas).upfrontOog = 0 := rfl

/-- What an opcode records and what nobody sees of it make up its gas. -/
theorem total_ofOpcode (kind : OpKind) (gas : Nat) :
    (ofOpcode nested (classify kind gas)).total sink + unseen sink nested gas = gas := by
  cases nested <;> cases sink <;>
    simp [total, ofOpcode, ofStylus, zero, unseen, sum_classify]

@[simp] theorem upfrontOog_ofOpcode : (ofOpcode nested gas).upfrontOog = 0 := by
  cases nested <;> rfl

@[simp] theorem total_ofDeposit (deposit : Nat) :
    (ofDeposit nested deposit).total sink = seenDeposit sink nested deposit := by
  cases nested <;> cases sink <;>
    simp [total, ofDeposit, zero, seenDeposit, sum_oneKind]

@[simp] theorem upfrontOog_ofDeposit (deposit : Nat) :
    (ofDeposit nested deposit).upfrontOog = 0 := by
  cases nested <;> rfl

@[simp] theorem total_ofUnpaidStart (gas : Nat) :
    (ofUnpaidStart nested gas).total sink = 0 := by
  simp [total, ofUnpaidStart, zero]

@[simp] theorem upfrontOog_ofUnpaidStart (gas : Nat) :
    (ofUnpaidStart nested gas).upfrontOog = if nested then 0 else gas := rfl

end Tally

/-- The gas recorded for a part of a transaction, with what nobody records, is the gas consumed
    with what is recorded above it. -/
def Balances (sink : Bool) (t : Tally) (unclaimed consumed excess : Nat) : Prop :=
  t.total sink + unclaimed + t.upfrontOog = consumed + excess

attribute [simp] GasCall.tally GasCall.unclaimed GasCall.consumed GasCall.excess
  ProgramCalls.tally ProgramCalls.unclaimed ProgramCalls.consumed ProgramCalls.excess
  Opcodes.tally Opcodes.unclaimed Opcodes.consumed Opcodes.excess Balances

mutual

/-- The books of a frame balance. By recursion over the frame: one case per way to run. -/
theorem GasCall.balances (sink nested : Bool) (limit : Nat) : ∀ c : GasCall, c.Bounded →
    Balances sink (c.tally nested limit) (c.unclaimed sink nested limit) (c.consumed limit)
      (c.excess sink nested limit)
  | .idle, _ => by simp
  | .standard gas, _ => by simp
  | .precompile charges ending, _ => by
    simp
    omega
  | .refused, _ => by simp
  | .unpaidStart, _ => by
    simp
    split <;> omega
  | .program accounted calls left, h => by
    have ih := calls.balances sink h
    simp at ih ⊢
    -- either the host functions accounted for more than the frame used, or the rest is wasm
    omega
  | .abandoned calls, h => by
    have ih := calls.balances sink h
    simp at ih ⊢
    omega
  | .evm code burned, h => by
    have ih := code.balances sink nested h
    simp at ih ⊢
    omega
  | .create code deposit charged, h => by
    have ih := code.balances sink nested h
    simp at ih ⊢
    omega

theorem ProgramCalls.balances (sink : Bool) : ∀ calls : ProgramCalls, calls.Bounded →
    Balances sink calls.tally (calls.unclaimed sink) calls.consumed (calls.excess sink)
  | .none, _ => by simp
  | .call limit callee rest, h => by
    have hcallee := callee.balances sink true limit h.2.1
    have hrest := rest.balances sink h.2.2
    simp at hcallee hrest ⊢
    omega

theorem Opcodes.balances (sink nested : Bool) : ∀ code : Opcodes, code.Bounded →
    Balances sink (code.tally nested) (code.unclaimed sink nested) code.consumed
      (code.excess sink nested)
  | .none, _ => by simp
  | .op kind delta rest, h => by
    have hop := Tally.total_ofOpcode sink nested kind delta
    have hrest := rest.balances sink nested h
    simp at hrest ⊢
    omega
  | .frame kind delta limit callee rest, h => by
    obtain ⟨htaken, hused, hcallee, hrest⟩ := h
    have hop := Tally.total_ofOpcode sink nested kind (delta - limit)
    have hcallee := callee.balances sink nested limit hcallee
    have hrest := rest.balances sink nested hrest
    simp at hcallee hrest ⊢
    -- the opcode takes the frame's gas with its own, and what the frame leaves comes back
    omega

end

/-! ## The transaction -/

/-- A transaction that enters the EVM: its intrinsic gas, the frame it opens with the gas handed
    to it, whether the inspector publishes to the sink, and the refund revm grants with whether
    the result is a success. revm's refund is part of the gas spent. -/
structure TxGas where
  intrinsic : IntrinsicInput
  limit : Nat
  top : GasCall
  sink : Bool
  refund : Nat
  success : Bool
  bounded : top.Bounded
  top_le : top.consumed limit ≤ limit
  refund_le : refund ≤ (intrinsicMultigas intrinsic).sum + top.consumed limit

namespace TxGas

variable (tx : TxGas)

/-- The gas spent before the refund. -/
def spent : Nat := (intrinsicMultigas tx.intrinsic).sum + tx.top.consumed tx.limit

/-- `gas_used()` of the result. -/
def evmGasUsed : Nat := tx.spent - tx.refund

/-- `gas_refunded`: only a successful result carries the refund. -/
def gasRefunded : Nat := if tx.success then tx.refund else 0

/-- The accumulators at the end. -/
def tally : Tally := tx.top.tally false tx.limit

/-- `dimensionable_gas`. -/
def dimensionableGas : Nat := tx.evmGasUsed + tx.gasRefunded - tx.tally.upfrontOog

/-- The gas the accumulators account for. Without the inspector the intrinsic gas is left to the
    remainder. -/
def observed : MultiGas :=
  let dimensioned := addMultiGas tx.tally.stylus tx.tally.precompiles
  if tx.sink then
    addMultiGas (addMultiGas (intrinsicMultigas tx.intrinsic) tx.tally.opcodes) dimensioned
  else dimensioned

/-- `execution_multi_gas`. -/
def executionMultiGas : MultiGas :=
  addMultiGas tx.observed (oneKind .computation (tx.dimensionableGas - tx.observed.sum))

/-- The split adds up to the gas used, without the gas of starts that could not be paid. -/
def SplitTotals : Prop :=
  tx.executionMultiGas.sum + tx.tally.upfrontOog = tx.evmGasUsed + tx.gasRefunded

/-- The gas consumed that is not recorded, the intrinsic gas with it if there is no inspector. -/
def unclaimed : Nat :=
  unseen tx.sink false (intrinsicMultigas tx.intrinsic).sum +
    tx.top.unclaimed tx.sink false tx.limit

/-- The gas recorded and not consumed. -/
def excess : Nat := tx.top.excess tx.sink false tx.limit

/-- The refund that lowers the gas used of a result that does not carry it. -/
def hiddenRefund : Nat := if tx.success then 0 else tx.refund

theorem sum_observed : tx.observed.sum + unseen tx.sink false (intrinsicMultigas tx.intrinsic).sum =
    (intrinsicMultigas tx.intrinsic).sum + tx.tally.total tx.sink := by
  cases hsink : tx.sink
  · simp only [observed, hsink, Tally.total, unseen, sum_addMultiGas, Bool.false_eq_true, if_false,
      Bool.or_false]
    omega
  · simp only [observed, hsink, Tally.total, unseen, sum_addMultiGas, if_true, Bool.or_true]
    omega

/-- The books of a transaction balance. -/
theorem balances : tx.observed.sum + tx.unclaimed + tx.tally.upfrontOog = tx.spent + tx.excess := by
  have htop := tx.top.balances tx.sink false tx.limit tx.bounded
  have hobserved := tx.sum_observed
  simp only [Balances, spent, excess, unclaimed, tally] at htop hobserved ⊢
  omega

theorem raw_add_hiddenRefund : tx.evmGasUsed + tx.gasRefunded + tx.hiddenRefund = tx.spent := by
  have hle : tx.refund ≤ tx.spent := tx.refund_le
  unfold evmGasUsed gasRefunded hiddenRefund
  split <;> omega

/-- The executor only adds what is missing. -/
theorem splitTotals_iff_le :
    tx.SplitTotals ↔ tx.observed.sum + tx.tally.upfrontOog ≤ tx.evmGasUsed + tx.gasRefunded := by
  unfold SplitTotals executionMultiGas dimensionableGas
  rw [sum_addMultiGas, sum_oneKind]
  omega

/-- The split of a transaction adds up to its gas exactly when the gas recorded and not consumed,
    with the refund the result does not carry, is made up by gas that nobody recorded. -/
theorem split_totals_iff : tx.SplitTotals ↔ tx.excess + tx.hiddenRefund ≤ tx.unclaimed := by
  have hbalances := tx.balances
  have hraw := tx.raw_add_hiddenRefund
  rw [splitTotals_iff_le]
  omega

end TxGas

/-- `getBalance` of ArbInfo as a transaction of its own, with the inspector: 36 bytes of input
    and 100 gas above the intrinsic gas. The word of input, the opening of the state, the balance
    and the word of output are all charged before `gas_check` looks at the limit. -/
def poorGetBalance : TxGas where
  intrinsic := ⟨false, 12, 24, 0, 0, 0, 0⟩
  limit := 100
  top := .precompile
    [⟨some .l2Calldata, 3⟩, ⟨some .storageAccessRead, 800⟩, ⟨some .computation, 700⟩,
      ⟨some .computation, 3⟩] .checked
  sink := true
  refund := 0
  success := false
  bounded := trivial
  top_le := by decide
  refund_le := Nat.zero_le _

/-- The call consumes the 100 gas it was handed and records 1506. -/
theorem split_exceeds_gas_used : poorGetBalance.evmGasUsed + poorGetBalance.gasRefunded = 21532 ∧
    poorGetBalance.executionMultiGas.sum = 22938 ∧ ¬ poorGetBalance.SplitTotals := by
  refine ⟨by decide, by decide, ?_⟩
  rw [TxGas.splitTotals_iff_le]
  decide

end Arbreth.Exec
