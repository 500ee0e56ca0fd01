/-
  The gas of creations below a Stylus program (arb-evm, evm.rs: stylus_create_trampoline,
  run_evm_bytecode; arb-stylus, evm_api_impl.rs: create1, create2).

  The trampoline answers a creation with an address or none, an output and a cost. The host
  functions charge the cost, and `run_evm_bytecode` gives back what is left above it, whatever it
  takes the failure for. A failed constructor is charged what it used, also where it ended in an
  exceptional halt: `create_follows_evm_iff` says that this is the only departure.
-/
import Arbreth.Stylus.CallBook
import Arbreth.Stylus.Refunds

namespace Arbreth.Stylus

open Arbreth.Lib

/-- The result of a constructor that was given this much gas. -/
structure ConstructorRun (gas : Nat) where
  ending : Ending
  output : Bytes
  remaining : Nat
  within : remaining ≤ gas

/-- What decides about a creation before its constructor runs: the creator's balance, whether its
    nonce can be bumped and the new account opened, and the limits on deployed code. -/
structure CreateContext where
  arbosVersion : Nat
  maxCodeSize : Nat
  balance : U256
  endowment : U256
  nonceBumped : Bool
  accountOpened : Bool
  created : Address

/-- `SubCreateResult`, without the pages. -/
structure SubCreateResult where
  address : Option Address
  output : Bytes
  gasCost : Nat
  deriving DecidableEq

/-- `code_deposit_cost`. -/
def codeDepositCost (length : Nat) : Nat := 200 * length

/-- The code a constructor returned may not be stored, or cannot be paid for. -/
def CreateContext.refusesCode (ctx : CreateContext) (output : Bytes) (remaining : Nat) : Bool :=
  ctx.maxCodeSize < output.length || rejectsCode ctx.arbosVersion output ||
    remaining < codeDepositCost output.length

/-- `stylus_create_trampoline`. -/
def stylusCreateTrampoline (ctx : CreateContext) (gas : Nat) (run : ConstructorRun gas) :
    SubCreateResult :=
  if ctx.balance < ctx.endowment then ⟨none, [], 0⟩
  else if !ctx.nonceBumped then ⟨none, [], gas⟩
  else if !ctx.accountOpened then ⟨none, [], gas⟩
  else if run.ending = .success then
    if ctx.refusesCode run.output run.remaining then ⟨none, [], gas⟩
    else ⟨some ctx.created, [], gas - (run.remaining - codeDepositCost run.output.length)⟩
  else ⟨none, run.output, gas - run.remaining⟩

/-- What `run_evm_bytecode` makes of the answer. -/
inductive InstructionResult where
  | return
  | revert
  | createInitCodeStartingEF00

/-- `is_ok_or_revert`: revm counts init code that starts with 0xEF00 among the reverts. -/
def InstructionResult.isOkOrRevert : InstructionResult → Bool
  | .return => true
  | .revert => true
  | .createInitCodeStartingEF00 => true

def SubCreateResult.insResult (r : SubCreateResult) : InstructionResult :=
  if r.address.isSome then .return
  else if r.output ≠ [] then .revert
  else .createInitCodeStartingEF00

/-! ## Who creates -/

/-- A creation by a host function that has `rest` gas left above its base cost, or by the opcode
    with a gas limit. `create2` also pays for hashing `words` words of init code. -/
inductive Creator where
  | create1 (rest : Nat)
  | create2 (rest words : Nat)
  | opcode (gasLimit : Nat)
  deriving DecidableEq

open Creator

namespace Creator

def baseCost : Creator → Nat
  | .create1 _ => 32000
  | .create2 _ words => 32000 + 6 * words
  | .opcode _ => 0

/-- The gas the constructor is given. -/
def forwarded : Creator → Nat
  | .create1 rest => rest - rest / 64
  | .create2 rest _ => rest - rest / 64
  | .opcode gasLimit => gasLimit

/-- What the creator's gas is short of afterwards, the base cost included. -/
def cost (c : Creator) (r : SubCreateResult) : Nat :=
  match c with
  | .create1 _ => c.baseCost + r.gasCost
  | .create2 _ _ => c.baseCost + r.gasCost
  | .opcode gasLimit =>
    let erased := if r.insResult.isOkOrRevert then gasLimit - r.gasCost else 0
    gasLimit - erased

/-- What is charged out of the forwarded gas. -/
def charged (c : Creator) (r : SubCreateResult) : Nat := c.cost r - c.baseCost

end Creator

/-! ## The rules -/

/-- The constructor runs. -/
def CreateContext.Runs (ctx : CreateContext) : Prop :=
  ¬ ctx.balance < ctx.endowment ∧ ctx.nonceBumped = true ∧ ctx.accountOpened = true

/-- The rules of the EVM for the gas of a creation that fails. -/
structure FollowsEvm (c : Creator) (ctx : CreateContext) (run : ConstructorRun c.forwarded) :
    Prop where
  unpaid : ctx.balance < ctx.endowment →
    c.charged (stylusCreateTrampoline ctx c.forwarded run) = 0
  reverted : ctx.Runs → run.ending = .revert →
    c.charged (stylusCreateTrampoline ctx c.forwarded run) = c.forwarded - run.remaining
  halted : ctx.Runs → run.ending = .halt →
    c.charged (stylusCreateTrampoline ctx c.forwarded run) = c.forwarded ∧
      (stylusCreateTrampoline ctx c.forwarded run).address = none
  refused : ctx.Runs → run.ending = .success →
    ctx.refusesCode run.output run.remaining = true →
    c.charged (stylusCreateTrampoline ctx c.forwarded run) = c.forwarded ∧
      (stylusCreateTrampoline ctx c.forwarded run).address = none

/-- A constructor that ends in an exceptional halt leaves no gas. -/
def LeavesNoGas (c : Creator) (ctx : CreateContext) (run : ConstructorRun c.forwarded) : Prop :=
  ctx.Runs → run.ending = .halt → run.remaining = 0

section Trampoline

variable {ctx : CreateContext} {gas : Nat} {run : ConstructorRun gas}

theorem trampoline_unpaid (h : ctx.balance < ctx.endowment) :
    stylusCreateTrampoline ctx gas run = ⟨none, [], 0⟩ := if_pos h

theorem trampoline_failed (hruns : ctx.Runs) (h : run.ending ≠ .success) :
    stylusCreateTrampoline ctx gas run = ⟨none, run.output, gas - run.remaining⟩ := by
  simp [stylusCreateTrampoline, hruns.1, hruns.2.1, hruns.2.2, h]

theorem trampoline_refused (hruns : ctx.Runs) (h : run.ending = .success)
    (hrefuses : ctx.refusesCode run.output run.remaining = true) :
    stylusCreateTrampoline ctx gas run = ⟨none, [], gas⟩ := by
  simp [stylusCreateTrampoline, hruns.1, hruns.2.1, hruns.2.2, h, hrefuses]

theorem trampoline_gasCost_le : (stylusCreateTrampoline ctx gas run).gasCost ≤ gas := by
  unfold stylusCreateTrampoline
  repeat' split
  all_goals dsimp only
  all_goals omega

end Trampoline

/-- Every creator is charged the cost of the answer. -/
theorem charged_trampoline (c : Creator) (ctx : CreateContext) (run : ConstructorRun c.forwarded) :
    c.charged (stylusCreateTrampoline ctx c.forwarded run) =
      (stylusCreateTrampoline ctx c.forwarded run).gasCost := by
  have hle : (stylusCreateTrampoline ctx c.forwarded run).gasCost ≤ c.forwarded :=
    trampoline_gasCost_le
  generalize stylusCreateTrampoline ctx c.forwarded run = r at hle ⊢
  cases c with
  | create1 rest => exact Nat.add_sub_cancel_left _ _
  | create2 rest words => exact Nat.add_sub_cancel_left _ _
  | opcode gasLimit =>
    have hgiven : r.insResult.isOkOrRevert = true := by cases r.insResult <;> rfl
    change r.gasCost ≤ gasLimit at hle
    change gasLimit - (if r.insResult.isOkOrRevert then gasLimit - r.gasCost else 0) - 0 = r.gasCost
    rw [if_pos hgiven]
    omega

/-- The gas of a creation that fails follows the rules of the EVM exactly where a constructor that
    halts had no gas left. -/
theorem create_follows_evm_iff (c : Creator) (ctx : CreateContext)
    (run : ConstructorRun c.forwarded) :
    FollowsEvm c ctx run ↔ LeavesNoGas c ctx run := by
  have hwithin := run.within
  constructor
  · intro hfollows hruns hhalt
    have hcharged := (hfollows.halted hruns hhalt).1
    rw [charged_trampoline, trampoline_failed hruns (by simp [hhalt])] at hcharged
    dsimp only at hcharged
    omega
  · intro hleft
    refine ⟨fun hunpaid => ?_, fun hruns hrevert => ?_, fun hruns hhalt => ?_,
      fun hruns hsuccess hrefuses => ?_⟩
    · rw [charged_trampoline, trampoline_unpaid hunpaid]
    · rw [charged_trampoline, trampoline_failed hruns (by simp [hrevert])]
    · rw [charged_trampoline, trampoline_failed hruns (by simp [hhalt])]
      exact ⟨by simp [hleft hruns hhalt], rfl⟩
    · rw [charged_trampoline, trampoline_refused hruns hsuccess hrefuses]
      exact ⟨rfl, rfl⟩

/-- No endowment and an account that can be opened. -/
def sampleCreation : CreateContext := ⟨60, 24576, 10, 0, true, true, 7⟩

/-- A constructor that halts at once costs nothing: not a program with six hundred and forty gas above
    the base cost, nor EVM code that forwards a thousand. -/
theorem create_gas_misread :
    (create1 640).forwarded = 630 ∧
      (create1 640).charged (stylusCreateTrampoline sampleCreation 630
        ⟨.halt, [], 630, by decide⟩) = 0 ∧
      (Creator.opcode 1000).charged (stylusCreateTrampoline sampleCreation 1000
        ⟨.halt, [], 1000, by decide⟩) = 0 := by
  decide

end Arbreth.Stylus
