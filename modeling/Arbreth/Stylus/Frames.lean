/-
  Call frames (arb-evm, evm.rs: stylus_call_trampoline, stylus_create_trampoline,
  run_evm_bytecode, execute_stylus_program; arb-stylus, evm_api_impl.rs: contract_call,
  delegate_call, static_call, create1, create2).

  Three kinds of code run frames. revm runs EVM bytecode and enters sub-calls itself. A Stylus
  program makes its calls through the trampoline. EVM bytecode that the trampoline enters is
  run by `run_evm_bytecode`, which sends its calls through the trampoline as well. The
  trampoline knows a call by a number only, and not whether the caller is static.

  What code does is a tree of acts: changes of the state, calls with what the callee does,
  creations. Of revm it is assumed that a static interpreter refuses changes, creations and
  calls with value; of Stylus host functions and precompiles that they refuse changes where
  their own flag says static. An act that is refused has no effect, and what follows it in the
  tree is what the code did then; for code that stops there it is nothing.
-/
import Arbreth.Exec.State

namespace Arbreth.Stylus

open Function

open Arbreth.Lib
open Arbreth.Exec (Log)

/-- The journaled state. -/
structure Journal where
  balance : Address → U256
  nonce : Address → Nat
  storage : Address → U256 → U256
  transient : Address → U256 → U256
  code : Address → Bytes
  logs : List Log

/-- `transfer` of the journal: out of funds, overflow, or done. -/
def Journal.transfer (j : Journal) (src dst : Address) (value : U256) : Option Journal :=
  if j.balance src < value then none
  else if src = dst ∨ value = 0 then some j
  else if 2 ^ 256 ≤ (j.balance dst).toNat + value.toNat then none
  else some { j with
    balance := update (update j.balance src (j.balance src - value)) dst
      (j.balance dst + value) }

/-- `CallScheme`. -/
inductive CallScheme where
  | call
  | callCode
  | delegateCall
  | staticCall
  deriving DecidableEq, Repr

/-- Who runs a frame: revm, `run_evm_bytecode`, the WASM of a Stylus program, a precompile. -/
inductive Runner where
  | revm
  | inner
  | stylus
  | precompile
  deriving DecidableEq, Repr

/-- What the called address holds. -/
inductive CodeKind where
  | evm
  | stylus
  | precompile
  deriving DecidableEq, Repr

/-- A frame: its storage address, `msg.sender`, `msg.value`, and the flag it was given. -/
structure Frame where
  runner : Runner
  self : Address
  caller : Address
  callValue : U256
  isStatic : Bool
  deriving DecidableEq

/-- `CallInputs`, as the call instructions and the host functions fill them in. -/
structure CallInputs where
  scheme : CallScheme
  bytecodeAddress : Address
  caller : Address
  targetAddress : Address
  value : U256
  isStatic : Bool

def Frame.callInputs (f : Frame) (scheme : CallScheme) (address : Address) (value : U256) :
    CallInputs :=
  match scheme with
  | .call => ⟨scheme, address, f.self, address, value, f.isStatic⟩
  | .callCode => ⟨scheme, address, f.self, f.self, value, f.isStatic⟩
  | .delegateCall => ⟨scheme, address, f.caller, f.self, f.callValue, f.isStatic⟩
  | .staticCall => ⟨scheme, address, f.self, address, 0, true⟩

/-! ## The trampoline -/

/-- The call type `run_evm_bytecode` and the host functions give the trampoline. -/
def CallScheme.callType : CallScheme → Nat
  | .call => 0
  | .callCode => 0
  | .delegateCall => 1
  | .staticCall => 2

def CodeKind.trampolineRunner : CodeKind → Runner
  | .evm => .inner
  | .stylus => .stylus
  | .precompile => .precompile

/-- `stylus_call_trampoline` up to the callee's code: the state it starts in and its frame. -/
def stylusCallTrampoline (callType : Nat) (contract caller storageAddr : Address) (value : U256)
    (code : CodeKind) (j : Journal) : Option (Journal × Frame) :=
  let isStatic := callType = 2
  let isDelegate := callType = 1
  let transferred := if ¬ isDelegate ∧ value ≠ 0 then j.transfer caller contract value else some j
  transferred.map fun j' => (j', ⟨code.trampolineRunner, storageAddr, caller, value, isStatic⟩)

/-! ## Calls -/

def CodeKind.revmRunner : CodeKind → Runner
  | .evm => .revm
  | .stylus => .stylus
  | .precompile => .precompile

/-- `make_call_frame` of revm and `execute_stylus_call_concrete`: the value goes to the target
    address, which for CALLCODE is the caller itself. -/
def revmEnter (i : CallInputs) (code : CodeKind) (j : Journal) : Option (Journal × Frame) :=
  let transferred :=
    if i.scheme = .delegateCall then some j else j.transfer i.caller i.targetAddress i.value
  transferred.map fun j' => (j', ⟨code.revmRunner, i.targetAddress, i.caller, i.value, i.isStatic⟩)

/-- A CALL with value is refused in a static frame. -/
def Frame.refusesCall (f : Frame) (scheme : CallScheme) (value : U256) : Bool :=
  f.isStatic && scheme = .call && value ≠ 0

/-- The call itself: none where it fails before the callee's code. A precompile makes none. -/
def Frame.enter (f : Frame) (scheme : CallScheme) (address : Address) (value : U256)
    (code : CodeKind) (j : Journal) : Option (Journal × Frame) :=
  let i := f.callInputs scheme address value
  match f.runner with
  | .revm => revmEnter i code j
  | .precompile => none
  | .inner | .stylus =>
    stylusCallTrampoline i.scheme.callType i.bytecodeAddress i.caller i.targetAddress i.value code j

/-- `stylus_create_trampoline` and revm's creation up to the init code: the creator's nonce
    moves, then the endowment; a collision is a transfer that fails. -/
def Frame.enterCreate (f : Frame) (endowment : U256) (created : Address) (j : Journal) :
    Option (Journal × Option Journal) :=
  if j.balance f.self < endowment ∨ u64Max ≤ j.nonce f.self then none
  else
    let bumped := { j with nonce := update j.nonce f.self (j.nonce f.self + 1) }
    some (bumped, bumped.transfer f.self created endowment)

/-- The frame of init code; it is never static. -/
def Frame.initFrame (f : Frame) (endowment : U256) (created : Address) : Frame :=
  ⟨if f.runner = .revm then .revm else .inner, created, f.self, endowment, false⟩

/-! ## What code does -/

/-- The acts of a frame in order, and how it ends. -/
inductive Acts where
  | done (success : Bool)
  | change (effect : Journal → Journal) (rest : Acts)
  | call (scheme : CallScheme) (address : Address) (value : U256) (code : CodeKind) (body rest : Acts)
  | create (endowment : U256) (created : Address) (deployed : Bytes) (init rest : Acts)

/-- The state a frame leaves, undone where it fails, and every state on the way. -/
structure Ran where
  journal : Journal
  success : Bool
  visited : List Journal

/-- A sub-frame that ended: its state is kept on success, and gives way to `before` on failure. -/
def Ran.close (r : Ran) (before : Journal) (finish : Journal → Journal) : Journal :=
  if r.success then finish r.journal else before

def Acts.run (f : Frame) : Acts → Journal → Ran
  | .done success, j => ⟨j, success, []⟩
  | .change effect rest, j =>
    if f.isStatic then rest.run f j
    else
      let r := rest.run f (effect j)
      { r with visited := effect j :: r.visited }
  | .call scheme address value code body rest, j =>
    if f.refusesCall scheme value then rest.run f j
    else
      match f.enter scheme address value code j with
      | none => rest.run f j
      | some (j₁, callee) =>
        let sub := body.run callee j₁
        let j₂ := sub.close j id
        let r := rest.run f j₂
        { r with visited := j₁ :: sub.visited ++ j₂ :: r.visited }
  | .create endowment created deployed init rest, j =>
    if f.isStatic then rest.run f j
    else
      match f.enterCreate endowment created j with
      | none => rest.run f j
      | some (bumped, none) =>
        let r := rest.run f bumped
        { r with visited := bumped :: r.visited }
      | some (bumped, some j₁) =>
        let sub := init.run (f.initFrame endowment created) j₁
        let j₂ := sub.close bumped fun j' =>
          { j' with code := update j'.code created deployed }
        let r := rest.run f j₂
        { r with visited := bumped :: j₁ :: sub.visited ++ j₂ :: r.visited }

end Arbreth.Stylus
