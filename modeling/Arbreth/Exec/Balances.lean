/-
  What a contract reads as a balance (arb-evm, evm.rs: arb_balance, arb_selfbalance; build.rs:
  execute_transaction_without_commit; arb-stylus, evm_api_impl.rs: account_balance;
  arb-precompiles, arbinfo.rs: handle_get_balance).

  revm buys less gas than the transaction's limit: the poster's gas and the gas held back are
  taken off first. The sender's balance in the journal is too high by their price until the
  transaction ends. The executor publishes this correction twice, to a cell of the thread and to
  the context of the precompiles. The opcodes subtract what the cell holds; the host call of
  Stylus and the precompile read the journal, and nothing reads the context's copy.

  A run is a list of steps that change balances and enter and leave frames. Nothing is assumed of
  the balances; no step touches the cell or the sender.
-/
import Arbreth.Exec.GasCharging

namespace Arbreth.Exec

open Arbreth.Lib

/-- Whose code runs in a frame: revm's, `run_evm_bytecode`'s or a Stylus program's. -/
inductive FrameKind where
  | revm
  | trampoline
  | stylus
  deriving DecidableEq

/-- What the balance reads depend on. -/
structure EvmRun where
  balances : Address → U256
  caller : Address
  correctionCell : Nat
  contextCorrection : Nat
  frames : List (FrameKind × Address)

open EvmRun

inductive EvmStep where
  | balances (balances : Address → U256)
  | enter (kind : FrameKind) (target : Address)
  | leave

namespace EvmRun

/-- The start of a run: both copies of the correction are published. -/
def start (i : EvmInput) (w : World) : EvmRun where
  balances := w.getBalance
  caller := i.env.caller
  correctionCell := i.posterBalanceCorrection
  contextCorrection := i.posterBalanceCorrection
  frames := []

def step (r : EvmRun) : EvmStep → EvmRun
  | .balances balances => { r with balances := balances }
  | .enter kind target => { r with frames := (kind, target) :: r.frames }
  | .leave => { r with frames := r.frames.tail }

def run (r : EvmRun) (steps : List EvmStep) : EvmRun := steps.foldl step r

/-- `poster_balance_correction_word`. -/
def correctionWord (r : EvmRun) : U256 := BitVec.ofNat 256 r.correctionCell

/-- `arb_balance`. -/
def arbBalance (r : EvmRun) (a : Address) : U256 :=
  if a = r.caller then satSub256 (r.balances a) r.correctionWord else r.balances a

/-- `arb_selfbalance`, in a frame with this target. -/
def arbSelfbalance (r : EvmRun) (target : Address) : U256 :=
  if target = r.caller then satSub256 (r.balances target) r.correctionWord else r.balances target

/-- `account_balance`, the host call. -/
def accountBalance (r : EvmRun) (a : Address) : U256 := r.balances a

/-- `handle_get_balance`. -/
def handleGetBalance (r : EvmRun) (a : Address) : U256 := r.balances a

/-! ## Along a run -/

variable (r : EvmRun) (steps : List EvmStep)

theorem step_caller (e : EvmStep) : (r.step e).caller = r.caller := by
  cases e <;> rfl

theorem step_correctionCell (e : EvmStep) : (r.step e).correctionCell = r.correctionCell := by
  cases e <;> rfl

theorem run_caller : (r.run steps).caller = r.caller := by
  induction steps generalizing r with
  | nil => rfl
  | cons e steps ih => exact (ih (r.step e)).trans (r.step_caller e)

theorem run_correctionCell : (r.run steps).correctionCell = r.correctionCell := by
  induction steps generalizing r with
  | nil => rfl
  | cons e steps ih => exact (ih (r.step e)).trans (r.step_correctionCell e)

end EvmRun

/-! ## What should be read -/

/-- The price of the gas that is not bought up front. -/
def withheld (x : Externals) (s : Executor) (t : ExecutableTx x) : Nat :=
  (actualGasPrice x (chargeGas x s t) t).toNat * (posterGasFor x s t + computeHoldGasFor x s t)

/-- The balance after buying the whole gas limit. -/
def EvmRun.boughtUpFront (r : EvmRun) (withheld : Nat) (a : Address) : Nat :=
  if a = r.caller then (r.balances a).toNat - withheld else (r.balances a).toNat

/-- All reads of a balance give the balance after buying the whole gas limit. -/
structure ReadsAgree (r : EvmRun) (withheld : Nat) (a : Address) : Prop where
  opcode : (r.arbBalance a).toNat = r.boughtUpFront withheld a
  selfOpcode : ∀ frame, r.frames.head? = some frame → frame.1 ≠ .stylus → frame.2 = a →
    (r.arbSelfbalance frame.2).toNat = r.boughtUpFront withheld a
  hostCall : (r.accountBalance a).toNat = r.boughtUpFront withheld a
  precompile : (r.handleGetBalance a).toNat = r.boughtUpFront withheld a

theorem correction_eq_zero {x : Externals} {s : Executor} {t : ExecutableTx x}
    (retry : Option RetryContext) (h : withheld x s t = 0) :
    (runInput x s t retry).posterBalanceCorrection = 0 := by
  have hprice : (satMul256 (actualGasPrice x (chargeGas x s t) t)
      (satAdd64 (posterGasFor x s t) (computeHoldGasFor x s t))).toNat = 0 := by
    rw [toNat_satMul256]
    rcases Nat.mul_eq_zero.mp h with hzero | hzero
    · simp [hzero]
    · have hgas : satAdd64 (posterGasFor x s t) (computeHoldGasFor x s t) = 0 := by
        rw [satAdd64, hzero, Nat.zero_min]
      simp [hgas]
  change min _ u128Max = 0
  rw [hprice, Nat.zero_min]

/-- The reads that subtract the correction and those that do not agree where it changes nothing. -/
theorem satSub256_correction {r : EvmRun} {a : Address}
    (h : r.correctionCell = 0 ∨ r.balances a = 0) :
    satSub256 (r.balances a) r.correctionWord = r.balances a := by
  rcases h with hcell | hbalance
  · rw [correctionWord, hcell]
    exact satSub256_zero _
  · refine BitVec.eq_of_toNat_eq ?_
    rw [toNat_satSub256, hbalance]
    exact Nat.zero_sub _

theorem boughtUpFront_eq {r : EvmRun} {withheld : Nat} {a : Address}
    (h : a ≠ r.caller ∨ withheld = 0 ∨ r.balances a = 0) :
    r.boughtUpFront withheld a = (r.balances a).toNat := by
  unfold boughtUpFront
  by_cases ha : a = r.caller
  · rw [if_pos ha]
    rcases h with hne | hzero | hbalance
    · exact absurd ha hne
    · rw [hzero, Nat.sub_zero]
    · rw [hbalance]
      exact Nat.zero_sub _
  · exact if_neg ha

/-- At every point of every run, all reads of a balance agree exactly for the addresses other than
    the sender's, unless nothing is held back or the sender has nothing. -/
theorem balance_reads_agree_iff (x : Externals) (s : Executor) (t : ExecutableTx x)
    (retry : Option RetryContext) (w : World) (steps : List EvmStep) (a : Address) :
    ReadsAgree ((start (runInput x s t retry) w).run steps) (withheld x s t) a ↔
      a ≠ (runInput x s t retry).env.caller ∨ withheld x s t = 0 ∨
        ((start (runInput x s t retry) w).run steps).balances a = 0 := by
  have hcaller := run_caller (.start (runInput x s t retry) w) steps
  have hcell := run_correctionCell (.start (runInput x s t retry) w) steps
  change _ = (runInput x s t retry).env.caller at hcaller
  generalize (start (runInput x s t retry) w).run steps = r at hcaller hcell ⊢
  rw [← hcaller]
  constructor
  · intro h
    by_cases ha : a = r.caller
    · have hread : (r.balances a).toNat = r.boughtUpFront (withheld x s t) a := h.hostCall
      rw [boughtUpFront, if_pos ha] at hread
      rcases Nat.eq_zero_or_pos (withheld x s t) with hzero | hpos
      · exact Or.inr (Or.inl hzero)
      · refine Or.inr (Or.inr (BitVec.eq_of_toNat_eq ?_))
        change (r.balances a).toNat = 0
        omega
    · exact Or.inl ha
  · intro h
    have hexpected := boughtUpFront_eq h
    have hopcode : r.arbBalance a = r.balances a := by
      unfold arbBalance
      by_cases ha : a = r.caller
      · rw [if_pos ha]
        refine satSub256_correction ?_
        rcases h with hne | hzero | hbalance
        · exact absurd ha hne
        · exact Or.inl (hcell.trans (correction_eq_zero retry hzero))
        · exact Or.inr hbalance
      · exact if_neg ha
    refine ⟨?_, ?_, hexpected.symm, hexpected.symm⟩
    · rw [hopcode, hexpected]
    · rintro frame - - rfl
      change (r.arbBalance frame.2).toNat = _
      rw [hopcode, hexpected]

/-- The sender of the sample transfer has two ether. Its poster gas of 1600 at a price of 10^8 is
    not bought up front: the opcode leaves it out, the host call and the precompile do not. -/
theorem balance_reads_differ :
    let r := (start (runInput (sampleExternals plainCall) (fundedExecutor false)
      (sampleTx plainCall) none) (fundedExecutor false).world).run [.enter .revm 0xb0b]
    r.arbBalance sampleSender = 1999999840000000000 ∧
      r.accountBalance sampleSender = 2000000000000000000 ∧
      r.handleGetBalance sampleSender = 2000000000000000000 := by
  decide +kernel

end Arbreth.Exec
