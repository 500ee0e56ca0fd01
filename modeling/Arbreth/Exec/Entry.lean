/-
  How a transaction reaches the EVM, and what the executor takes over from its run.

  The types that may enter the EVM are all but internal transactions, deposits and submitted
  retryables. `enteredRun` is the run such a transaction gets, `execute_entered` says that the
  result, the pending record and the escrow sweep are those of the run, or those of a failed
  transaction that never ran. The other types ask for no sweep and no fee (`execute_notEntered`).
-/
import Arbreth.Exec.Paths

namespace Arbreth.Exec

open Arbreth.Lib Arbreth.Tx Arbreth.Parse

/-- What the run reads. -/
def runInput (x : Externals) (s : Executor) (t : ExecutableTx x) (retry : Option RetryContext) :
    EvmInput :=
  evmInput x (chargeGas x s t) t retry (posterGasFor x s t) (computeHoldGasFor x s t)

/-- The run's input and state if there is one: a redemption has started and the hook lets the
    transaction pass. -/
def enteredRun (x : Externals) (s : Executor) (t : ExecutableTx x) : Option (EvmInput × World) :=
  match evmEntry x s t with
  | none => none
  | some (s₀, retry, _) =>
    if hookAction x s₀ t = .none then some (runInput x s₀ t retry, (chargeGas x s₀ t).world)
    else none

/-- What is handed on by a transaction that failed without a run. -/
structure NeverRan (s s' : Executor) (p : Pending) (r : TxResult) : Prop where
  success : r.success = false
  state : r.state = none
  ctx : s'.ctx = s.ctx
  tickets : s'.world.tickets = s.world.tickets
  sweep : s'.cancelEscrowSweep = none
  dataFee : p.stylusDataFee = 0

/-- What is handed on from a run. -/
structure RanAs (out : EvmOutput) (s s' : Executor) (p : Pending) (r : TxResult) : Prop where
  success : r.success = out.success
  state : r.state = some out.world
  ctx : s'.ctx = s.ctx
  sweep : s'.cancelEscrowSweep = out.cancelEscrowSweep
  dataFee : p.stylusDataFee = out.stylusDataFee

variable {x : Externals} {s s' : Executor} {t : ExecutableTx x} {p : Pending} {r : TxResult}

/-! ## The ways to a result -/

theorem tickets_incrementNonce (w : World) (a : Address) :
    (w.incrementNonce a).tickets = w.tickets := by
  unfold World.incrementNonce
  split
  · rfl
  · rfl

/-- The EVM path takes everything over from its run, if it runs. -/
theorem executeEvm_entered {s₀ : Executor} {retry : Option RetryContext} {undo : Option RetryUndo}
    (hsweep : s₀.cancelEscrowSweep = none) (hok : executeEvm x s₀ t retry undo = (s', .ok r))
    (hpending : s'.pending = some p) :
    (hookAction x s₀ t ≠ .none ∧ NeverRan s₀ s' p r) ∨
      ∃ out, hookAction x s₀ t = .none ∧
        x.evm (runInput x s₀ t retry) (chargeGas x s₀ t).world = .ok out ∧ RanAs out s₀ s' p r := by
  have hpath := executeEvm_path (x := x) (s := s₀) (t := t) retry undo
  rw [hok] at hpath
  generalize hout : ((s', .ok r) : Outcome) = o at hpath
  cases hpath with
  | refused s'' err _ => cases hout
  | forced _ output hook =>
    cases hout
    cases hpending
    exact .inl ⟨hook, rfl, rfl, rfl, tickets_incrementNonce _ _, hsweep, rfl⟩
  | ran out hook _ hrun =>
    cases hout
    cases hpending
    exact .inr ⟨out, hook, hrun, rfl, rfl, rfl, rfl, rfl⟩

/-- The ways to an Ok result of a transaction that may enter the EVM. The run starts with the
    tickets of the state before. -/
theorem execute_entered (henters : EntersEvm (ArbTxType.fromU8 t.tx.ty))
    (hok : executeTransactionWithoutCommit x s t = (s', .ok r)) (hpending : s'.pending = some p) :
    (enteredRun x s t = none ∧ NeverRan s s' p r) ∨
      ∃ i w out, enteredRun x s t = some (i, w) ∧ w.tickets = s.world.tickets ∧
        x.evm i w = .ok out ∧ RanAs out s s' p r := by
  have hcase := execute_case (x := x) (s := s) (t := t)
  rw [hok] at hcase
  generalize hout : ((s', .ok r) : Outcome) = o at hcase
  unfold enteredRun
  cases hcase with
  | refused => cases hout
  | system o hnot => exact absurd henters hnot
  | ended z _ hentry hshell hframe =>
    have hctx := ctx_of_shell hshell
    have hsweep := sweep_of_shell hshell
    cases hout
    cases hpending
    rw [hentry]
    exact .inl ⟨rfl, rfl, rfl, hctx, funext fun id => hframe.ticket id not_false, hsweep, rfl⟩
  | evm s₀ retry undo hentry hshell hmoved =>
    have hctx := ctx_of_shell hshell
    have htickets := hmoved.tickets_eq
    rw [hentry]
    rcases executeEvm_entered (sweep_of_shell hshell) hout.symm hpending with
      ⟨hook, hnever⟩ | ⟨out, hook, hrun, hran⟩
    · exact .inl ⟨if_neg hook, { hnever with
        ctx := hnever.ctx.trans hctx
        tickets := hnever.tickets.trans htickets }⟩
    · exact .inr ⟨_, _, out, if_pos hook, htickets, hrun,
        { hran with ctx := hran.ctx.trans hctx }⟩

/-- A transaction of another type has no run and asks for no sweep and no fee. -/
theorem execute_notEntered (hnot : ¬ EntersEvm (ArbTxType.fromU8 t.tx.ty))
    (hok : executeTransactionWithoutCommit x s t = (s', .ok r)) (hpending : s'.pending = some p) :
    enteredRun x s t = none ∧ s'.cancelEscrowSweep = none ∧ p.stylusDataFee = 0 := by
  have hnone : evmEntry x s t = none := by
    have hty := entersEvm_eq t.tx
    rw [decide_eq_false hnot] at hty
    unfold evmEntry
    cases htx : t.tx.transaction with
    | internal tx | deposit tx | submitRetryable tx => rfl
    | _ =>
      rw [htx] at hty
      cases hty
  refine ⟨by rw [enteredRun, hnone], ?_⟩
  have hcase := execute_case (x := x) (s := s) (t := t)
  rw [hok] at hcase
  generalize hout : ((s', .ok r) : Outcome) = o at hcase
  cases hcase with
  | refused => cases hout
  | system o _ hended =>
    subst hout
    exact ⟨hended.sweep, hended.noFee p r hpending rfl⟩
  | ended z hty => exact absurd (hty ▸ by decide) hnot
  | evm s₀ retry undo hentry => cases hnone.symm.trans hentry

theorem env_kind (t : ExecutableTx x) : t.env.kind = Accessor.kind t.tx := by
  have henv := t.env_eq
  obtain ⟨chainId, -, henv⟩ := bind_eq_ok.mp henv
  obtain ⟨fees, -, henv⟩ := bind_eq_ok.mp henv
  exact (congrArg TxEnv.kind (Except.ok.inj henv)).symm

end Arbreth.Exec
