/-
  The block gas budget of the executor (arb-evm, build.rs: the two checks of
  execute_transaction_without_commit and the end of commit_transaction).

  Executing a transaction of a type that enters the EVM leaves the budget and the count of user
  transactions as they are, whether it returns Ok or an error. Only the last stage of a commit
  charges. `execute_limit` says when a user transaction is refused for the budget, and
  `blockGas_processTransaction` what a processed transaction costs.
-/
import Arbreth.Exec.Sweep

namespace Arbreth.Exec

open Arbreth.Lib Arbreth.Tx Arbreth.Parse Executor

/-- What the rules of the block gas budget read. -/
structure BlockGas where
  left : Nat
  processed : Nat
  arbosVersion : Nat
  deriving DecidableEq

/-- The check of ArbOS before 50: all but the first user transaction must fit. -/
def BlockGas.Rejects (b : BlockGas) (computeGas : Nat) : Prop :=
  b.arbosVersion < 50 ∧ 0 < b.processed ∧ b.left < computeGas

instance (b : BlockGas) (computeGas : Nat) : Decidable (b.Rejects computeGas) :=
  inferInstanceAs (Decidable (_ ∧ _ ∧ _))

def BlockGas.spend (b : BlockGas) (gas : Nat) : BlockGas := { b with left := b.left - gas }

def BlockGas.count (b : BlockGas) (isUser : Bool) : BlockGas :=
  { b with processed := if isUser then b.processed + 1 else b.processed }

/-- The compute gas charged for a gas use with its data gas. -/
def computeUsed (gasUsed dataGas : Nat) : Nat :=
  if gasUsed < dataGas then txGas else max (gasUsed - dataGas) txGas

namespace Executor

def blockGas (s : Executor) : BlockGas := ⟨s.blockGasLeft, s.userTxsProcessed, s.ctx.arbosVersion⟩

/-- The gas of the scheduled retries. -/
def scheduledGas (s : Executor) : List Nat :=
  match s.hooks with
  | some h => h.txProc.scheduledGas
  | none => []

/-- The gas counted against the block: from ArbOS 11 on without that of the scheduled retries. -/
def countedGas (s : Executor) (gasUsed : Nat) : Nat :=
  if 11 ≤ s.ctx.arbosVersion then gasUsed - s.scheduledGas.sum else gasUsed

/-- All that the charge at the end of a commit reads of the executor. -/
def meter (s : Executor) : BlockGas × List Nat := (s.blockGas, s.scheduledGas)

end Executor

/-- The compute gas of a transaction's limit. -/
def computeGasOf (x : Externals) (s : Executor) (t : ExecutableTx x) : Nat :=
  max (Accessor.gasLimit t.tx - posterGasFor x s.resetTx t) txGas

variable {x : Externals} {s s' : Executor} {t : ExecutableTx x} {p : Pending} {r : TxResult}

theorem foldl_sub (gas : Nat) (l : List Nat) : l.foldl (· - ·) gas = gas - l.sum := by
  induction l generalizing gas with
  | nil => rfl
  | cons g l ih => rw [List.foldl_cons, ih, List.sum_cons, Nat.sub_sub]

/-! ## Stages that charge nothing -/

theorem meter_of_shell (h : s'.shell = s.shell) : s'.meter = s.meter := by
  have hleft : s'.blockGasLeft = s.blockGasLeft := congrArg Shell.blockGasLeft h
  have hprocessed : s'.userTxsProcessed = s.userTxsProcessed := congrArg Shell.userTxsProcessed h
  unfold meter Executor.blockGas scheduledGas
  rw [hooks_of_shell h, ctx_of_shell h, hleft, hprocessed]

theorem meter_commitRun (s : Executor) (r : TxResult) : (commitRun s r).meter = s.meter := by
  unfold commitRun refreshStateParams
  cases r.dirtyParams with
  | none => rfl
  | some d =>
    unfold meter scheduledGas
    cases s.hooks with
    | none => rfl
    | some h => rfl

theorem meter_sweepCancelled (s : Executor) : (sweepCancelled s).meter = s.meter := by
  unfold sweepCancelled
  split
  · rfl
  · exact (meter_of_shell (shell_doTransfer { s with cancelEscrowSweep := none } _ _ _)).trans rfl

/-! ## The charge -/

theorem blockGas_chargeBlockGas (s : Executor) (p : Pending) (gasUsed : Nat) :
    (chargeBlockGas s p gasUsed).blockGas =
      (s.blockGas.spend (computeUsed (s.countedGas gasUsed) p.posterGas)).count
        (isUserTx p.arbTxType) := by
  have hcounted : (match s.hooks with
      | some h => if 11 ≤ s.ctx.arbosVersion then h.txProc.scheduledGas.foldl (· - ·) gasUsed
          else gasUsed
      | none => gasUsed) = s.countedGas gasUsed := by
    unfold countedGas scheduledGas
    cases s.hooks with
    | none => simp
    | some h => simp only [foldl_sub]
  rw [← hcounted]
  rfl

theorem countedGas_congr (h : s'.meter = s.meter) (gasUsed : Nat) :
    s'.countedGas gasUsed = s.countedGas gasUsed := by
  have hversion : s'.ctx.arbosVersion = s.ctx.arbosVersion :=
    congrArg (fun m : BlockGas × List Nat => m.1.arbosVersion) h
  have hgas : s'.scheduledGas = s.scheduledGas := congrArg Prod.snd h
  unfold countedGas
  rw [hversion, hgas]

/-- A commit charges the counted gas of the pending transaction, and nothing else. -/
theorem blockGas_commitTransaction (hpending : s.pending = some p) :
    (commitTransaction x s r).blockGas =
      (s.blockGas.spend (computeUsed (s.countedGas r.gasUsed) p.posterGas)).count
        (isUserTx p.arbTxType) := by
  rw [commitTransaction_eq hpending]
  have hbefore : (burnWithdrawn (sweepCancelled (beforeSweep s p r))
      ((withdrawals r).foldl satAdd256 0)).meter = s.meter := by
    rw [meter_of_shell (shell_burnWithdrawn _ _), meter_sweepCancelled, ← meter_commitRun s r]
    exact meter_of_shell ((shell_payStylusDataFee _ _).trans (shell_redirectTip _ _ _))
  generalize burnWithdrawn (sweepCancelled (beforeSweep s p r))
    ((withdrawals r).foldl satAdd256 0) = s₁ at hbefore ⊢
  have hextra : (chargeExtraGas s₁ p r.gasUsed).meter = s.meter :=
    (meter_of_shell (shell_chargeExtraGas _ _ _)).trans hbefore
  have hcharge : ∀ s₂ : Executor, s₂.meter = s.meter → (chargeBlockGas s₂ p r.gasUsed).blockGas =
      (s.blockGas.spend (computeUsed (s.countedGas r.gasUsed) p.posterGas)).count
        (isUserTx p.arbTxType) := by
    intro s₂ h
    have hgas : s₂.blockGas = s.blockGas := congrArg Prod.fst h
    rw [blockGas_chargeBlockGas, countedGas_congr h, hgas]
  apply hcharge
  cases p.retryContext with
  | some c => exact (meter_of_shell (shell_settleRetry _ _ _ _ _)).trans hextra
  | none =>
    dsimp only
    split
    · exact (meter_of_shell (shell_settleNormal _ _ _)).trans hextra
    · exact hextra

/-! ## Execution -/

/-- An outcome before the commit: nothing is charged yet, and what returned Ok is pending under
    its type. -/
structure Uncharged (b : BlockGas) (ty : Option ArbTxType) (o : Outcome) : Prop where
  blockGas : o.1.blockGas = b
  pending : ∀ r, o.2 = .ok r → ∃ p, o.1.pending = some p ∧ p.arbTxType = ty

theorem uncharged_executeEvm (s : Executor) (t : ExecutableTx x) (retry : Option RetryContext)
    (undo : Option RetryUndo) :
    Uncharged s.blockGas (ArbTxType.fromU8 t.tx.ty) (executeEvm x s t retry undo) := by
  unfold executeEvm
  dsimp only
  split
  · exact ⟨rfl, fun r hr => nomatch hr⟩
  · split
    · exact ⟨rfl, fun r _ => ⟨_, rfl, rfl⟩⟩
    · exact ⟨rfl, fun r _ => ⟨_, rfl, rfl⟩⟩
    · unfold validateAndRun
      dsimp only
      split
      · exact ⟨rfl, fun r hr => nomatch hr⟩
      · split
        · exact ⟨rfl, fun r hr => nomatch hr⟩
        · exact ⟨rfl, fun r _ => ⟨_, rfl, rfl⟩⟩

/-- A transaction of a type that enters the EVM is charged nothing before its commit. -/
theorem uncharged_execute (henters : EntersEvm (ArbTxType.fromU8 t.tx.ty)) :
    Uncharged s.blockGas (ArbTxType.fromU8 t.tx.ty) (executeTransactionWithoutCommit x s t) := by
  have hcase := execute_case (x := x) (s := s) (t := t)
  generalize executeTransactionWithoutCommit x s t = o at hcase ⊢
  cases hcase with
  | refused => exact ⟨rfl, fun r hr => nomatch hr⟩
  | system o hnot => exact absurd henters hnot
  | ended z hty _ hshell =>
    exact ⟨congrArg Prod.fst (meter_of_shell hshell), fun r _ => ⟨_, rfl, hty.symm⟩⟩
  | evm s₀ retry undo _ hshell =>
    have hevm := uncharged_executeEvm s₀ t retry undo
    rwa [show s₀.blockGas = s.blockGas from congrArg Prod.fst (meter_of_shell hshell)] at hevm

/-- What a transaction costs the block if it is committed. -/
theorem blockGas_processTransaction (henters : EntersEvm (ArbTxType.fromU8 t.tx.ty))
    (hok : executeTransactionWithoutCommit x s t = (s', .ok r)) (hpending : s'.pending = some p) :
    (processTransaction x s t).blockGas =
      (s.blockGas.spend (computeUsed (s'.countedGas r.gasUsed) p.posterGas)).count
        (isUserTx (ArbTxType.fromU8 t.tx.ty)) := by
  have hexecute := uncharged_execute (x := x) (s := s) henters
  rw [hok] at hexecute
  obtain ⟨p', hp', hty⟩ := hexecute.pending r rfl
  cases hpending.symm.trans hp'
  unfold processTransaction commitOutcome
  rw [hok]
  rw [blockGas_commitTransaction hpending, hexecute.blockGas, hty]

theorem blockGas_failed {e : ExecError} (henters : EntersEvm (ArbTxType.fromU8 t.tx.ty))
    (herr : (executeTransactionWithoutCommit x s t).2 = .error e) :
    (processTransaction x s t).blockGas = s.blockGas := by
  have hexecute := uncharged_execute (x := x) (s := s) henters
  unfold processTransaction commitOutcome
  generalize executeTransactionWithoutCommit x s t = o at hexecute herr
  obtain ⟨s', res⟩ := o
  cases herr
  exact hexecute.blockGas

theorem validateUserTx_ne_limit : validateUserTx x s t ≠ .error .blockGasLimitReached := by
  unfold validateUserTx
  dsimp only
  split
  · exact nofun
  · split
    · exact nofun
    · split
      · exact nofun
      · split
        · exact nofun
        · exact nofun

/-- A user transaction is refused for the budget if less than 21000 is left or if it does not
    fit, and for no other reason. -/
theorem execute_limit (huser : isUserTx (ArbTxType.fromU8 t.tx.ty) = true) :
    (executeTransactionWithoutCommit x s t).2 = .error .blockGasLimitReached ↔
      s.blockGasLeft < txGas ∨ s.blockGas.Rejects (computeGasOf x s t) := by
  have hevm : ∀ undo, (executeEvm x s.resetTx t none undo).2 = .error .blockGasLimitReached ↔
      s.blockGas.Rejects (computeGasOf x s t) := by
    intro undo
    unfold executeEvm
    dsimp only
    split
    · next h => exact ⟨fun _ => h.2, fun _ => rfl⟩
    · next h =>
      refine ⟨fun he => ?_, fun hr => absurd ⟨huser, hr⟩ h⟩
      exfalso
      revert he
      split
      · exact fun he => nomatch he
      · exact fun he => nomatch he
      · unfold validateAndRun
        dsimp only
        rw [if_pos huser]
        split
        · next e he =>
          intro hlimit
          cases hlimit
          exact validateUserTx_ne_limit he
        · split
          · exact fun he => nomatch he
          · exact fun he => nomatch he
  have hcase := execute_case (x := x) (s := s) (t := t)
  generalize executeTransactionWithoutCommit x s t = o at hcase ⊢
  cases hcase with
  | refused _ hleft => exact ⟨fun _ => .inl hleft, fun _ => rfl⟩
  | system o hnot => exact absurd (entersEvm_of_user huser) hnot
  | ended z hty =>
    rw [hty] at huser
    cases huser
  | evm s₀ retry undo _ _ _ hplain =>
    obtain ⟨rfl, rfl, hleft⟩ := hplain huser
    rw [or_iff_right hleft]
    exact hevm undo

/-- An internal transaction leaves budget and count alone; it may change the version. -/
theorem executeInternal_ok {sender : Address} {data : Bytes}
    (hok : executeInternal x s sender data = (s', .ok r)) :
    s'.blockGasLeft = s.blockGasLeft ∧ s'.userTxsProcessed = s.userTxsProcessed ∧ r.gasUsed = 0 ∧
      ∃ p, s'.pending = some p ∧ p.posterGas = 0 ∧ p.arbTxType = some .internal := by
  have hops : ∀ ops : List InternalOp, (ops.foldl (applyInternalOp x) s).blockGas = s.blockGas :=
    fun ops => congrArg Prod.fst (meter_of_shell (shell_internalOps x s ops))
  unfold executeInternal at hok
  split at hok
  · cases hok
  · split at hok
    · cases hok
      exact ⟨rfl, rfl, rfl, _, rfl, rfl, rfl⟩
    · dsimp only at hok
      split at hok
      · cases hok
      · cases hok
        exact ⟨congrArg BlockGas.left (hops _), congrArg BlockGas.processed (hops _), rfl, _, rfl, rfl,
          rfl⟩

/-- The start of a block charges the least amount and is not counted. -/
theorem blockGas_internal {i : ArbInternalTx} (hty : t.tx.transaction = .internal i)
    (hok : returnsOk x s t = true) :
    (processTransaction x s t).blockGasLeft = s.blockGasLeft - txGas ∧
      (processTransaction x s t).userTxsProcessed = s.userTxsProcessed := by
  have huser : isUserTx (ArbTxType.fromU8 t.tx.ty) = false := by rw [isUserTx_eq, hty]
  have hexec : executeTransactionWithoutCommit x s t =
      executeInternal x s.resetTx t.sender i.data := by
    unfold executeTransactionWithoutCommit
    rw [huser, if_neg (by simp), hty]
  unfold returnsOk at hok
  unfold processTransaction commitOutcome
  rw [hexec] at hok ⊢
  cases hrun : executeInternal x s.resetTx t.sender i.data with
  | mk s' res =>
    rw [hrun] at hok
    cases res with
    | error e => cases hok
    | ok r =>
      obtain ⟨hleft, hprocessed, hgas, p, hpending, hdata, htype⟩ := executeInternal_ok hrun
      have hcommit := blockGas_commitTransaction (x := x) (r := r) hpending
      have hused : computeUsed (s'.countedGas r.gasUsed) p.posterGas = txGas := by
        rw [hdata, hgas]
        unfold countedGas computeUsed
        simp
      rw [hused, htype] at hcommit
      have hleft' := congrArg BlockGas.left hcommit
      have hprocessed' := congrArg BlockGas.processed hcommit
      exact ⟨hleft'.trans (congrArg (· - txGas) hleft), hprocessed'.trans hprocessed⟩

end Arbreth.Exec
