/-
  The ways through `execute_transaction_without_commit`.

  `executeEvm_path` and `execute_path` say once what a transaction can do; every result about
  the executor starts from them.
-/
import Arbreth.Exec.Frame

namespace Arbreth.Exec

open Arbreth.Lib Arbreth.Tx Arbreth.Parse

variable {x : Externals} {s : Executor} {t : ExecutableTx x}

/-- The receipt gas of a transaction the hook reverts. -/
def forcedGas (x : Externals) (s : Executor) (t : ExecutableTx x) : Nat :=
  match hookAction x s t with
  | .preRecordedRevert gasToConsume =>
    satAdd64 (satAdd64 (estimateIntrinsicGas x t.tx s.ctx.arbosVersion) gasToConsume)
      (posterGasFor x s t)
  | _ => Accessor.gasLimit t.tx

/-- How the EVM path ends: refused with the accounts as they were up to the undone prepayment,
    reverted by the hook, or run. -/
inductive EvmPath (x : Externals) (s : Executor) (t : ExecutableTx x) (retry : Option RetryContext) :
    Outcome → Prop
  | refused (s' : Executor) (e : ExecError) (hquiet : Quiet s.world s'.world) :
      EvmPath x s t retry (s', .error e)
  | forced (computation : Nat) (output : Bytes) (hook : hookAction x s t ≠ .none) :
      EvmPath x s t retry
        (forceRevert x (chargeGas x s t) t retry (posterGasFor x s t) (forcedGas x s t) computation
          output)
  | ran (out : EvmOutput) (hook : hookAction x s t = .none)
      (hvalid : isUserTx (ArbTxType.fromU8 t.tx.ty) = true →
        validateUserTx x (chargeGas x s t) t = .ok ())
      (hrun : x.evm (evmInput x (chargeGas x s t) t retry (posterGasFor x s t)
        (computeHoldGasFor x s t)) (chargeGas x s t).world = .ok out) :
      EvmPath x s t retry (finishEvm x (chargeGas x s t) t retry (posterGasFor x s t) out)

theorem quiet_chargeGas : Quiet s.world (chargeGas x s t).world := .of_eq rfl rfl rfl

theorem quiet_rollback (units : Nat) (undo : Option RetryUndo) :
    Quiet s.world (rollbackPreExecState s units undo).world := by
  cases undo with
  | none => exact .of_eq rfl rfl rfl
  | some u =>
    have hunits : Quiet s.world
        { s.world with unitsSinceUpdate := s.world.unitsSinceUpdate - units } := .of_eq rfl rfl rfl
    exact hunits.trans ((frame_burnBalance _ trivial).trans (frame_transferBalance _ trivial trivial))

theorem executeEvm_path (retry : Option RetryContext) (undo : Option RetryUndo) :
    EvmPath x s t retry (executeEvm x s t retry undo) := by
  unfold executeEvm
  dsimp only
  split
  · exact .refused _ _ (.of_eq rfl rfl rfl)
  · split
    · next g hook =>
      have hgas : forcedGas x s t = satAdd64 (satAdd64 (estimateIntrinsicGas x t.tx
          s.ctx.arbosVersion) g) (posterGasFor x s t) := by simp only [forcedGas, hook]
      rw [← hgas]
      exact .forced _ _ (by rw [hook]; exact RevertedTxAction.noConfusion)
    · next hook =>
      have hgas : forcedGas x s t = Accessor.gasLimit t.tx := by simp only [forcedGas, hook]
      rw [← hgas]
      exact .forced _ _ (by rw [hook]; exact RevertedTxAction.noConfusion)
    · next hook =>
      have hback : ∀ units, Quiet s.world (rollbackPreExecState (chargeGas x s t) units undo).world :=
        fun units => quiet_chargeGas.trans (quiet_rollback units undo)
      unfold validateAndRun
      dsimp only
      split
      · exact .refused _ _ (hback _)
      · next hvalid =>
        split
        · exact .refused _ _ (hback _)
        · next out hrun =>
          refine .ran out hook (fun hu => ?_) hrun
          rwa [if_pos hu] at hvalid

theorem books_createZombieIfDeleted (s : Executor) (a : Address) :
    (s.createZombieIfDeleted a).world.books = s.world.books := by
  unfold Executor.createZombieIfDeleted
  split
  · unfold World.materialiseEmpty
    split <;> rfl
  · rfl

def escrowOf (x : Externals) (id : B256) : Address := retryableEscrowAddress x.keccak256 id

/-- The context and the undo record of a retry. -/
def retryContextOf (i : ArbRetryTx) : RetryContext :=
  ⟨i.ticketId, i.refundTo, i.maxRefund, i.submissionFeeRefund, i.value⟩

def retryUndoOf (x : Externals) (s : Executor) (sender : Address) (i : ArbRetryTx) : RetryUndo :=
  ⟨sender, satMul256 s.ctx.basefee i.gas, escrowOf x i.ticketId, i.value⟩

/-- What starting a redemption changes: the value and the prepaid gas are with the sender. -/
structure Started (x : Externals) (s : Executor) (sender : Address) (i : ArbRetryTx) (s₁ : Executor) :
    Prop where
  ctx : s₁.ctx = s.ctx
  hooks : s₁.hooks = s.hooks
  sweep : s₁.cancelEscrowSweep = s.cancelEscrowSweep
  filtered : s₁.world.filtered = s.world.filtered
  balance : s₁.world.getBalance =
    ((transferBalance s.world (escrowOf x i.ticketId) sender i.value).applyMint sender
      (satMul256 s.ctx.basefee i.gas)).getBalance

/-- How a retry starts. A zombie escrow is materialised empty first, which nothing shows. Then the
    call value and the prepaid gas go to the sender, unless the ticket is gone or its escrow falls
    short. -/
theorem startRetry_cases (sender : Address) (i : ArbRetryTx) :
    (openRetryable s.ctx.arbosVersion s.world i.ticketId s.ctx.blockTimestamp = none ∨
        s.world.getBalance (escrowOf x i.ticketId) < i.value) ∧
      (∃ z : Executor, z.shell = s.shell ∧ Frame (fun _ => False) (fun _ => False) s.world z.world ∧
        startRetry x s sender i = .ended ({ z with pending := some (endedPending z sender 0 .retry 0) },
          .ok (syntheticResult false 0 []))) ∨
    ¬ s.world.getBalance (escrowOf x i.ticketId) < i.value ∧ ∃ s₁,
      startRetry x s sender i = .started s₁ (retryContextOf i) (retryUndoOf x s sender i) ∧
        Started x s sender i s₁ ∧ s₁.shell = s.shell ∧
        Frame (fun _ => True) (fun _ => False) s.world s₁.world ∧
        s₁.world.books = s.world.books := by
  unfold startRetry
  cases hopen : openRetryable s.ctx.arbosVersion s.world i.ticketId s.ctx.blockTimestamp with
  | none => exact .inl ⟨.inl rfl, s, rfl, .refl _, rfl⟩
  | some tk =>
    dsimp only
    rw [show retryableEscrowAddress x.keccak256 i.ticketId = escrowOf x i.ticketId from rfl]
    generalize hescrow : escrowOf x i.ticketId = escrow
    obtain ⟨z, hz, hshell, hframe, hbooks⟩ : ∃ z, (if i.value = 0 ∧ s.ctx.arbosVersion < 30 then
        s.createZombieIfDeleted escrow else s) = z ∧ z.shell = s.shell ∧
        Frame (fun _ => False) (fun _ => False) s.world z.world ∧
        z.world.books = s.world.books := by
      refine ⟨_, rfl, ?_⟩
      split
      · exact ⟨shell_createZombieIfDeleted s escrow, frame_createZombieIfDeleted _ _,
          books_createZombieIfDeleted s escrow⟩
      · exact ⟨rfl, .refl _, rfl⟩
    rw [hz, ← hframe.balance escrow not_false]
    by_cases hshort : z.world.getBalance escrow < i.value
    · have hne : i.value ≠ 0 := by
        intro h0
        rw [h0] at hshort
        exact absurd hshort (by simp [BitVec.lt_def])
      have hop : applyBalanceOp z.world (some escrow) (some sender) i.value =
          .error ⟨escrow, z.world.getBalance escrow, i.value⟩ := by
        simp only [applyBalanceOp, hne, hshort, if_false, if_true]
      rw [hop]
      exact .inl ⟨.inr hshort, z, hshell, hframe, rfl⟩
    · subst hescrow
      have hbalance : z.world.getBalance = s.world.getBalance :=
        funext fun a => hframe.balance a not_false
      have hstarted : ∀ s₁ : Executor, s₁.shell = s.shell →
          s₁.world = (transferBalance z.world (escrowOf x i.ticketId) sender i.value).applyMint sender
            (satMul256 z.ctx.basefee i.gas) →
          Started x s sender i s₁ ∧ s₁.shell = s.shell ∧
            Frame (fun _ => True) (fun _ => False) s.world s₁.world ∧
            s₁.world.books = s.world.books := by
        intro s₁ hshell₁ hworld
        have hmoved : Frame (fun _ => True) (fun _ => False) s.world s₁.world := by
          rw [hworld]
          exact (hframe.mono (fun _ => False.elim) fun _ => id).trans
            ((frame_transferBalance _ trivial trivial).trans (frame_applyMint _ trivial))
        refine ⟨⟨ctx_of_shell hshell₁, hooks_of_shell hshell₁, sweep_of_shell hshell₁,
          hmoved.filtered, ?_⟩, hshell₁, hmoved, ?_⟩
        · rw [hworld, World.getBalance_applyMint, World.getBalance_applyMint,
            getBalance_transferBalance_congr hbalance, ctx_of_shell hshell]
        · rw [hworld, books_applyMint, books_transferBalance, hbooks]
      rw [applyBalanceOp_covered sender (BitVec.not_lt.mp hshort)]
      have hundo : retryUndoOf x s sender i =
          ⟨sender, satMul256 z.ctx.basefee i.gas, escrowOf x i.ticketId, i.value⟩ := by
        rw [ctx_of_shell hshell]
        rfl
      simp only [mintBalance_eq, hundo]
      split
      · exact .inr ⟨hshort, _, rfl, hstarted _ hshell rfl⟩
      · exact .inr ⟨hshort, _, rfl, hstarted _ hshell rfl⟩

theorem isUserTx_eq (tx : ArbTransactionSigned) : isUserTx (ArbTxType.fromU8 tx.ty) =
    match tx.transaction with
    | .internal _ => false
    | .deposit _ => false
    | .submitRetryable _ => false
    | .retry _ => false
    | _ => true := by
  obtain ⟨transaction, signature⟩ := tx
  cases transaction <;> rfl

theorem isUserTx_retry {i : ArbRetryTx} (hretry : t.tx.transaction = .retry i) :
    isUserTx (ArbTxType.fromU8 t.tx.ty) = false := by
  rw [isUserTx_eq, hretry]

/-- A retry is not refused for the block's gas. -/
theorem execute_retry {i : ArbRetryTx} (hretry : t.tx.transaction = .retry i) :
    executeTransactionWithoutCommit x s t =
      match startRetry x s.resetTx t.sender i with
      | .ended o => o
      | .started s₁ c undo => executeEvm x s₁ t (some c) (some undo) := by
  unfold executeTransactionWithoutCommit
  rw [isUserTx_retry hretry, if_neg fun h => Bool.false_ne_true h.1]
  cases hstart : startRetry x s.resetTx t.sender i with
  | ended o => simp only [hretry, hstart]
  | started s₁ c undo => simp only [hretry, hstart]

/-- The types that reach the EVM. -/
def EntersEvm (ty : Option ArbTxType) : Prop :=
  ty ≠ some .internal ∧ ty ≠ some .deposit ∧ ty ≠ some .submitRetryable

instance (ty : Option ArbTxType) : Decidable (EntersEvm ty) :=
  inferInstanceAs (Decidable (_ ∧ _ ∧ _))

/-- The state in which a transaction reaches the EVM path; a redemption has started by then. -/
def evmEntry (x : Externals) (s : Executor) (t : ExecutableTx x) :
    Option (Executor × Option RetryContext × Option RetryUndo) :=
  match t.tx.transaction with
  | .internal _ => none
  | .deposit _ => none
  | .submitRetryable _ => none
  | .retry i =>
    match startRetry x s.resetTx t.sender i with
    | .ended _ => none
    | .started s context undo => some (s, some context, some undo)
  | _ => some (s.resetTx, none, none)

/-- Whether a transaction may enter the EVM, by its payload. -/
theorem entersEvm_eq (tx : ArbTransactionSigned) : decide (EntersEvm (ArbTxType.fromU8 tx.ty)) =
    match tx.transaction with
    | .internal _ => false
    | .deposit _ => false
    | .submitRetryable _ => false
    | _ => true := by
  obtain ⟨transaction, signature⟩ := tx
  cases transaction <;> rfl

theorem entersEvm_of_user {ty : Option ArbTxType} (h : isUserTx ty = true) : EntersEvm ty := by
  simp only [isUserTx, Bool.and_eq_true, decide_eq_true_eq] at h
  exact ⟨h.1.1.1, h.1.1.2, h.1.2⟩

/-- What executing a transaction comes to: refused for the block's gas, a system transaction, a
    retry that ends early, or the EVM path. -/
inductive TxCase (x : Externals) (s : Executor) (t : ExecutableTx x) : Outcome → Prop
  | refused (huser : isUserTx (ArbTxType.fromU8 t.tx.ty) = true) (hleft : s.blockGasLeft < txGas) :
      TxCase x s t (s, .error .blockGasLimitReached)
  | system (o : Outcome) (hnot : ¬ EntersEvm (ArbTxType.fromU8 t.tx.ty))
      (hended : EndedFrom s.resetTx o) : TxCase x s t o
  | ended (z : Executor) (hty : ArbTxType.fromU8 t.tx.ty = some .retry)
      (hentry : evmEntry x s t = none) (hshell : z.shell = s.resetTx.shell)
      (hframe : Frame (fun _ => False) (fun _ => False) s.world z.world) :
      TxCase x s t ({ z with pending := some (endedPending z t.sender 0 .retry 0) },
        .ok (syntheticResult false 0 []))
  | evm (s₀ : Executor) (retry : Option RetryContext) (undo : Option RetryUndo)
      (hentry : evmEntry x s t = some (s₀, retry, undo)) (hshell : s₀.shell = s.resetTx.shell)
      (hmoved : Frame (fun _ => True) (fun _ => False) s.world s₀.world)
      (huser : isUserTx (ArbTxType.fromU8 t.tx.ty) = true →
        s₀ = s.resetTx ∧ retry = none ∧ ¬ s.blockGasLeft < txGas) :
      TxCase x s t (executeEvm x s₀ t retry undo)

theorem execute_case : TxCase x s t (executeTransactionWithoutCommit x s t) := by
  have henters := entersEvm_eq t.tx
  unfold executeTransactionWithoutCommit
  split
  · next h => exact .refused h.1 h.2
  · next hleft =>
    cases htx : t.tx.transaction with
    | internal i =>
      rw [htx] at henters
      exact .system _ (of_decide_eq_false henters) (ended_executeInternal _ _)
    | deposit d =>
      rw [htx] at henters
      exact .system _ (of_decide_eq_false henters) (ended_executeDeposit _ _)
    | submitRetryable i =>
      rw [htx] at henters
      exact .system _ (of_decide_eq_false henters) (ended_executeSubmitRetryable _ _)
    | retry i =>
      dsimp only
      have hty : ArbTxType.fromU8 t.tx.ty = some .retry := by
        rw [ArbTransactionSigned.ty, htx]
        rfl
      rcases startRetry_cases (x := x) (s := s.resetTx) t.sender i with
        ⟨-, z, hshell, hframe, hstart⟩ | ⟨-, s₁, hstart, -, hshell, hmoved, -⟩
      · rw [hstart]
        exact .ended z hty (by simp only [evmEntry, htx, hstart]) hshell hframe
      · rw [hstart]
        exact .evm s₁ _ _ (by simp only [evmEntry, htx, hstart]) hshell hmoved fun hu => by
          rw [hty] at hu
          cases hu
    | _ =>
      exact .evm s.resetTx none none (by simp only [evmEntry, htx]) rfl (.refl _)
        fun hu => ⟨rfl, rfl, fun hlt => hleft ⟨hu, hlt⟩⟩

/-- How a transaction ends: without the EVM, which a user transaction does only by an error, or
    on the EVM path from a state with the same nonces. -/
inductive TxPath (x : Externals) (s : Executor) (t : ExecutableTx x) : Outcome → Prop
  | ended (o : Outcome) (hended : Ended s.world o)
      (huser : isUserTx (ArbTxType.fromU8 t.tx.ty) = true → ∃ e, o.2 = .error e) : TxPath x s t o
  | evm (s₀ : Executor) (retry : Option RetryContext) (o : Outcome) (hquiet : Quiet s.world s₀.world)
      (huser : isUserTx (ArbTxType.fromU8 t.tx.ty) = true → s₀ = s.resetTx ∧ retry = none)
      (hpath : EvmPath x s₀ t retry o) : TxPath x s t o

theorem execute_path : TxPath x s t (executeTransactionWithoutCommit x s t) := by
  have hcase := execute_case (x := x) (s := s) (t := t)
  generalize executeTransactionWithoutCommit x s t = o at hcase ⊢
  cases hcase with
  | refused => exact .ended _ ⟨.refl _, fun r hr => (nomatch hr)⟩ fun _ => ⟨_, rfl⟩
  | system o hnot hended =>
    exact .ended _ hended.toEnded fun hu => absurd (entersEvm_of_user hu) hnot
  | ended z hty _ _ hframe =>
    exact .ended _ ⟨hframe.mono (fun _ => False.elim) fun _ => False.elim,
      fun r hr => by cases hr; rfl⟩ fun hu => by rw [hty] at hu; cases hu
  | evm s₀ retry undo _ _ hmoved huser =>
    exact .evm s₀ retry _ (hmoved.mono (fun _ => id) fun _ => False.elim)
      (fun hu => ⟨(huser hu).1, (huser hu).2.1⟩) (executeEvm_path retry undo)

theorem hookAction_resetTx (s : Executor) (t : ExecutableTx x) :
    hookAction x s.resetTx t = hookAction x s t := by
  unfold hookAction Executor.resetTx
  cases s.hooks with
  | none => rfl
  | some h => rfl

/-- What the EVM run of a user transaction reads. -/
def normalInput (x : Externals) (s : Executor) (t : ExecutableTx x) : EvmInput :=
  evmInput x (chargeGas x s.resetTx t) t none (posterGasFor x s.resetTx t)
    (computeHoldGasFor x s.resetTx t)

/-- The EVM run of a user transaction. -/
def normalRun (x : Externals) (s : Executor) (t : ExecutableTx x) : Except String EvmOutput :=
  x.evm (normalInput x s t) (chargeGas x s.resetTx t).world

/-- The two ways in which a user transaction returns Ok. -/
inductive UserPath (x : Externals) (s : Executor) (t : ExecutableTx x) : Outcome → Prop
  | forced (computation : Nat) (output : Bytes) (hook : hookAction x s t ≠ .none) :
      UserPath x s t (forceRevert x (chargeGas x s.resetTx t) t none (posterGasFor x s.resetTx t)
        (forcedGas x s.resetTx t) computation output)
  | ran (out : EvmOutput) (hook : hookAction x s t = .none)
      (hvalid : validateUserTx x (chargeGas x s.resetTx t) t = .ok ())
      (hrun : normalRun x s t = .ok out) :
      UserPath x s t
        (finishEvm x (chargeGas x s.resetTx t) t none (posterGasFor x s.resetTx t) out)

theorem userPath_of_ok (hu : isUserTx (ArbTxType.fromU8 t.tx.ty) = true)
    (hok : (executeTransactionWithoutCommit x s t).2.isOk = true) :
    UserPath x s t (executeTransactionWithoutCommit x s t) := by
  have hpath := execute_path (x := x) (s := s) (t := t)
  generalize executeTransactionWithoutCommit x s t = o at hpath hok
  cases hpath with
  | ended o _ huser =>
    obtain ⟨e, he⟩ := huser hu
    rw [he] at hok
    cases hok
  | evm s₀ retry o _ huser hpath =>
    obtain ⟨rfl, rfl⟩ := huser hu
    cases hpath with
    | refused s' e _ => cases hok
    | forced computation output hook =>
      exact .forced computation output (hookAction_resetTx s t ▸ hook)
    | ran out hook hvalid hrun => exact .ran out (hookAction_resetTx s t ▸ hook) (hvalid hu) hrun

end Arbreth.Exec
