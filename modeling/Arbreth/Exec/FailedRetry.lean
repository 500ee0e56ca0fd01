/-
  Failed redemptions (arb-evm, build.rs: the start of a retry, the calldata floor).

  A retry transaction runs with its call value taken out of the ticket's escrow and with its gas
  prepaid by a mint. It can end early, by the hook, by an error of revm or with a receipt; each
  end gives back what a failure did not use, if the gas recorded fits the gas limit and the run
  left no data fee, sweep or changed parameters to the commit (`failed_retry_gives_back`). Only
  user transactions are checked against the calldata floor, and a pre-recorded revert is not
  checked at all, so that both can record more.
-/
import Arbreth.Exec.RetryEnd

namespace Arbreth.Exec

open Arbreth.Lib Arbreth.Tx Arbreth.Parse Function World
open Arbreth.Stylus (oneKind)

/-! ## The property -/

section Property

variable (x : Externals) (s : Executor) (t : ExecutableTx x)

/-- What `end_tx_retryable` transfers to the sender in the course of a transaction; nothing unless a
    redemption gets to its end. -/
def senderRefunds : Nat :=
  match executeTransactionWithoutCommit x s t with
  | (_, .error _) => 0
  | (s', .ok r) =>
    match s'.pending with
    | none => 0
    | some p =>
      match p.retryContext with
      | none => 0
      | some c => refundedToSender s' p c r

/-- The transaction returned an error or its receipt is a failed one. -/
def EndsWithoutSuccess : Prop :=
  ∀ r, (executeTransactionWithoutCommit x s t).2 = .ok r → r.success = false

/-- The gas recorded stays within the limit, and a failure costs neither escrow nor sender. -/
structure GivesBack (i : ArbRetryTx) : Prop where
  gasUsed : ∀ r, (executeTransactionWithoutCommit x s t).2 = .ok r → r.gasUsed ≤ i.gas
  escrow : EndsWithoutSuccess x s t →
    (processTransaction x s t).world.getBalance (escrowOf x i.ticketId) =
      s.world.getBalance (escrowOf x i.ticketId)
  sender : EndsWithoutSuccess x s t →
    ((processTransaction x s t).world.getBalance t.sender).toNat =
      (s.world.getBalance t.sender).toNat + senderRefunds x s t

/-- The hook's revert and, where revm runs, the calldata floor fit the gas limit. -/
structure GasWithinLimit (i : ArbRetryTx) : Prop where
  forced : hookAction x s t ≠ .none → ¬ s.world.getBalance (escrowOf x i.ticketId) < i.value →
    forcedGas x s t ≤ i.gas
  floor : ∀ input w, enteredRun x s t = some (input, w) → (x.evm input w).isOk = true →
    calldataFloorGas x s t ≤ i.gas

/-- A run that fails leaves the commit no data fee, no sweep and no changed parameters. They are
    kept beside the journal, so that revm's revert does not undo them. -/
def FailsClean : Prop :=
  ∀ input w out, enteredRun x s t = some (input, w) → x.evm input w = .ok out →
    out.success = false →
      out.stylusDataFee = 0 ∧ out.cancelEscrowSweep = none ∧ out.dirtyParams = none

/-- revm uses no more gas than it is given. A run that fails charges its caller the base fee for
    the gas and leaves nothing else in the state. -/
structure RevmCharges : Prop where
  gasUsed : ∀ i w out, x.evm i w = .ok out → out.gasUsed ≤ i.env.gasLimit
  caller : ∀ i w out, x.evm i w = .ok out → out.success = false →
    (out.world.getBalance i.env.caller).toNat =
      (w.getBalance i.env.caller).toNat - i.basefee.toNat * out.gasUsed
  others : ∀ i w out, x.evm i w = .ok out → out.success = false →
    ∀ a, a ≠ i.env.caller → out.world.getBalance a = w.getBalance a

end Property

/-! ## Starting a redemption -/

section Start

variable {x : Externals} {s : Executor} {i : ArbRetryTx}

theorem Started.owes {s₁ : Executor} {sender : Address} (h : Started x s sender i s₁)
    (hne : escrowOf x i.ticketId ≠ sender)
    (hcovered : ¬ s.world.getBalance (escrowOf x i.ticketId) < i.value)
    (hsupply : s.world.supply + s.ctx.basefee.toNat * i.gas < 2 ^ 256) :
    Owes s₁.world sender (escrowOf x i.ticketId) (s.world.getBalance sender).toNat
      (s.world.getBalance (escrowOf x i.ticketId)).toNat i.value.toNat
      (s.ctx.basefee.toNat * i.gas) := by
  have hprepaid : (satMul256 s.ctx.basefee i.gas).toNat = s.ctx.basefee.toNat * i.gas :=
    toNat_satMul256_of_lt (by omega)
  have hmoved := supply_transferBalance (w := s.world) (escrowOf x i.ticketId) sender i.value (by omega)
  have hescrow := toNat_getBalance_covered hne (BitVec.not_lt.mp hcovered) (escrowOf x i.ticketId)
  rw [if_neg hne, if_pos rfl] at hescrow
  have hsender := toNat_getBalance_transferBalance (w := s.world) sender i.value (by omega) hne
  rw [if_pos ⟨rfl, hcovered⟩] at hsender
  have hle : i.value.toNat ≤ (s.world.getBalance (escrowOf x i.ticketId)).toNat :=
    BitVec.not_lt.mp hcovered
  have hroom := getBalance_le_supply (transferBalance s.world (escrowOf x i.ticketId) sender i.value)
    sender
  refine Owes.congr ?_ h.balance
  refine ⟨?_, ?_, ?_⟩
  · rw [getBalance_applyMint, update_self, toNat_satAdd256_of_le, hsender, hprepaid]
    rw [hprepaid]
    unfold u256Max
    omega
  · rw [getBalance_applyMint, update_of_ne hne, hescrow]
    omega
  · rw [supply_applyMint _ (by omega)]
    omega

end Start

/-! ## Executing a redemption -/

section Execute

variable {x : Externals} {s s₁ : Executor} {t : ExecutableTx x} {i : ArbRetryTx}

theorem env_retry (hretry : t.tx.transaction = .retry i) :
    t.env.caller = t.sender ∧ t.env.gasLimit = i.gas ∧ t.env.gasPrice = i.gasFeeCap.toNat ∧
      t.env.gasPriorityFee = none ∧ i.gasFeeCap.toNat < 2 ^ 128 := by
  have henv := t.env_eq
  have hty : ArbTxType.fromU8 t.tx.ty = some .retry := by
    simp only [ArbTransactionSigned.ty, hretry]
    rfl
  have hfees : feeFields t.tx = do
      let gasPrice ← uintTo 128 i.gasFeeCap
      return (gasPrice, none, i.value, i.gas) := by
    simp only [feeFields, hty, Accessor.maxFeePerGas, Accessor.maxPriorityFeePerGas, Accessor.value,
      Accessor.gasLimit, hretry]
    rfl
  obtain ⟨chainId, -, henv⟩ := bind_eq_ok.mp henv
  obtain ⟨fees, hf, henv⟩ := bind_eq_ok.mp henv
  rw [hfees] at hf
  obtain ⟨price, hprice, hpure⟩ := bind_eq_ok.mp hf
  have hlt := uintTo_ok.mp ⟨price, hprice⟩
  unfold uintTo at hprice
  rw [if_pos hlt] at hprice
  cases hprice
  cases hpure
  have henv' := Except.ok.inj henv
  rw [← henv']
  exact ⟨rfl, rfl, rfl, rfl, hlt⟩

theorem ty_retry (hretry : t.tx.transaction = .retry i) : t.tx.ty = ArbTxType.retry.asU8 := by
  simp only [ArbTransactionSigned.ty, hretry]

theorem posterGasFor_retry (s : Executor) (hretry : t.tx.transaction = .retry i) :
    posterGasFor x s t = 0 := by
  unfold posterGasFor
  rw [ty_retry hretry]
  exact if_neg fun h => absurd h.2 (by decide)

theorem gasLimit_retry (hretry : t.tx.transaction = .retry i) : Accessor.gasLimit t.tx = i.gas := by
  simp only [Accessor.gasLimit, hretry]

/-- A retry at the base fee pays the base fee and no tip, whatever happens to tips. -/
theorem price_retry (hretry : t.tx.transaction = .retry i) (hprice : i.gasFeeCap = s.ctx.basefee) :
    actualGasPrice x s t = s.ctx.basefee ∧ effectiveTipPerGas x s t = 0 := by
  obtain ⟨-, -, hgas, hpriority, hlt⟩ := env_retry hretry
  unfold actualGasPrice effectiveTipPerGas baseFeeU128 u128Max
  rw [hgas, hpriority, ← hprice]
  constructor
  · dsimp only
    split
    · rfl
    · rw [BitVec.ofNat_toNat, BitVec.setWidth_eq]
  · dsimp only
    omega

/-- The hook's verdict and the floor are settled before the redemption starts. -/
theorem Started.charges (h : Started x s.resetTx t.sender i s₁) (hretry : t.tx.transaction = .retry i) :
    hookAction x s₁ t = hookAction x s t ∧ forcedGas x s₁ t = forcedGas x s t ∧
      calldataFloorGas x s₁ t = calldataFloorGas x s t := by
  have hhook : hookAction x s₁ t = hookAction x s t := by
    rw [← hookAction_resetTx s t]
    unfold hookAction
    rw [h.hooks, h.filtered]
  refine ⟨hhook, ?_, ?_⟩
  · unfold forcedGas
    rw [hhook, h.ctx, posterGasFor_retry s₁ hretry, posterGasFor_retry s hretry]
    rfl
  · rw [← (charges_resetTx s t).2.2.1]
    unfold calldataFloorGas
    rw [h.hooks]

theorem receiptGas_noPoster {gas floor : Nat} (hfloor : floor ≤ u64Max) :
    receiptGas gas 0 floor = max gas floor := by
  unfold receiptGas satAdd64
  dsimp only
  rw [if_neg (Nat.lt_irrefl 0)]
  split
  · omega
  · omega

/-- How a retry that has started ends. -/
inductive RetryPath (x : Externals) (s : Executor) (t : ExecutableTx x) (c : RetryContext)
    (undo : RetryUndo) : Outcome → Prop
  | forced (computation : Nat) (output : Bytes) (hook : hookAction x s t ≠ .none) :
      RetryPath x s t c undo
        (forceRevert x (chargeGas x s t) t (some c) 0 (forcedGas x s t) computation output)
  | refused (err : String) (hook : hookAction x s t = .none)
      (hrun : x.evm (runInput x s t (some c)) (chargeGas x s t).world = .error err) :
      RetryPath x s t c undo
        (rollbackPreExecState (chargeGas x s t) (calldataUnits x s t) (some undo), .error (.evm err))
  | ran (out : EvmOutput) (hook : hookAction x s t = .none)
      (hrun : x.evm (runInput x s t (some c)) (chargeGas x s t).world = .ok out) :
      RetryPath x s t c undo (finishEvm x (chargeGas x s t) t (some c) 0 out)

theorem executeEvm_retry (hretry : t.tx.transaction = .retry i) (c : RetryContext) (undo : RetryUndo) :
    RetryPath x s t c undo (executeEvm x s t (some c) (some undo)) := by
  have hu := isUserTx_retry hretry
  have hposter := posterGasFor_retry s hretry
  unfold executeEvm
  rw [if_neg fun h => absurd h.1 (by rw [hu]; exact Bool.false_ne_true)]
  cases hook : hookAction x s t with
  | preRecordedRevert g =>
    have hforced : forcedGas x s t = satAdd64 (satAdd64 (estimateIntrinsicGas x t.tx
        s.ctx.arbosVersion) g) (posterGasFor x s t) := by
      unfold forcedGas
      rw [hook]
    dsimp only
    rw [← hforced, hposter]
    exact .forced _ [] (by rw [hook]; exact RevertedTxAction.noConfusion)
  | filteredTx =>
    have hforced : forcedGas x s t = Accessor.gasLimit t.tx := by
      unfold forcedGas
      rw [hook]
    rw [← hforced, hposter]
    exact .forced _ filteredOutput (by rw [hook]; exact RevertedTxAction.noConfusion)
  | none =>
    unfold validateAndRun
    rw [hu]
    cases hrun : x.evm (runInput x s t (some c)) (chargeGas x s t).world with
    | error err =>
      have hrun' := hrun
      unfold runInput at hrun'
      simp only [Bool.false_eq_true, if_false, hrun']
      exact .refused err hook hrun
    | ok out =>
      have hrun' := hrun
      unfold runInput at hrun'
      simp only [Bool.false_eq_true, if_false, hrun']
      rw [hposter]
      exact .ran out hook hrun

/-- A retry that has started, from the state before it. -/
structure RetryRuns (x : Externals) (s : Executor) (t : ExecutableTx x) (i : ArbRetryTx)
    (s₁ : Executor) (o : Outcome) : Prop where
  retry : t.tx.transaction = .retry i
  hooks : s.hooks.isSome
  covered : ¬ s.world.getBalance (escrowOf x i.ticketId) < i.value
  started : Started x s.resetTx t.sender i s₁
  owes : Owes s₁.world t.sender (escrowOf x i.ticketId) (s.world.getBalance t.sender).toNat
    (s.world.getBalance (escrowOf x i.ticketId)).toNat i.value.toNat (s.ctx.basefee.toNat * i.gas)
  fits : s.ctx.basefee.toNat * i.gas < 2 ^ 256
  entry : evmEntry x s t = some (s₁, some (retryContextOf i), some (retryUndoOf x s t.sender i))
  exec : executeTransactionWithoutCommit x s t = o

section Failures

variable {s' : Executor} {p : Pending} {r : TxResult} {o : Outcome}

theorem RetryRuns.enteredRun_eq (h : RetryRuns x s t i s₁ o) :
    enteredRun x s t = if hookAction x s t = .none then
      some (runInput x s₁ t (some (retryContextOf i)), (chargeGas x s₁ t).world) else none := by
  rw [enteredRun, h.entry, ← (h.started.charges h.retry).1]

theorem RetryRuns.hooks_isSome (h : RetryRuns x s t i s₁ o) : (chargeGas x s₁ t).hooks.isSome := by
  simp only [chargeGas, chargeHooks, h.started.hooks, Executor.resetTx, Option.isSome_map]
  exact h.hooks

theorem RetryRuns.failed_forced (h : RetryRuns x s t i s₁ o) {computation : Nat} {output : Bytes}
    (ho : forceRevert x (chargeGas x s₁ t) t (some (retryContextOf i)) 0 (forcedGas x s₁ t)
      computation output = (s', .ok r)) (hpending : s'.pending = some p) :
    FailedRetry s t i (s.world.getBalance t.sender).toNat
      (s.world.getBalance (escrowOf x i.ticketId)).toNat s' p r := by
  cases ho
  cases hpending
  exact {
    pending := rfl
    hooks := h.hooks_isSome
    ctx := h.started.ctx
    sweep := h.started.sweep
    dataFee := rfl
    tip := rfl
    params := rfl
    failed := rfl
    context := rfl
    sender := rfl
    limit := gasLimit_retry h.retry
    price := congrArg BlockCtx.basefee h.started.ctx
    used := Nat.zero_le _
    owes := h.owes.congr (getBalance_incrementNonce _ _) }

variable {out : EvmOutput}

/-- The run takes its part of the prepaid gas. -/
theorem Owes.ran (hrevm : RevmCharges x) {input : EvmInput} {w : World} {escrow : Address}
    {b e value limit : Nat}
    (howes : Owes w input.env.caller escrow b e value (input.basefee.toNat * limit))
    (hne : escrow ≠ input.env.caller) (hrun : x.evm input w = .ok out)
    (hfail : out.success = false) (hused : out.gasUsed ≤ limit) :
    Owes out.world input.env.caller escrow b e value
      (input.basefee.toNat * (limit - out.gasUsed)) := by
  have hcaller := hrevm.caller input w out hrun hfail
  have hothers := hrevm.others input w out hrun hfail
  have hle : input.basefee.toNat * out.gasUsed ≤ input.basefee.toNat * limit :=
    Nat.mul_le_mul_left _ hused
  have hsender := howes.sender
  refine ⟨?_, ?_, ?_⟩
  · rw [hcaller, Nat.mul_sub]
    omega
  · rw [hothers escrow hne]
    exact howes.escrow
  · have hupdate : out.world.getBalance =
        update w.getBalance input.env.caller (out.world.getBalance input.env.caller) := by
      funext a
      by_cases ha : a = input.env.caller
      · rw [ha, update_self]
      · rw [update_of_ne ha, hothers a ha]
    have hsupply := supply_update hupdate
    have hbound := howes.supply
    omega

theorem RetryRuns.failed_ran (h : RetryRuns x s t i s₁ o) (hprice : i.gasFeeCap = s.ctx.basefee)
    (hrevm : RevmCharges x) (hne : escrowOf x i.ticketId ≠ t.sender)
    (hrun : x.evm (runInput x s₁ t (some (retryContextOf i))) (chargeGas x s₁ t).world = .ok out)
    (hfail : out.success = false) (hused : out.gasUsed ≤ i.gas)
    (hclean : out.stylusDataFee = 0 ∧ out.cancelEscrowSweep = none ∧ out.dirtyParams = none)
    (ho : finishEvm x (chargeGas x s₁ t) t (some (retryContextOf i)) 0 out = (s', .ok r))
    (hpending : s'.pending = some p) :
    FailedRetry s t i (s.world.getBalance t.sender).toNat
      (s.world.getBalance (escrowOf x i.ticketId)).toNat s' p r := by
  obtain ⟨hfee, hsweep, hparams⟩ := hclean
  have hctx : (chargeGas x s₁ t).ctx = s.ctx := h.started.ctx
  obtain ⟨hpaid, htip⟩ := price_retry (s := chargeGas x s₁ t) h.retry (by rw [hctx]; exact hprice)
  have hcaller : (runInput x s₁ t (some (retryContextOf i))).env.caller = t.sender :=
    (env_retry h.retry).1
  have hbase : (runInput x s₁ t (some (retryContextOf i))).basefee = s.ctx.basefee :=
    congrArg BlockCtx.basefee hctx
  have hran := h.owes.congr (show (chargeGas x s₁ t).world.getBalance = _ from rfl)
  rw [← hcaller, ← hbase] at hran
  replace hran := hran.ran hrevm (hcaller ▸ hne) hrun hfail hused
  rw [hcaller, hbase] at hran
  cases ho
  cases hpending
  exact {
    pending := rfl
    hooks := by
      rw [Option.isSome_map]
      exact h.hooks_isSome
    ctx := hctx
    sweep := hsweep
    dataFee := hfee
    tip := htip
    params := hparams
    failed := hfail
    context := rfl
    sender := rfl
    limit := gasLimit_retry h.retry
    price := hpaid.trans (congrArg BlockCtx.basefee hctx)
    used := by
      rw [receiptGas_noPoster (calldataFloorGas_le x _ t)]
      exact Nat.le_max_left _ _
    owes := hran }

/-- A refused run is rolled back to the balances before the retry. -/
theorem RetryRuns.getBalance_rollback (h : RetryRuns x s t i s₁ o)
    (hne : escrowOf x i.ticketId ≠ t.sender) (units : Nat) :
    let w := (rollbackPreExecState (chargeGas x s₁ t) units (some (retryUndoOf x s t.sender i))).world
    (w.getBalance (escrowOf x i.ticketId)).toNat =
        (s.world.getBalance (escrowOf x i.ticketId)).toNat ∧
      (w.getBalance t.sender).toNat = (s.world.getBalance t.sender).toNat := by
  intro w
  have hprepaid : (satMul256 s.ctx.basefee i.gas).toNat = s.ctx.basefee.toNat * i.gas :=
    toNat_satMul256_of_lt h.fits
  have hburned := (h.owes.congr (show getBalance { (chargeGas x s₁ t).world with
      unitsSinceUpdate := (chargeGas x s₁ t).world.unitsSinceUpdate - units } = _ from rfl)).applyBurn
    hne (satMul256 s.ctx.basefee i.gas) (Nat.le_of_eq hprepaid)
  rw [hprepaid, Nat.sub_self, ← burnBalance_eq] at hburned
  exact hburned.giveBack hne

end Failures

end Execute

/-! ## Redemptions -/

section Redemption

variable {x : Externals} {s s₁ : Executor} {t : ExecutableTx x} {i : ArbRetryTx}

theorem processTransaction_ok {s' : Executor} {r : TxResult}
    (h : executeTransactionWithoutCommit x s t = (s', .ok r)) :
    processTransaction x s t = commitTransaction x s' r := by
  unfold processTransaction
  rw [h]
  rfl

/-- A failure that stays within the gas limit gives back. -/
theorem RetryRuns.givesBack {s' : Executor} {p : Pending} {r : TxResult}
    (h : RetryRuns x s t i s₁ (s', .ok r))
    (hf : FailedRetry s t i (s.world.getBalance t.sender).toNat
      (s.world.getBalance (escrowOf x i.ticketId)).toNat s' p r)
    (hapart : RetryApart x s t i) (hlimit : r.gasUsed ≤ i.gas) : GivesBack x s t i := by
  have hexec := h.exec
  have hprocess := processTransaction_ok hexec
  have hrefunds : senderRefunds x s t = refundedToSender s' p (retryContextOf i) r := by
    unfold senderRefunds
    rw [hexec]
    simp only [hf.pending, hf.context]
  obtain ⟨hescrow, hsender⟩ := hf.commit hapart hlimit h.fits
  refine ⟨?_, ?_, ?_⟩
  · intro r' hr'
    rw [hexec] at hr'
    cases hr'
    exact hlimit
  · intro _
    rw [hprocess]
    exact BitVec.eq_of_toNat_eq hescrow
  · intro _
    rw [hprocess, hrefunds]
    exact hsender

theorem givesBack_short (hretry : t.tx.transaction = .retry i)
    (hshort : s.world.getBalance (escrowOf x i.ticketId) < i.value) :
    GivesBack x s t i ∧ GasWithinLimit x s t i := by
  obtain ⟨-, z, hshell, hframe, hstart⟩ :=
    (startRetry_cases (x := x) (s := s.resetTx) t.sender i).resolve_right fun h => h.1 hshort
  have hexec := execute_retry (x := x) (s := s) hretry
  rw [hstart] at hexec
  have hbalance : (processTransaction x s t).world.getBalance = s.world.getBalance := by
    rw [processTransaction_ok hexec]
    refine Eq.trans (getBalance_commit_ended (show _ = some (endedPending z t.sender 0 .retry 0)
      from ?_) ?_) ?_
    · rfl
    · exact sweep_of_shell hshell
    · exact funext fun a => hframe.balance a not_false
  have hrefunds : senderRefunds x s t = 0 := by
    unfold senderRefunds
    rw [hexec]
    rfl
  refine ⟨⟨?_, ?_, ?_⟩, ⟨fun _ hc => absurd hshort hc, ?_⟩⟩
  · intro r hr
    rw [hexec] at hr
    cases hr
    exact Nat.zero_le _
  · intro _
    rw [hbalance]
  · intro _
    rw [hbalance, hrefunds, Nat.add_zero]
  · intro input w hrun
    simp only [enteredRun, evmEntry, hretry, hstart] at hrun
    cases hrun

/-- The forced revert records its own gas. -/
theorem givesBack_forced_iff {computation : Nat} {output : Bytes} (hook : hookAction x s t ≠ .none)
    (hapart : RetryApart x s t i)
    (h : RetryRuns x s t i s₁ (forceRevert x (chargeGas x s₁ t) t (some (retryContextOf i)) 0
      (forcedGas x s₁ t) computation output)) :
    GivesBack x s t i ↔ GasWithinLimit x s t i := by
  have hforced := (h.started.charges h.retry).2.1
  constructor
  · intro hback
    refine ⟨fun _ _ => ?_, fun input w hrun => ?_⟩
    · rw [← hforced]
      exact hback.gasUsed _ (by rw [h.exec]; rfl)
    · rw [h.enteredRun_eq, if_neg hook] at hrun
      cases hrun
  · intro hwithin
    refine h.givesBack (h.failed_forced rfl rfl) hapart ?_
    rw [hforced]
    exact hwithin.forced hook h.covered

/-- An error of revm is rolled back. -/
theorem givesBack_refused {err : String} (hook : hookAction x s t = .none) (hapart : RetryApart x s t i)
    (hrun : x.evm (runInput x s₁ t (some (retryContextOf i))) (chargeGas x s₁ t).world = .error err)
    (h : RetryRuns x s t i s₁ (rollbackPreExecState (chargeGas x s₁ t) (calldataUnits x s₁ t)
      (some (retryUndoOf x s t.sender i)), .error (.evm err))) :
    GivesBack x s t i ∧ GasWithinLimit x s t i := by
  obtain ⟨hescrow, hsender⟩ :=
    h.getBalance_rollback hapart.escrow_sender (calldataUnits x s₁ t)
  have hprocess : processTransaction x s t = rollbackPreExecState (chargeGas x s₁ t)
      (calldataUnits x s₁ t) (some (retryUndoOf x s t.sender i)) := by
    unfold processTransaction
    rw [h.exec]
    rfl
  have hrefunds : senderRefunds x s t = 0 := by
    unfold senderRefunds
    rw [h.exec]
  refine ⟨⟨?_, ?_, ?_⟩, ⟨fun hne => absurd hook hne, ?_⟩⟩
  · intro r hr
    rw [h.exec] at hr
    cases hr
  · intro _
    rw [hprocess]
    exact BitVec.eq_of_toNat_eq hescrow
  · intro _
    rw [hprocess, hrefunds]
    exact hsender
  · intro input w hentered hok
    rw [h.enteredRun_eq, if_pos hook] at hentered
    cases hentered
    rw [hrun] at hok
    cases hok

/-- A run records its gas, raised to the calldata floor. -/
theorem givesBack_ran {out : EvmOutput} (hook : hookAction x s t = .none)
    (hprice : i.gasFeeCap = s.ctx.basefee) (hapart : RetryApart x s t i) (hrevm : RevmCharges x)
    (hrun : x.evm (runInput x s₁ t (some (retryContextOf i))) (chargeGas x s₁ t).world = .ok out)
    (h : RetryRuns x s t i s₁ (finishEvm x (chargeGas x s₁ t) t (some (retryContextOf i)) 0 out)) :
    (GivesBack x s t i → GasWithinLimit x s t i) ∧
      (GasWithinLimit x s t i → FailsClean x s t → GivesBack x s t i) := by
  have hentered : enteredRun x s t =
      some (runInput x s₁ t (some (retryContextOf i)), (chargeGas x s₁ t).world) := by
    rw [h.enteredRun_eq, if_pos hook]
  have hused : out.gasUsed ≤ i.gas := by
    have hgiven := hrevm.gasUsed _ _ _ hrun
    have hlimit : (runInput x s₁ t (some (retryContextOf i))).env.gasLimit ≤ t.env.gasLimit :=
      Nat.sub_le _ _
    rw [(env_retry h.retry).2.1] at hlimit
    exact hgiven.trans hlimit
  have hgas : receiptGas out.gasUsed 0 (calldataFloorGas x (chargeGas x s₁ t) t) =
      max out.gasUsed (calldataFloorGas x s t) := by
    rw [receiptGas_noPoster (calldataFloorGas_le x _ t), (charges_chargeGas s₁ t).1,
      (h.started.charges h.retry).2.2]
  constructor
  · intro hback
    refine ⟨fun hne => absurd hook hne, fun _ _ _ _ => ?_⟩
    have hle := hback.gasUsed _ (by rw [h.exec]; rfl)
    rw [hgas] at hle
    exact (Nat.le_max_right _ _).trans hle
  · intro hwithin hclean
    have hfloor : calldataFloorGas x s t ≤ i.gas :=
      hwithin.floor _ _ hentered (by rw [hrun]; rfl)
    have hle : receiptGas out.gasUsed 0 (calldataFloorGas x (chargeGas x s₁ t) t) ≤ i.gas := by
      rw [hgas]
      exact Nat.max_le.mpr ⟨hused, hfloor⟩
    cases hsuccess : out.success with
    | false =>
      have hfailed := h.failed_ran hprice hrevm hapart.escrow_sender hrun hsuccess hused
        (hclean _ _ _ hentered hrun hsuccess) rfl rfl
      exact h.givesBack hfailed hapart hle
    | true =>
      have hends : ¬ EndsWithoutSuccess x s t := by
        intro hno
        have hfalse := hno _ (by rw [h.exec]; rfl)
        rw [hsuccess] at hfalse
        cases hfalse
      refine ⟨?_, fun hno => absurd hno hends, fun hno => absurd hno hends⟩
      intro r hr
      rw [h.exec] at hr
      cases hr
      exact hle

/-- A redemption of a live ticket keeps to its gas limit, and gives the escrow and the sender
    back what it took when it fails, if the gas of a forced revert and the calldata floor fit the
    limit and a failed run leaves the commit nothing to act on. The first is necessary. -/
theorem failed_retry_gives_back (x : Externals) (s : Executor) (t : ExecutableTx x) (i : ArbRetryTx)
    (hretry : t.tx.transaction = .retry i)
    (hlive : (openRetryable s.ctx.arbosVersion s.world i.ticketId s.ctx.blockTimestamp).isSome)
    (hhooks : s.hooks.isSome) (hprice : i.gasFeeCap = s.ctx.basefee) (hapart : RetryApart x s t i)
    (hsupply : s.world.supply + s.ctx.basefee.toNat * i.gas < 2 ^ 256) (hrevm : RevmCharges x) :
    (GasWithinLimit x s t i ∧ FailsClean x s t → GivesBack x s t i) ∧
      (GivesBack x s t i → GasWithinLimit x s t i) := by
  obtain ⟨tk, hopen⟩ := Option.isSome_iff_exists.mp hlive
  by_cases hshort : s.world.getBalance (escrowOf x i.ticketId) < i.value
  · obtain ⟨hback, hwithin⟩ := givesBack_short (x := x) (t := t) hretry hshort
    exact ⟨fun _ => hback, fun _ => hwithin⟩
  · obtain ⟨-, s₁, hstart, hstarted, -⟩ :=
      (startRetry_cases (x := x) (s := s.resetTx) t.sender i).resolve_left (by
        rintro ⟨hnone | hshort', -⟩
        · exact absurd (hopen.symm.trans hnone) nofun
        · exact hshort hshort')
    have hhook := (hstarted.charges hretry).1
    change _ = RetryStart.started s₁ (retryContextOf i) (retryUndoOf x s t.sender i) at hstart
    have hexec := execute_retry (x := x) (s := s) hretry
    rw [hstart] at hexec
    have hentry : evmEntry x s t =
        some (s₁, some (retryContextOf i), some (retryUndoOf x s t.sender i)) := by
      simp only [evmEntry, hretry, hstart]
    have hruns : ∀ o, executeTransactionWithoutCommit x s t = o → RetryRuns x s t i s₁ o := by
      intro o ho
      exact {
        retry := hretry
        hooks := hhooks
        covered := hshort
        started := hstarted
        owes := hstarted.owes hapart.escrow_sender hshort hsupply
        fits := by omega
        entry := hentry
        exec := ho }
    have hpath := executeEvm_retry (x := x) (s := s₁) hretry (retryContextOf i)
      (retryUndoOf x s t.sender i)
    rw [← show _ = executeEvm x s₁ t _ _ from hexec] at hpath
    generalize executeTransactionWithoutCommit x s t = o at hpath hruns
    cases hpath with
    | forced _ output hook =>
      have hiff := givesBack_forced_iff (hhook ▸ hook) hapart (hruns _ rfl)
      exact ⟨fun hc => hiff.mpr hc.1, hiff.mp⟩
    | refused err hook hrun =>
      obtain ⟨hback, hwithin⟩ := givesBack_refused (hhook ▸ hook) hapart hrun (hruns _ rfl)
      exact ⟨fun _ => hback, fun _ => hwithin⟩
    | ran out hook hrun =>
      obtain ⟨hgas, hback⟩ := givesBack_ran (hhook ▸ hook) hprice hapart hrevm hrun (hruns _ rfl)
      exact ⟨fun hc => hback hc.1 hc.2, hgas⟩

end Redemption

/-! ## A ticket with 500 wei in escrow -/

/-- A run that reverts and uses the gas it is given. -/
def revertRun (i : EvmInput) (w : World) : Except String EvmOutput :=
  if h : i.env.gasLimit ≤ u64Max then
    .ok ⟨burnBalance w i.env.caller (satMul256 i.basefee i.env.gasLimit), [], false, i.env.gasLimit, h,
      [], none, 0, none, oneKind .computation i.env.gasLimit⟩
  else .error "gas limit"

/-- With the sample's hash an escrow address is the end of the ticket's id. -/
def revertExternals : Externals := { sampleExternals revertRun with keccak256 := sampleKeccak }

theorem revertRun_ok {i : EvmInput} {w : World} {out : EvmOutput} (h : revertRun i w = .ok out) :
    out.world = w.applyBurn i.env.caller (satMul256 i.basefee i.env.gasLimit) ∧
      out.gasUsed = i.env.gasLimit ∧ out.stylusDataFee = 0 ∧ out.cancelEscrowSweep = none ∧
      out.dirtyParams = none := by
  unfold revertRun at h
  split at h
  · next hle =>
    cases h
    exact ⟨burnBalance_eq _ _ _, rfl, rfl, rfl, rfl⟩
  · cases h

theorem revmCharges_revertRun : RevmCharges revertExternals := by
  constructor
  · intro i w out h
    exact Nat.le_of_eq (revertRun_ok h).2.1
  · intro i w out h _
    obtain ⟨hworld, hgas, _⟩ := revertRun_ok h
    rw [hworld, hgas, toNat_getBalance_applyBurn, toNat_satMul256]
    have := toNat_le_u256Max (w.getBalance i.env.caller)
    omega
  · intro i w out h _ a ha
    rw [(revertRun_ok h).1, getBalance_applyBurn, update_of_ne ha]

/-- A retry of ticket 0x111 at the base fee of the sample block. -/
def revertRetry (data : Bytes) : ArbRetryTx :=
  ⟨42161, 0, sampleSender, 100000000, 25000, some 0xb0b, 500, data, 0x111, 0xa1, 0, 0⟩

def revertTx (data : Bytes) : ExecutableTx revertExternals where
  tx := ⟨.retry (revertRetry data), ⟨0, 0, false⟩⟩
  env := ⟨0, sampleSender, 25000, 0, some 42161, some 0xb0b, data, 100000000, none, 500, [], []⟩
  env_eq := rfl

/-- A sender without balance, and the ticket's 500 wei in escrow. -/
def revertExecutor (floor : Bool) : Executor :=
  let s := sampleExecutor ⟨0, 3, false⟩ fun _ => false
  let ticket : Ticket := ⟨0, sampleSender, some 0xb0b, 500, sampleSender, [], 1800000000, 0⟩
  { s with
    world := (s.world.setTicket 0x111 ticket).setAccount 0x111 (some ⟨500, 0, false⟩)
    hooks := some { sampleHooks with calldataPricingIncreaseEnabled := floor } }

theorem supply_revertExecutor (floor : Bool) : (revertExecutor floor).world.supply = 500 := by
  have hzero : (sampleExecutor ⟨0, 3, false⟩ fun _ => false).world.getBalance = fun _ => 0 := by
    funext a
    by_cases ha : a = sampleSender
    · simp [sampleExecutor, getBalance, ha]
    · simp [sampleExecutor, getBalance, ha]
  have hset : (revertExecutor floor).world.getBalance =
      update (sampleExecutor ⟨0, 3, false⟩ fun _ => false).world.getBalance 0x111 500 :=
    getBalance_setAccount _ _ _
  have hsupply := supply_update hset
  have hempty : (sampleExecutor ⟨0, 3, false⟩ fun _ => false).world.supply = 0 := by
    unfold supply total
    rw [hzero]
    exact Finset.sum_eq_zero fun _ _ => rfl
  rw [hempty, hzero, show (0 : U256).toNat = 0 from rfl, show (500 : U256).toNat = 500 from rfl,
    Nat.add_zero, Nat.zero_add] at hsupply
  exact hsupply

theorem retryApart_revert :
    RetryApart revertExternals (revertExecutor false) (revertTx []) (revertRetry []) := by
  refine ⟨?_, ?_, ?_, ?_, ?_, ?_⟩
  all_goals decide +kernel

/-- A short call that fails with pricing off gives everything back. -/
theorem failed_retry_gives_back_short_call :
    GivesBack revertExternals (revertExecutor false) (revertTx []) (revertRetry []) := by
  refine (failed_retry_gives_back revertExternals (revertExecutor false) (revertTx [])
    (revertRetry []) rfl (by decide +kernel) rfl rfl retryApart_revert
    (by rw [supply_revertExecutor]; decide +kernel) revmCharges_revertRun).1 ⟨?_, ?_⟩
  · exact ⟨fun hook => absurd (by decide +kernel) hook, fun _ _ _ _ => Nat.zero_le _⟩
  · exact fun _ _ _ _ hrun _ => (revertRun_ok hrun).2.2

/-- With 200 bytes of calldata and pricing on, the intrinsic gas of 24200 fits the limit of 25000
    and the floor of 29000 does not. The receipt says 29000, the charge for the 4000 gas above the
    limit eats the call value and the escrow stays empty. -/
theorem floor_eats_escrow :
    let data : Bytes := List.replicate 200 1
    estimateIntrinsicGas revertExternals (revertTx data).tx sampleCtx.arbosVersion = 24200 ∧
      ((executeTransactionWithoutCommit revertExternals (revertExecutor true)
        (revertTx data)).2.toOption.map fun r => (r.success, r.gasUsed)) = some (false, 29000) ∧
      (revertExecutor true).world.getBalance (escrowOf revertExternals 0x111) = 500 ∧
      (processTransaction revertExternals (revertExecutor true)
        (revertTx data)).world.getBalance (escrowOf revertExternals 0x111) = 0 ∧
      ¬ GivesBack revertExternals (revertExecutor true) (revertTx data) (revertRetry data) := by
  have hrecorded : ((executeTransactionWithoutCommit revertExternals (revertExecutor true)
      (revertTx (List.replicate 200 1))).2.toOption.map fun r => (r.success, r.gasUsed)) =
      some (false, 29000) := by decide +kernel
  refine ⟨by decide +kernel, hrecorded, by decide +kernel, by decide +kernel, ?_⟩
  intro hback
  cases hresult : (executeTransactionWithoutCommit revertExternals (revertExecutor true)
      (revertTx (List.replicate 200 1))).2 with
  | error err =>
    rw [hresult] at hrecorded
    cases hrecorded
  | ok r =>
    have hle : r.gasUsed ≤ 25000 := hback.gasUsed r hresult
    rw [hresult] at hrecorded
    have hgas : r.gasUsed = 29000 := congrArg Prod.snd (Option.some.inj hrecorded)
    omega

end Arbreth.Exec
