/-
  The retries a transaction schedules, and the producer's loop that runs them (arb-node,
  producer.rs: produce_block_with_execution; arb-evm, build.rs: drain_scheduled_txs and the
  places that push to scheduled_txs; arbos, block_processor.rs: next_tx_action).

  A submitted retryable that pays for its gas schedules its first redemption, every other
  transaction the redeems its run announced. The executor clears the list when it starts on a
  transaction. The producer takes the list after a committed transaction, runs the whole of it,
  and looks at the list again, where only what the last retry scheduled is left. So a retry that
  is scheduled by any other one is lost (`scheduled_retries_run_iff`), where the queue of the
  block processor would have kept it.

  The loop ends since gas is donated and not made (`auto_redeems_end`): a retry's gas limit was
  paid for by the transaction that scheduled it, on top of the 21000 that this one cost.

  Scheduled entries are kept decoded.
-/
import Arbreth.Exec.GasCharging
import Arbreth.Exec.Sweep
import Arbreth.Lib.Drain
import Arbreth.Redeem.Schedule

namespace Arbreth.Producer

open Arbreth.Lib Arbreth.Exec Arbreth.Tx Arbreth.Parse Arbreth.Redeem Arbreth.Storage Accessor
open Arbreth.Stylus (oneKind)

/-! ## What is scheduled -/

section Scheduled

variable (chainId : Nat) (x : Externals) (s : Executor) (t : ExecutableTx x)

/-- The run whose result the executor returned, and the executor at its scan. -/
def takenRun : Option (Executor × EvmOutput) :=
  match evmEntry x s t with
  | none => none
  | some (s₀, retry, _) =>
    if returnsOk x s t ∧ hookAction x s₀ t = .none then
      match x.evm (runInput x s₀ t retry) (chargeGas x s₀ t).world with
      | .ok out => some (chargeGas x s₀ t, out)
      | .error _ => none
    else none

/-- The first redemption of a submitted retryable, with the gas the hooks were given for it. -/
def autoRedeems (i : ArbSubmitRetryableTx) : List ArbRetryTx :=
  let ticketId := x.trieHash t.tx
  let feeRefundAddr :=
    if s.world.filtered ticketId then s.world.filteredFundsRecipient else i.feeRefundAddr
  let fees := submitFees { s with world := mintBalance s.world i.sender i.depositValue } i ticketId
    feeRefundAddr
  let s' := (executeTransactionWithoutCommit x s t).1
  match s'.hooks with
  | none => []
  | some h => h.txProc.scheduledGas.map fun gas =>
    makeTx (s'.world.tickets ticketId) (BitVec.ofNat 256 chainId) 0 s.ctx.basefee gas ticketId
      feeRefundAddr fees.availableRefund fees.submissionFee

/-- What `scheduled_txs` holds after the transaction was executed. -/
def scheduledTxs : List ArbRetryTx :=
  if s.hooks.isNone then []
  else
    match t.tx.transaction with
    | .submitRetryable i => autoRedeems chainId x s t i
    | _ =>
      match takenRun x s t with
      | some (s₁, out) =>
        if out.success then scannedRetries chainId s₁.ctx s₁.world out.logs else []
      | none => []

end Scheduled

/-! ## The loop -/

section Loop

variable (chainId : Nat) (x : Externals)

/-- A retry as the executor receives it. The conversion of its fees panics for a base fee of
    more than 128 bits. -/
def retryTx (r : ArbRetryTx) : Option (ExecutableTx x) :=
  match h : arbTxToTxEnv x.selector ⟨.retry r, zeroSig⟩ (x.recoverSigner ⟨.retry r, zeroSig⟩) with
  | .ok env => some ⟨⟨.retry r, zeroSig⟩, env, h⟩
  | .error _ => none

/-- Execute a scheduled retry, commit it if that returned Ok, and look at the list. -/
def retryStep (s : Executor) (r : ArbRetryTx) : Executor × List ArbRetryTx :=
  match retryTx x r with
  | some t => (processTransaction x s t, scheduledTxs chainId x s t)
  | none => (s, [])

/-- The producer after a transaction of the message: the executor and the list. -/
def afterTx (s : Executor) (t : ExecutableTx x) : Executor × List ArbRetryTx :=
  (processTransaction x s t, scheduledTxs chainId x s t)

/-- A transaction of the message: the executor before it, and the retries run after it. -/
structure Produced where
  before : Executor
  tx : ExecutableTx x
  ran : List (Ran ArbRetryTx)

/-- The loop over the parsed transactions; each is followed by the loop over what was scheduled,
    of which some rounds are allowed. -/
def produceTxs (rounds : Nat) : Executor → List (ExecutableTx x) →
    Option (Executor × List (Produced x))
  | s, [] => some (s, [])
  | s, t :: txs =>
    match drainLoop (retryStep chainId x) rounds (afterTx chainId x s t) with
    | none => none
    | some (s', ran) => (produceTxs rounds s' txs).map fun out => (out.1, ⟨s, t, ran⟩ :: out.2)

end Loop

variable {chainId : Nat} {x : Externals} {s s' : Executor} {t : ExecutableTx x} {r : ArbRetryTx}

theorem retryTx_tx (h : retryTx x r = some t) : t.tx = ⟨.retry r, zeroSig⟩ := by
  unfold retryTx at h
  split at h
  · cases h
    rfl
  · cases h

/-! ## Every scheduled retry runs -/

/-- Each entry that was pushed by the transaction or by a retry after it was handed to the
    executor once, in the order in which they were pushed. -/
def EveryRetryRuns (chainId : Nat) (x : Externals) (p : Produced x) : Prop :=
  InOrder (scheduledTxs chainId x p.before p.tx) p.ran

instance (chainId : Nat) (x : Externals) (p : Produced x) : Decidable (EveryRetryRuns chainId x p) :=
  inferInstanceAs (Decidable (InOrder _ _))

/-- What each parsed transaction of a block left behind came from its own loop. -/
theorem drained_of_produced {rounds : Nat} {txs : List (ExecutableTx x)} {produced : List (Produced x)}
    (h : produceTxs chainId x rounds s txs = some (s', produced)) :
    ∀ p ∈ produced, ∃ s'', drainLoop (retryStep chainId x) rounds (afterTx chainId x p.before p.tx) =
      some (s'', p.ran) := by
  induction txs generalizing s produced with
  | nil =>
    cases h
    exact fun p hp => absurd hp List.not_mem_nil
  | cons t txs ih =>
    rw [produceTxs] at h
    cases hdrain : drainLoop (retryStep chainId x) rounds (afterTx chainId x s t) with
    | none =>
      rw [hdrain] at h
      cases h
    | some out =>
      rw [hdrain] at h
      obtain ⟨rest, hrest, hout⟩ := Option.map_eq_some_iff.mp h
      cases hout
      intro p hp
      rcases List.mem_cons.mp hp with rfl | hp
      · exact ⟨out.1, hdrain⟩
      · exact ih hrest p hp

/-- Whatever block the producer makes, after each of its transactions every scheduled retry runs
    if and only if, in the tree of retries it gives rise to, only the last of each generation
    schedules further ones. -/
theorem scheduled_retries_run_iff (chainId : Nat) (x : Externals) (s s' : Executor) (rounds : Nat)
    (txs : List (ExecutableTx x)) (produced : List (Produced x))
    (h : produceTxs chainId x rounds s txs = some (s', produced)) :
    ∀ p ∈ produced, EveryRetryRuns chainId x p ↔
      OnlyLastSchedules (retryStep chainId x) (afterTx chainId x p.before p.tx) := by
  intro p hp
  obtain ⟨s'', hdrain⟩ := drained_of_produced h p hp
  exact drainLoop_inOrder_iff hdrain

/-! ## The loop ends -/

/-- What is assumed of revm: the `RedeemScheduled` logs of a successful run are those of the
    redeems that were not undone, the run is charged its intrinsic gas and the gas these report,
    and no run is charged more than its limit. -/
structure RunsRedeems (x : Externals) : Prop where
  redeems : ∀ i w out, x.evm i w = .ok out → out.success = true →
    ∃ (c : CancelCtx) (calls : RetryCalls) (q : Queue),
      redeemLogs out.logs = (calls.run c (.start ⟨w, q⟩)).redeems.map Redeemed.log ∧
        txGas + ((calls.run c (.start ⟨w, q⟩)).redeems.map Redeemed.gasUsed).sum ≤ out.gasUsed
  gasUsed : ∀ i w out, x.evm i w = .ok out → out.gasUsed ≤ i.env.gasLimit

theorem takenRun_some {s₁ : Executor} {out : EvmOutput} (h : takenRun x s t = some (s₁, out)) :
    ∃ i w, x.evm i w = .ok out ∧ i.env.gasLimit ≤ t.env.gasLimit := by
  unfold takenRun at h
  split at h
  · cases h
  · next s₀ retry undo hentry =>
    split at h
    · cases hrun : x.evm (runInput x s₀ t retry) (chargeGas x s₀ t).world with
      | error e =>
        rw [hrun] at h
        cases h
      | ok out' =>
        rw [hrun] at h
        cases h
        exact ⟨_, _, hrun, Nat.sub_le _ _⟩
    · cases h

/-- A transaction that enters the EVM schedules what a successful run announced, or nothing. -/
theorem scheduledTxs_cases (chainId : Nat) (s : Executor)
    (henters : EntersEvm (ArbTxType.fromU8 t.tx.ty)) :
    scheduledTxs chainId x s t = [] ∨ ∃ s₁ out, takenRun x s t = some (s₁, out) ∧
      out.success = true ∧
      scheduledTxs chainId x s t = scannedRetries chainId s₁.ctx s₁.world out.logs := by
  unfold scheduledTxs
  split
  · exact .inl rfl
  · split
    · next i htx =>
      have hdecide := entersEvm_eq t.tx
      rw [htx, decide_eq_false_iff_not] at hdecide
      exact absurd henters hdecide
    · split
      · next s₁ out hrun =>
        split
        · next hsuccess => exact .inr ⟨s₁, out, hrun, hsuccess, rfl⟩
        · exact .inl rfl
      · exact .inl rfl

/-- The retries a transaction schedules are paid for by its own gas, on top of the 21000 that it
    costs, and each can pay for a transaction. -/
theorem scheduledTxs_paid (chainId : Nat) (s : Executor) (hx : RunsRedeems x)
    (henters : EntersEvm (ArbTxType.fromU8 t.tx.ty)) :
    (∀ r ∈ scheduledTxs chainId x s t, txGas ≤ r.gas) ∧
      (scheduledTxs chainId x s t = [] ∨
        ((scheduledTxs chainId x s t).map ArbRetryTx.gas).sum + txGas ≤ gasLimit t.tx) := by
  rcases scheduledTxs_cases chainId s henters with hnone | ⟨s₁, out, hrun, hsuccess, hscan⟩
  · rw [hnone]
    exact ⟨fun r hr => absurd hr List.not_mem_nil, .inl rfl⟩
  · obtain ⟨i, w, hevm, hlimit⟩ := takenRun_some hrun
    obtain ⟨c, calls, q, hlogs, hgas⟩ := hx.redeems i w out hevm hsuccess
    have hused := hx.gasUsed i w out hevm
    obtain ⟨henough, hsum⟩ :=
      scannedRetries_paid chainId s₁.ctx s₁.world (redeems_run c ⟨w, q⟩ calls)
    rw [hscan, ← scannedRetries_redeemLogs, hlogs]
    rw [env_gasLimit henters] at hlimit
    exact ⟨henough, .inr (by omega)⟩

theorem entersEvm_retry (r : ArbRetryTx) :
    EntersEvm (ArbTxType.fromU8 (ArbTransactionSigned.ty ⟨.retry r, zeroSig⟩)) := by
  show EntersEvm (ArbTxType.fromU8 ArbTxType.retry.asU8)
  decide

/-- A retry pays for itself and for all it schedules. -/
theorem pays_retryStep (chainId : Nat) (hx : RunsRedeems x) :
    Pays (retryStep chainId x) ArbRetryTx.gas txGas where
  worth s r _ := by
    unfold retryStep
    split
    · next t ht =>
      have henters := entersEvm_retry r
      rw [← retryTx_tx ht] at henters
      exact (scheduledTxs_paid chainId s hx henters).1
    · exact fun b hb => absurd hb List.not_mem_nil
  budget s r hr := by
    unfold retryStep
    split
    · next t ht =>
      have henters := entersEvm_retry r
      rw [← retryTx_tx ht] at henters
      have hlimit : gasLimit t.tx = r.gas := by
        rw [retryTx_tx ht]
        rfl
      rcases (scheduledTxs_paid chainId s hx henters).2 with hnone | hpaid
      · rw [hnone]
        exact (Nat.zero_add txGas).trans_le hr
      · rw [← hlimit]
        exact hpaid
    · exact (Nat.zero_add txGas).trans_le hr

/-- After a user transaction with gas limit `G` the loop runs at most `G / 21000` retries and
    ends. The gas limits of what one transaction schedules, the first or a retry, sum to at most
    its own less 21000. -/
theorem auto_redeems_end (chainId : Nat) (x : Externals) (s : Executor) (t : ExecutableTx x)
    (hx : RunsRedeems x) (huser : isUserTx (ArbTxType.fromU8 t.tx.ty) = true) (rounds : Nat)
    (hrounds : gasLimit t.tx / txGas ≤ rounds) :
    ((scheduledTxs chainId x s t).map ArbRetryTx.gas).sum ≤ gasLimit t.tx - txGas ∧
      ∃ s' ran, drainLoop (retryStep chainId x) rounds (afterTx chainId x s t) = some (s', ran) ∧
        ran.length ≤ gasLimit t.tx / txGas ∧
        ∀ e ∈ ran, (e.scheduled.map ArbRetryTx.gas).sum ≤ e.job.gas - txGas := by
  have henters : EntersEvm (ArbTxType.fromU8 t.tx.ty) := by
    simp only [isUserTx, Bool.and_eq_true, decide_eq_true_eq] at huser
    exact ⟨huser.1.1.1, huser.1.1.2, huser.1.2⟩
  obtain ⟨hworth, hpaid⟩ := scheduledTxs_paid chainId s hx henters
  have hsum : ((scheduledTxs chainId x s t).map ArbRetryTx.gas).sum ≤
      gasLimit t.tx - txGas := by
    rcases hpaid with hnone | hpaid
    · rw [hnone]
      exact Nat.zero_le _
    · omega
  have hdiv : gasLimit t.tx - txGas ≤ txGas * (gasLimit t.tx / txGas) := by
    have := Nat.div_add_mod (gasLimit t.tx) txGas
    have := Nat.mod_lt (gasLimit t.tx) (show 0 < txGas by decide)
    omega
  obtain ⟨s', ran, hdrain, hcount, hentries⟩ := drainLoop_ends (p := afterTx chainId x s t)
    (pays_retryStep chainId hx) (show 0 < txGas by decide) hworth
    ((hsum.trans hdiv).trans (Nat.mul_le_mul_left txGas hrounds))
  refine ⟨hsum, s', ran, hdrain, ?_, fun e he => Nat.le_sub_of_add_le (hentries e he)⟩
  rw [Nat.le_div_iff_mul_le (by decide), Nat.mul_comm]
  exact (hcount.trans hsum).trans (Nat.sub_le _ _)

/-! ## Samples -/

/-- A run that makes the calls its redeemed ticket says, zero for a transaction that is no
    redemption. -/
def redeemRun (callsOf : B256 → RetryCalls) (i : EvmInput) (w : World) : Except String EvmOutput :=
  let final := (callsOf i.retryableId).run ⟨sampleKeccak, sampleCtx, i.retryableId⟩
    (.start ⟨w, Queue.init⟩)
  let gasUsed := txGas + (final.redeems.map Redeemed.gasUsed).sum
  if h : gasUsed ≤ u64Max ∧ gasUsed ≤ i.env.gasLimit then
    .ok ⟨final.state.world, [], true, gasUsed, h.1, final.redeems.map Redeemed.log, none, 0, none,
      oneKind .computation gasUsed⟩
  else .error "out of gas"

def redeemExternals (callsOf : B256 → RetryCalls) : Externals :=
  { sampleExternals (redeemRun callsOf) with keccak256 := sampleKeccak, posterUnits := fun _ _ => 0 }

theorem runsRedeems_redeemRun (callsOf : B256 → RetryCalls) : RunsRedeems (redeemExternals callsOf) := by
  constructor
  · intro i w out hrun _
    refine ⟨⟨sampleKeccak, sampleCtx, i.retryableId⟩, callsOf i.retryableId, Queue.init, ?_⟩
    have hall := redeems_run ⟨sampleKeccak, sampleCtx, i.retryableId⟩ ⟨w, Queue.init⟩
      (callsOf i.retryableId)
    change redeemRun callsOf i w = .ok out at hrun
    unfold redeemRun at hrun
    dsimp only at hrun
    split at hrun
    · cases hrun
      refine ⟨List.filter_eq_self.mpr fun log hlog => ?_, Nat.le_refl _⟩
      obtain ⟨r, hr, rfl⟩ := List.mem_map.mp hlog
      obtain ⟨_, _, _, _, _, _, _, has⟩ := hall r hr
      rw [parse_redeemed has]
      rfl
    · cases hrun
  · intro i w out hrun
    change redeemRun callsOf i w = .ok out at hrun
    unfold redeemRun at hrun
    dsimp only at hrun
    split at hrun
    · next h =>
      cases hrun
      exact h.2
    · cases hrun

/-- A transaction with a gas limit of a million. -/
def redeemTx (callsOf : B256 → RetryCalls) : ExecutableTx (redeemExternals callsOf) where
  tx := ⟨.legacy ⟨some 42161, 3, 100000000, 1000000, some 0xb0b, 0, []⟩, ⟨1, 1, false⟩⟩
  env := ⟨0, sampleSender, 1000000, 3, some 42161, some 0xb0b, [], 100000000, none, 0, [], []⟩
  env_eq := rfl

/-- Three tickets without call value. -/
def redeemExecutor : Executor :=
  let ticket : Ticket := ⟨0, 0xabc, some 0xdef, 0, sampleSender, [], 2000000000, 0⟩
  { fundedExecutor false with
    world := { (fundedExecutor false).world with
      tickets := fun id => if id ∈ ([0x111, 0x222, 0x333] : List B256) then ticket else .cleared } }

def redeemWith (gas : Nat) (h : gas ≤ u64Max) : RedeemCall := ⟨gas, h, 36, sampleSender, [], 0⟩

/-- Each retry redeems the next ticket. -/
def chainCalls (id : B256) : RetryCalls :=
  if id = 0 then .redeem (redeemWith 200000 sampleGas_le) 0x111 .done
  else if id = 0x111 then .redeem (redeemWith 100000 (by decide)) 0x222 .done
  else .done

/-- Two tickets are redeemed, and the first retry redeems a third. -/
def forkCalls (id : B256) : RetryCalls :=
  if id = 0 then
    .redeem (redeemWith 200000 sampleGas_le) 0x111
      (.redeem (redeemWith 200000 sampleGas_le) 0x222 .done)
  else if id = 0x111 then .redeem (redeemWith 100000 (by decide)) 0x333 .done
  else .done

/-- In the chain both retries run, so that only last ones schedule. -/
theorem scheduled_retries_run_chain :
    ∃ s' produced, produceTxs 42161 (redeemExternals chainCalls) 5 redeemExecutor [redeemTx chainCalls] =
        some (s', produced) ∧
      (produced.map fun p => p.ran.map fun e => e.job.ticketId) = [[0x111, 0x222]] ∧
      ∀ p ∈ produced, EveryRetryRuns 42161 (redeemExternals chainCalls) p ∧
        OnlyLastSchedules (retryStep 42161 (redeemExternals chainCalls))
          (afterTx 42161 (redeemExternals chainCalls) p.before p.tx) := by
  have hran : (produceTxs 42161 (redeemExternals chainCalls) 5 redeemExecutor
      [redeemTx chainCalls]).map (fun out => (out.2.map fun p => p.ran.map fun e => e.job.ticketId,
        decide (∀ p ∈ out.2, EveryRetryRuns 42161 (redeemExternals chainCalls) p))) =
      some ([[0x111, 0x222]], true) := by
    decide +kernel
  obtain ⟨⟨s', produced⟩, hproduced, hout⟩ := Option.map_eq_some_iff.mp hran
  obtain ⟨hids, hall⟩ := Prod.mk.inj hout
  refine ⟨s', produced, hproduced, hids, fun p hp => ?_⟩
  have hp' := of_decide_eq_true hall p hp
  exact ⟨hp', (scheduled_retries_run_iff _ _ _ _ _ _ _ hproduced p hp).mp hp'⟩

/-- In the fork the third ticket's retry is scheduled and never run. -/
theorem nested_redeem_lost :
    ∃ s' produced, produceTxs 42161 (redeemExternals forkCalls) 5 redeemExecutor [redeemTx forkCalls] =
        some (s', produced) ∧
      (produced.map fun p => p.ran.map fun e => (e.job.ticketId, e.scheduled.map ArbRetryTx.ticketId)) =
        [[(0x111, [0x333]), (0x222, [])]] ∧
      ∀ p ∈ produced, ¬ EveryRetryRuns 42161 (redeemExternals forkCalls) p := by
  have hran : (produceTxs 42161 (redeemExternals forkCalls) 5 redeemExecutor
      [redeemTx forkCalls]).map (fun out => (out.2.map fun p => p.ran.map fun e =>
        (e.job.ticketId, e.scheduled.map ArbRetryTx.ticketId),
        decide (∀ p ∈ out.2, ¬ EveryRetryRuns 42161 (redeemExternals forkCalls) p))) =
      some ([[(0x111, [0x333]), (0x222, [])]], true) := by
    decide +kernel
  obtain ⟨⟨s', produced⟩, hproduced, hout⟩ := Option.map_eq_some_iff.mp hran
  obtain ⟨hids, hall⟩ := Prod.mk.inj hout
  exact ⟨s', produced, hproduced, hids, of_decide_eq_true hall⟩

/-- The fork's retries are paid for by a million gas. -/
theorem auto_redeems_end_fork :
    ((scheduledTxs 42161 (redeemExternals forkCalls) redeemExecutor (redeemTx forkCalls)).map
        ArbRetryTx.gas) = [147945, 147945] ∧
      ∃ s' ran, drainLoop (retryStep 42161 (redeemExternals forkCalls)) 47
          (afterTx 42161 (redeemExternals forkCalls) redeemExecutor (redeemTx forkCalls)) =
        some (s', ran) ∧ ran.length ≤ 47 := by
  obtain ⟨-, s', ran, hdrain, hlen, -⟩ := auto_redeems_end 42161 (redeemExternals forkCalls)
    redeemExecutor (redeemTx forkCalls) (runsRedeems_redeemRun forkCalls) rfl 47 (by decide)
  exact ⟨by decide +kernel, s', ran, hdrain, hlen⟩

end Arbreth.Producer
