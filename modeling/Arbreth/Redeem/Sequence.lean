/-
  The sequence numbers of a ticket's retries (arb-evm, build.rs: execute_submit_retryable and the
  scan of execute_transaction_without_commit; arb-precompiles, arbretryabletx.rs: handle_redeem).

  A retry's nonce is the number of tries its ticket had before. A submission starts the count: a
  ticket that pays for its gas gets the retry with nonce zero and one try, any other one no retry
  and no try. From then on every redeem that is not undone takes the next number, in the order
  of the calls (`numbered_runEnd`). Cancelled, deleted or reaped, a ticket is never redeemed
  again, and it does not matter what the commit leaves in its counter.

  `TicketRun` is the life of a ticket together with all retries scheduled in it. Along every
  life the nonces count up from zero (`counted_ticketRun`). The counter has 64 bits.
-/
import Arbreth.Producer.Drain
import Arbreth.Redeem.Bookkeeping

namespace Arbreth.Redeem

open Arbreth.Lib Arbreth.Exec Arbreth.Tx Arbreth.Retryable Arbreth.Producer Arbreth.Storage Function

/-! ## Submissions -/

/-- Tickets and hooks stay as they are. -/
def Still (s s' : Executor) : Prop := s'.world.tickets = s.world.tickets ∧ s'.hooks = s.hooks

/-- What the submission of a ticket does to tickets and hooks: nothing, or the ticket is there
    without a try, or with one and its retry on the list. -/
inductive Submitted (id : B256) (gas : Nat) (s s' : Executor) : Prop
  | refused (h : Still s s')
  | created (t : Ticket) (htickets : s'.world.tickets = update s.world.tickets id t)
      (hhooks : s'.hooks = s.hooks) (htries : t.numTries = 0) (hwindows : t.timeoutWindowsLeft = 0)
  | redeemed (t : Ticket) (htickets : s'.world.tickets = update s.world.tickets id t)
      (hhooks : s'.hooks = s.hooks.map fun h =>
        { h with txProc := { h.txProc with scheduledGas := h.txProc.scheduledGas ++ [gas] } })
      (htries : t.numTries = 1) (hwindows : t.timeoutWindowsLeft = 0) (hlive : t.timeout ≠ 0)

variable {x : Externals} {id : B256}

variable {gas : Nat} {retries : List ArbRetryTx}

/-- A new ticket, which is opened at time zero if it has a timeout at all. -/
theorem submitted_scheduleRedeem {s s' : Executor} {t : Ticket} (pending : Option Pending)
    (htickets : s'.world.tickets = update s.world.tickets id t)
    (hhooks : s'.hooks = s.hooks) (htries : t.numTries = 0) (hwindows : t.timeoutWindowsLeft = 0) :
    Submitted id gas s { scheduleRedeem s' id gas with pending } := by
  unfold scheduleRedeem
  cases hopen : openRetryable s'.ctx.arbosVersion s'.world id 0 with
  | none => exact .created t htickets hhooks htries hwindows
  | some t' =>
    obtain ⟨ht', hlive⟩ := openRetryable_some hopen
    rw [htickets, update_self] at ht' hlive
    subst ht'
    refine .redeemed { t' with numTries := wrap64 (t'.numTries + 1) } ?_ ?_ ?_ hwindows hlive
    · show update _ id _ = _
      rw [htickets, update_idem]
    · rw [hhooks]
    · rw [htries]
      rfl

theorem createTicket_tickets (s : Executor) (i : ArbSubmitRetryableTx) (id : B256) (timeout : Nat)
    (beneficiary : Address) : (createTicket x s i id timeout beneficiary).world.tickets =
      update s.world.tickets id
        ⟨0, i.sender, i.retryTo, i.retryValue, beneficiary, i.retryData, timeout, 0⟩ := by
  unfold createTicket
  split
  · exact congrArg (update · id _) (Frame.tickets_eq (frame_materialiseEmpty _ _))
  · rfl

theorem submitted_executeSubmitRetryable (s : Executor) (i : ArbSubmitRetryableTx) (id : B256) :
    Submitted id i.gas s (executeSubmitRetryable x s id i).1 := by
  have hpath := executeSubmitRetryable_path (x := x) (s := s) i id
  generalize executeSubmitRetryable x s id i = o at hpath ⊢
  cases hpath with
  | refused s₁ hpaid => exact .refused ⟨hpaid.frame.tickets_eq, hooks_of_shell hpaid.shell⟩
  | created s₁ s₂ s₃ timeout beneficiary success gasUsed output hpaid hgas hredeem =>
    -- Whatever is paid afterwards, the new ticket stays.
    have hnew := createTicket_tickets (x := x) s₁ i id timeout beneficiary
    rw [← hgas.frame.tickets_eq, hpaid.frame.tickets_eq] at hnew
    have hhooks := (hooks_of_shell hgas.shell).trans (hooks_of_shell hpaid.shell)
    rcases hredeem with rfl | rfl
    · exact .created _ hnew hhooks rfl rfl
    · exact submitted_scheduleRedeem _ hnew hhooks rfl rfl

variable {s : Executor} {t : ExecutableTx x} {i : ArbSubmitRetryableTx}

theorem execute_submission (htx : t.tx.transaction = .submitRetryable i) :
    executeTransactionWithoutCommit x s t =
      executeSubmitRetryable x s.resetTx (x.trieHash t.tx) i := by
  have huser : isUserTx (ArbTxType.fromU8 t.tx.ty) = false := by
    rw [ArbTransactionSigned.ty, htx]
    rfl
  unfold executeTransactionWithoutCommit
  rw [huser, if_neg fun h => Bool.false_ne_true h.1]
  simp only [htx]

/-- A submission schedules the retry with nonce zero and counts it, or neither. -/
theorem scheduled_submission (chainId : Nat) (htx : t.tx.transaction = .submitRetryable i)
    (hhooks : s.hooks.isSome) :
    (scheduledTxs chainId x s t = [] ∧
      ((executeTransactionWithoutCommit x s t).1.world.tickets = s.world.tickets ∨
        ((executeTransactionWithoutCommit x s t).1.world.tickets (x.trieHash t.tx)).numTries = 0)) ∨
    ∃ r, scheduledTxs chainId x s t = [r] ∧ r.ticketId = x.trieHash t.tx ∧ r.nonce = 0 ∧
      r.gas = i.gas ∧
      ((executeTransactionWithoutCommit x s t).1.world.tickets (x.trieHash t.tx)).numTries = 1 ∧
      ((executeTransactionWithoutCommit x s t).1.world.tickets (x.trieHash t.tx)).timeout ≠ 0 := by
  obtain ⟨h, hsome⟩ := Option.isSome_iff_exists.mp hhooks
  have hsubmitted := submitted_executeSubmitRetryable (x := x) s.resetTx i (x.trieHash t.tx)
  rw [← execute_submission htx] at hsubmitted
  have hlist : scheduledTxs chainId x s t = autoRedeems chainId x s t i := by
    rw [scheduledTxs, hsome]
    simp only [htx, Option.isNone_some, Bool.false_eq_true, if_false]
  rw [hlist]
  unfold autoRedeems
  dsimp only
  have hreset : s.resetTx.hooks = some { h with txProc := { h.txProc with
      posterFee := 0, posterGas := 0, computeHoldGas := 0, scheduledGas := [] } } := by
    rw [Executor.resetTx, hsome]
    rfl
  cases hsubmitted with
  | refused hstill =>
    rw [hstill.2, hreset]
    exact .inl ⟨rfl, .inl hstill.1⟩
  | created tk htickets hkept htries _ =>
    rw [hkept, hreset]
    exact .inl ⟨rfl, .inr (by rw [htickets, update_self, htries])⟩
  | redeemed tk htickets hadded htries _ hlive =>
    rw [hadded, hreset, htickets, update_self]
    exact .inr ⟨_, rfl, rfl, rfl, rfl, htries, hlive⟩

/-- The submission of a new ticket keeps the windows of all tickets queued, with the ticket's own
    entry put to the queue. -/
theorem windowsQueued_submission {q q' : Queue} (htx : t.tx.transaction = .submitRetryable i)
    (hqueued : WindowsQueued ⟨s.world, q⟩) (hfresh : (s.world.tickets (x.trieHash t.tx)).timeout = 0)
    (hnew : x.trieHash t.tx ∉ q.entries) (hput : q.put (x.trieHash t.tx) = some q') :
    WindowsQueued ⟨(executeTransactionWithoutCommit x s t).1.world, q'⟩ := by
  have hsubmitted := submitted_executeSubmitRetryable (x := x) s.resetTx i (x.trieHash t.tx)
  rw [← execute_submission htx] at hsubmitted
  have hother : ∀ id ≠ x.trieHash t.tx, (s.world.tickets id).timeout ≠ 0 →
      q'.entries.count id = (s.world.tickets id).timeoutWindowsLeft + 1 := by
    intro id hid hlive
    rw [Queue.entries_put hput, count_queued _ hid]
    exact hqueued id hlive
  have hone : q'.entries.count (x.trieHash t.tx) = 1 := by
    rw [Queue.entries_put hput, List.count_append, List.count_singleton_self,
      List.count_eq_zero_of_not_mem hnew]
  intro id hlive
  cases hsubmitted with
  | refused hstill =>
    rw [hstill.1] at hlive ⊢
    exact hother id (fun he => hlive (he ▸ hfresh)) hlive
  | created tk htickets _ _ hwindows | redeemed tk htickets _ _ hwindows _ =>
    rw [htickets] at hlive ⊢
    by_cases hid : id = x.trieHash t.tx
    · rw [hid, update_self, hwindows, hone]
    · rw [update_of_ne hid] at hlive ⊢
      exact hother id hid hlive

/-! ## The redeems of a run -/

theorem wrap64_countTries (n k : Nat) : wrap64 (countTries n k) = wrap64 (n + k) := by
  induction k with
  | zero => rfl
  | succ k ih =>
    rw [countTries_succ]
    unfold wrap64 at ih ⊢
    omega

/-- A redeem's sequence number is the number of tries before it. -/
theorem RedeemsAs.nonce_eq {c : CancelCtx} {i : RedeemCall} {w w' : World} {t : Ticket}
    {nonce donated : Nat} {r : Redeemed} (h : RedeemsAs c i id w t nonce donated r w') :
    nonce = wrap64 t.numTries := by
  rw [h.previous]
  unfold wrap64 u64Max
  omega

/-- The sequence numbers of the logs about a ticket. -/
def sequenceNumbers (id : B256) (logs : List Log) : List Nat :=
  logs.filterMap fun log => (parseRedeemScheduled log).bind fun e =>
    if e.ticketId = id then some e.nonce else none

/-- Every ticket's redeems have counted up from its tries before the run. -/
structure Numbered (c : CancelCtx) (start : RetryableState) (s : RunState) : Prop where
  tracked : Tracked c start s
  numbers : ∀ id, sequenceNumbers id (s.redeems.map Redeemed.log) =
    (List.range ((redeemedIds s.redeems).count id)).map fun j =>
      wrap64 ((start.world.tickets id).numTries + j)

section Numbered

variable {c : CancelCtx} {start : RetryableState} {st : RunState}

theorem Numbered.redeem (h : Numbered c start st) (i : RedeemCall) (id : B256) :
    Numbered c start (st.redeem c i id) := by
  refine ⟨h.tracked.redeem i id, ?_⟩
  rcases redeem_cases c st i id with hsame | ⟨t, nonce, donated, r, w', has, heq⟩
  · rw [hsame]
    exact h.numbers
  intro y
  have hparse := parse_redeemed has
  have happend : sequenceNumbers y ((st.redeems ++ [r]).map Redeemed.log) =
      sequenceNumbers y (st.redeems.map Redeemed.log) ++ if id = y then [nonce] else [] := by
    rw [sequenceNumbers, List.map_append, List.filterMap_append, List.map_singleton, sequenceNumbers]
    by_cases hy : id = y
    · simp [hparse, hy]
    · simp [hparse, hy]
  rw [heq]
  rw [happend, h.numbers y, redeemedIds_append has]
  by_cases hy : id = y
  · subst hy
    have hopen : IsOpen c.block st.state.world id := isOpen_of_some has.opened
    have htries : t.numTries = countTries (start.world.tickets id).numTries
        ((redeemedIds st.redeems).count id) := by
      rw [(openRetryable_some has.opened).1]
      exact h.tracked.tries id ((h.tracked.isOpen id).mp hopen).2
    rw [if_pos rfl, List.count_append, List.count_singleton_self, List.range_succ, List.map_append,
      has.nonce_eq, htries, wrap64_countTries]
    rfl
  · rw [if_neg hy, List.append_nil, count_queued _ (Ne.symm hy)]

theorem numbered_runEnd (c : CancelCtx) (calls : RetryCalls) (h : WindowsQueued start) :
    Numbered c start (runEnd c start calls) := by
  refine run_invariant (Numbered c start) (fun _ i id hs => hs.redeem i id)
    (fun s id caller hs => ⟨hs.tracked.cancel id caller, ?_⟩)
    (fun s id hs => ⟨hs.tracked.keepalive id, ?_⟩) calls ⟨tracked_start c h, fun _ => rfl⟩
  · rw [redeems_cancel]
    exact hs.numbers
  · rw [redeems_keepalive]
    exact hs.numbers

end Numbered

/-! ## The retries of a run -/

/-- The retries a successful transaction schedules. -/
def runRetries (chainId : Nat) (c : CancelCtx) (start : RetryableState) (calls : RetryCalls) :
    List ArbRetryTx :=
  (runScan chainId c start calls).2.filterMap Prod.snd

theorem nonces_scannedRetries {chainId : Nat} {ctx : BlockCtx} {w : World} {logs : List Log}
    (hopen : ∀ id ∈ logs.filterMap logTicket, IsOpen ctx w id) (id : B256) :
    ((scannedRetries chainId ctx w logs).filter fun r => r.ticketId = id).map ArbRetryTx.nonce =
      sequenceNumbers id logs := by
  rw [scannedRetries_eq, List.filter_filterMap, List.map_filterMap, sequenceNumbers]
  refine List.filterMap_congr fun log hlog => ?_
  rw [scanLog_snd_eq]
  cases hparse : parseRedeemScheduled log with
  | none => rfl
  | some e =>
    have hticket : logTicket log = some e.ticketId := by rw [logTicket, hparse, Option.map_some]
    obtain ⟨t, ht⟩ := Option.isSome_iff_exists.mp
      (hopen e.ticketId (List.mem_filterMap.mpr ⟨log, hlog, hticket⟩))
    rw [Option.bind_some, ht, Option.map_some, Option.bind_some]
    by_cases hid : e.ticketId = id
    · simp [Option.filter, makeTx, hid]
    · simp [Option.filter, makeTx, hid]

variable {chainId : Nat} {c : CancelCtx} {start : RetryableState} {calls : RetryCalls}

theorem nonces_runRetries (chainId : Nat) (c : CancelCtx) (calls : RetryCalls) (h : WindowsQueued start)
    (id : B256) :
    ((runRetries chainId c start calls).filter fun r => r.ticketId = id).map ArbRetryTx.nonce =
      (List.range ((redeemedIds (runEnd c start calls).redeems).count id)).map fun j =>
        wrap64 ((start.world.tickets id).numTries + j) := by
  have hrun := numbered_runEnd c calls h
  rw [← hrun.numbers id]
  exact nonces_scannedRetries hrun.tracked.redeemed id

theorem gas_runRetries : ∀ r ∈ runRetries chainId c start calls, r.gas ≤ u64Max := by
  intro tx htx
  change tx ∈ scannedRetries _ _ _ _ at htx
  rw [scannedRetries_eq] at htx
  obtain ⟨log, hlog, hscan⟩ := List.mem_filterMap.mp htx
  obtain ⟨r, hr, rfl⟩ := List.mem_map.mp hlog
  have hby := redeems_run c start calls r hr
  have hgas := (gas_of_redeemed hby hscan).2
  obtain ⟨i, _, _, _, _, _, _, has⟩ := hby
  exact (hgas.trans has.gasUsed_le).trans i.gas_le

/-! ## Lives -/

/-- The lives of a ticket, with the retries scheduled for it: it is submitted; the operations on
    retryables other than a redeem are called, among them the reaper's and those on other
    tickets; and successful transactions make redeems. A state holds what was committed. -/
inductive TicketRun (chainId : Nat) (x : Externals) (id : B256) :
    RetryableState → List ArbRetryTx → Prop
  | submitted (s : Executor) (t : ExecutableTx x) (i : ArbSubmitRetryableTx) (q : Queue)
      (htx : t.tx.transaction = .submitRetryable i) (hid : x.trieHash t.tx = id)
      (hgas : i.gas ≤ u64Max) (hhooks : s.hooks.isSome) (hfresh : (s.world.tickets id).timeout = 0) :
      TicketRun chainId x id ⟨(executeTransactionWithoutCommit x s t).1.world, q⟩
        (scheduledTxs chainId x s t)
  | operation (e : Env) (sys sys' : Sys) (call : Call) (retries : List ArbRetryTx)
      (hrun : TicketRun chainId x id sys.state retries) (hknown : sys.lives id ≠ none)
      (hstep : step e sys call = some sys') : TicketRun chainId x id sys'.state retries
  | transaction (block : BlockCtx) (retryableId : B256) (calls : RetryCalls)
      (start final : RetryableState) (retries : List ArbRetryTx)
      (hrun : TicketRun chainId x id start retries) (hqueued : WindowsQueued start)
      (hcommit : ∀ l, slotValue final l =
        committedSlots chainId ⟨x.keccak256, block, retryableId⟩ start calls l)
      (hfits : (final.world.tickets id).timeout ≤ u64Max) :
      TicketRun chainId x id final (retries ++
        (runRetries chainId ⟨x.keccak256, block, retryableId⟩ start calls).filter
          fun r => r.ticketId = id)

/-- The retries of a life are counted, by their nonces and, as long as the ticket lives, by its
    number of tries. -/
structure Counted (id : B256) (s : RetryableState) (retries : List ArbRetryTx) : Prop where
  nonces : retries.map ArbRetryTx.nonce = (List.range retries.length).map wrap64
  tries : (s.world.tickets id).timeout ≠ 0 →
    wrap64 (s.world.tickets id).numTries = wrap64 retries.length
  gas : ∀ r ∈ retries, r.gas ≤ u64Max

/-- A call other than a redeem neither counts a try nor brings a ticket back. -/
theorem tries_step {e : Env} {s : Sys} {c : Call} {tickets : B256 → Ticket} {entries : List B256}
    {lives : B256 → Option Life} (h : StepCase e s c tickets entries lives)
    (hknown : s.lives id ≠ none) (hlive : (tickets id).timeout ≠ 0) :
    (s.tickets id).timeout ≠ 0 ∧ (tickets id).numTries = (s.tickets id).numTries := by
  have hother : ∀ {id' : B256} {t : Ticket}, id ≠ id' →
      update s.tickets id' t id = s.tickets id := fun hne => update_of_ne hne _ _
  cases h with
  | idle => exact ⟨hlive, rfl⟩
  | created id' t _ _ _ _ _ hfresh =>
    have hne : id ≠ id' := fun he => hknown (he ▸ hfresh)
    rw [hother hne] at hlive ⊢
    exact ⟨hlive, rfl⟩
  | extended id' _ t _ hopen =>
    by_cases hid : id = id'
    · subst hid
      obtain ⟨ht, hopened⟩ := openRetryable_some hopen
      rw [update_self]
      exact ⟨hopened, by rw [ht]⟩
    · rw [hother hid] at hlive ⊢
      exact ⟨hlive, rfl⟩
  | cleared id' | reaped id' =>
    by_cases hid : id = id'
    · subst hid
      rw [update_self] at hlive
      exact absurd rfl hlive
    · rw [hother hid] at hlive ⊢
      exact ⟨hlive, rfl⟩
  | popped => exact ⟨hlive, rfl⟩
  | prolonged id' _ _ _ hbefore =>
    by_cases hid : id = id'
    · subst hid
      rw [update_self]
      exact ⟨hbefore, rfl⟩
    · rw [hother hid] at hlive ⊢
      exact ⟨hlive, rfl⟩

/-- A ticket that is there after a successful transaction was there before and has been counted
    up once for each of its redeems. -/
theorem tries_committed (hqueued : WindowsQueued start) {final : RetryableState}
    (hcommit : ∀ l, slotValue final l = committedSlots chainId c start calls l)
    (hfits : (final.world.tickets id).timeout ≤ u64Max)
    (hlive : (final.world.tickets id).timeout ≠ 0) :
    (start.world.tickets id).timeout ≠ 0 ∧ wrap64 (final.world.tickets id).numTries =
      wrap64 ((start.world.tickets id).numTries +
        (redeemedIds (runEnd c start calls).redeems).count id) := by
  have hrun := tracked_runEnd c calls hqueued
  have hword : slotValue final (.ticket id .timeout) ≠ 0 := by
    intro hzero
    have hnat := congrArg BitVec.toNat hzero
    simp only [slotValue, TicketField.word, BitVec.toNat_ofNat] at hnat
    have hu64 : u64Max < 2 ^ 256 := by decide
    rw [Nat.mod_eq_of_lt (hfits.trans_lt hu64)] at hnat
    exact hlive hnat
  -- A redemption would have cleared the ticket, timeout and all.
  have hcommitted : ∀ field, committedSlots chainId c start calls (.ticket id field) =
      commitSlots (slotValue start) (slotValue (runEnd c start calls).state)
        (slotValue ⟨(runScan chainId c start calls).1, start.queue⟩) (.ticket id field) := by
    intro field
    rw [hcommit] at hword
    unfold committedSlots at hword ⊢
    split
    · next hzero =>
      rw [if_pos hzero] at hword
      unfold deleteSlots at hword ⊢
      dsimp only at hword ⊢
      split
      · next hdeleted =>
        rw [if_pos hdeleted] at hword
        exact absurd rfl hword
      · rfl
    · rfl
  have hscan : slotValue ⟨(runScan chainId c start calls).1, start.queue⟩ (.ticket id .timeout) =
      slotValue start (.ticket id .timeout) := slotValue_scan fun id' h => by cases h
  have hkept : id ∉ (runEnd c start calls).cancelled := by
    intro hmem
    rw [hcommit, hcommitted, commitSlots_eq (.inl hscan), slotValue, hrun.cleared id hmem] at hword
    exact hword rfl
  have htimeout : (start.world.tickets id).timeout ≠ 0 := by
    intro hzero
    rw [hcommit, hcommitted, commitSlots_eq (.inl hscan), slotValue, TicketField.word,
      hrun.timeout id hkept, hzero] at hword
    exact hword rfl
  refine ⟨htimeout, ?_⟩
  have htries := hcommit (.ticket id .numTries)
  rw [hcommitted, commitSlots_eq (.inr (slotValue_scan_numTries hrun id hkept))] at htries
  simp only [slotValue, TicketField.word] at htries
  rw [hrun.tries id hkept] at htries
  have hnat := congrArg BitVec.toNat htries
  rw [BitVec.toNat_ofNat, BitVec.toNat_ofNat] at hnat
  rw [← wrap64_countTries]
  unfold wrap64
  omega

theorem counted_ticketRun {s : RetryableState} (h : TicketRun chainId x id s retries) :
    Counted id s retries := by
  induction h with
  | submitted s t i q htx hid hgas hhooks hfresh =>
    subst hid
    rcases scheduled_submission chainId htx hhooks with ⟨hnone, hkept | htries⟩ |
      ⟨r, hone, -, hnonce, hrgas, htries, -⟩
    · rw [hnone]
      refine ⟨rfl, fun hlive => ?_, fun r hr => absurd hr List.not_mem_nil⟩
      rw [hkept] at hlive
      exact absurd hfresh hlive
    · rw [hnone]
      exact ⟨rfl, fun _ => congrArg wrap64 htries, fun r hr => absurd hr List.not_mem_nil⟩
    · rw [hone]
      refine ⟨?_, fun _ => congrArg wrap64 htries, fun r' hr' => ?_⟩
      · rw [List.map_singleton, hnonce]
        rfl
      · rw [List.mem_singleton.mp hr', hrgas]
        exact hgas
  | operation e sys sys' call retries _ hknown hstep ih =>
    refine ⟨ih.nonces, fun hlive => ?_, ih.gas⟩
    obtain ⟨hbefore, htries⟩ := tries_step (step_cases hstep).1 hknown hlive
    exact (congrArg wrap64 htries).trans (ih.tries hbefore)
  | transaction block retryableId calls start final retries _ hqueued hcommit hfits ih =>
    have hnonces := nonces_runRetries chainId ⟨x.keccak256, block, retryableId⟩ calls hqueued id
    generalize hk : (redeemedIds (runEnd ⟨x.keccak256, block, retryableId⟩ start calls).redeems).count
      id = k at hnonces
    have hlen := congrArg List.length hnonces
    rw [List.length_map, List.length_map, List.length_range] at hlen
    refine ⟨?_, fun hlive => ?_, fun r hr => ?_⟩
    · rw [List.map_append, List.length_append, hlen, ih.nonces, hnonces, List.range_add,
        List.map_append, List.map_map]
      refine congrArg _ (List.map_congr_left fun j hj => ?_)
      -- A ticket that was redeemed was there at the start.
      have hmem : id ∈ redeemedIds
          (runEnd ⟨x.keccak256, block, retryableId⟩ start calls).redeems := by
        refine List.count_pos_iff.mp ?_
        rw [hk]
        exact Nat.zero_lt_of_lt (List.mem_range.mp hj)
      have hopen := (tracked_runEnd ⟨x.keccak256, block, retryableId⟩ calls hqueued).redeemed id hmem
      have htries := ih.tries ((isOpen_iff rfl).mp hopen).1
      rw [comp_apply]
      unfold wrap64 at htries ⊢
      omega
    · obtain ⟨hbefore, htries⟩ := tries_committed hqueued hcommit hfits hlive
      have hstart := ih.tries hbefore
      rw [htries, hk, List.length_append, hlen]
      unfold wrap64 at hstart ⊢
      omega
    · rcases List.mem_append.mp hr with hr | hr
      · exact ih.gas r hr
      · exact gas_runRetries r (List.mem_filter.mp hr).1

theorem nodup_nonces {s : RetryableState} (h : TicketRun chainId x id s retries)
    (hcounter : retries.length ≤ 2 ^ 64) : (retries.map ArbRetryTx.nonce).Nodup := by
  rw [(counted_ticketRun h).nonces]
  refine List.Nodup.map_on (fun j hj k hk heq => ?_) List.nodup_range
  have hj := List.mem_range.mp hj
  have hk := List.mem_range.mp hk
  unfold wrap64 at heq
  omega

theorem fits_of_ticketRun {s : RetryableState} (h : TicketRun chainId x id s retries) :
    ∀ r ∈ retries, r.nonce < 2 ^ 64 ∧ r.gas < 2 ^ 64 := by
  intro r hr
  have hcounted := counted_ticketRun h
  refine ⟨?_, Nat.lt_of_le_of_lt (hcounted.gas r hr) (by decide)⟩
  have hmem : r.nonce ∈ (List.range retries.length).map wrap64 :=
    hcounted.nonces ▸ List.mem_map_of_mem hr
  obtain ⟨j, -, hj⟩ := List.mem_map.mp hmem
  exact hj ▸ wrap64_lt j

end Arbreth.Redeem
