/-
  What the stages of a transaction may change.

  Every stage outside the EVM moves balances of accounts it names and, at the end of a
  redemption, clears the redeemed ticket. `Frame A T` says so for a set of accounts and a set of
  tickets; nonces are never touched but by the EVM and by the reverted transaction hook.
-/
import Arbreth.Exec.Commit
import Arbreth.Exec.RetryRefunds

namespace Arbreth.Exec

open Arbreth.Lib Arbreth.Tx

variable {A : Address → Prop} {T : B256 → Prop} {x : Externals} {s : Executor} {p : Pending}

/-! ## Committing -/

section Shell

variable (x s p)

variable (gasUsed : Nat)

theorem shell_redirectTip : (redirectTip s p gasUsed).shell = s.shell :=
  shell_ite rfl rfl

theorem shell_payStylusDataFee : (payStylusDataFee s p).shell = s.shell := shell_ite rfl rfl

theorem shell_burnWithdrawn (value : U256) : (burnWithdrawn s value).shell = s.shell :=
  shell_ite rfl rfl

theorem shell_chargeExtraGas : (chargeExtraGas s p gasUsed).shell = s.shell :=
  shell_ite rfl rfl

theorem shell_settleRetry (c : RetryContext) (r : TxResult) :
    (settleRetry x s p c r).shell = s.shell := by
  have hrefunds : (endTxRetryable burnFrom Executor.doTransfer (retryEndParams s p c r)
      s).shell = s.shell := by
    refine endTxRetryable_inv (P := fun s' : Executor => s'.shell = s.shell) ?_ ?_ rfl
    · intro s' m h
      exact h
    · intro s' src dst m _ _ h
      exact (shell_doTransfer s' src dst m).trans h
  unfold settleRetry
  split
  · rfl
  · exact shell_ite ((shell_deleteRetryable x _ _).trans hrefunds)
      ((shell_doTransfer _ _ _ _).trans hrefunds)

theorem shell_settleNormal : (settleNormal s p gasUsed).shell = s.shell := by
  unfold settleNormal
  split
  · rfl
  · exact (shell_ite rfl rfl : (refundMultiGas _ p _ gasUsed).shell = _).trans (shell_ite rfl rfl)

theorem shell_internalOps (ops : List InternalOp) :
    (ops.foldl (applyInternalOp x) s).shell = s.shell := by
  induction ops generalizing s with
  | nil => rfl
  | cons op ops ih =>
    rw [List.foldl_cons, ih]
    cases op with
    | transfer src dst amount => exact shell_doTransfer s src dst amount
    | reap id => exact shell_deleteRetryable x s id
    | prolong id => rfl

end Shell

/-- The run's changes leave the sweep, the base fee and the coinbase. -/
theorem commitRun_kept (s : Executor) (r : TxResult) :
    (commitRun s r).world = r.state.getD s.world ∧
      (commitRun s r).cancelEscrowSweep = s.cancelEscrowSweep ∧
      (commitRun s r).ctx.basefee = s.ctx.basefee ∧
      (commitRun s r).ctx.coinbase = s.ctx.coinbase := by
  unfold commitRun refreshStateParams
  cases r.dirtyParams with
  | none => exact ⟨rfl, rfl, rfl, rfl⟩
  | some d => exact ⟨rfl, rfl, rfl, rfl⟩

variable {w : World} (gasUsed : Nat) (r : TxResult) (i : ArbSubmitRetryableTx) (ticketId : B256)
  (feeRefundAddr beneficiary : Address)

theorem frame_redirectTip (hcoinbase : A s.ctx.coinbase) (hnetwork : A s.ctx.networkFeeAccount) :
    Frame A T s.world (redirectTip s p gasUsed).world := by
  unfold redirectTip
  dsimp only
  split
  · exact frame_transferBalance _ hcoinbase hnetwork
  · exact .refl s.world

theorem frame_payStylusDataFee (hsender : A p.sender) (hnetwork : A s.ctx.networkFeeAccount) :
    Frame A T s.world (payStylusDataFee s p).world := by
  unfold payStylusDataFee
  split
  · exact (frame_burnBalance _ hsender).trans (frame_mintBalance _ hnetwork)
  · exact .refl s.world

theorem frame_sweepCancelled (hsweep : ∀ e b, s.cancelEscrowSweep = some (e, b) → A e ∧ A b) :
    Frame A T s.world (sweepCancelled s).world := by
  unfold sweepCancelled
  cases h : s.cancelEscrowSweep with
  | none => exact .refl s.world
  | some sweep =>
    obtain ⟨e, b⟩ := sweep
    exact frame_doTransfer (s := { s with cancelEscrowSweep := none }) _ (hsweep e b h).1
      (hsweep e b h).2

theorem frame_burnWithdrawn (value : U256) (harbsys : A arbsysAddress) :
    Frame A T s.world (burnWithdrawn s value).world := by
  unfold burnWithdrawn
  split
  · exact frame_burnBalance _ harbsys
  · exact .refl s.world

theorem frame_chargeExtraGas (hsender : A p.sender) :
    Frame A T s.world (chargeExtraGas s p gasUsed).world := by
  unfold chargeExtraGas
  dsimp only
  split
  · exact frame_burnBalance _ hsender
  · exact .refl s.world

theorem frame_settleRetry {c : RetryContext} {r : TxResult} (hsender : A p.sender)
    (hrefundTo : A c.refundTo) (hnetwork : A s.ctx.networkFeeAccount)
    (hinfra : A s.ctx.infraFeeAccount) (hid : T c.ticketId)
    (hescrow : A (retryableEscrowAddress x.keccak256 c.ticketId))
    (hbeneficiary : A (s.world.tickets c.ticketId).beneficiary) :
    Frame A T s.world (settleRetry x s p c r).world := by
  unfold settleRetry
  cases s.hooks with
  | none => exact .refl s.world
  | some h =>
    dsimp only
    -- The refunds move balances only: the ticket to delete still names its beneficiary.
    have hrefunds : Frame A (fun _ => False) s.world
        (endTxRetryable burnFrom Executor.doTransfer (retryEndParams s p c r) s).world := by
      refine endTxRetryable_inv (P := fun s' : Executor => Frame A _ s.world s'.world) ?_ ?_
        (.refl s.world)
      · intro s' m h
        exact h.trans (frame_applyBurn m hsender)
      · intro s' src dst m hsrc hdst h
        have hA : A src ∧ A dst :=
          ⟨by rcases hsrc with rfl | rfl; exacts [hnetwork, hinfra],
            by rcases hdst with rfl | rfl; exacts [hrefundTo, hsender]⟩
        exact h.trans (frame_doTransfer m hA.1 hA.2)
    have hwide : Frame A T s.world
        (endTxRetryable burnFrom Executor.doTransfer (retryEndParams s p c r) s).world :=
      hrefunds.mono (fun _ h => h) (fun _ h => h.elim)
    split
    · refine hwide.trans (frame_deleteRetryable hid hescrow ?_)
      rw [hrefunds.ticket c.ticketId id]
      exact hbeneficiary
    · exact hwide.trans (frame_doTransfer _ hsender hescrow)

/-- The three fee accounts of a normal transaction. -/
def PaysTo (A : Address → Prop) (h : Hooks) : Prop :=
  A h.networkFeeAccount ∧ A h.infraFeeAccount ∧
    A (if h.arbosVersion < 2 then h.coinbase else l1PricerFundsPoolAddress)

theorem frame_settleNormal (hsender : A p.sender) (hfees : ∀ h, s.hooks = some h → PaysTo A h) :
    Frame A T s.world (settleNormal s p gasUsed).world := by
  unfold settleNormal
  cases hh : s.hooks with
  | none => exact .refl s.world
  | some h =>
    obtain ⟨hnetwork, hinfra, hposter⟩ := hfees h hh
    have hdist : Frame A T s.world
        (applyFeeDistribution s.world (computeEndTxFees h gasUsed s.ctx.basefee)) :=
      ((frame_mintBalance _ hnetwork).trans (frame_mintBalance _ hinfra)).trans
        (frame_mintBalance _ hposter)
    have hrefund : ∀ s' : Executor,
        Frame A T s'.world (refundMultiGas s' p h.networkFeeAccount gasUsed).world := by
      intro s'
      unfold refundMultiGas
      dsimp only
      split
      · exact frame_transferBalance _ hnetwork hsender
      · exact .refl s'.world
    refine .trans ?_ ((hrefund _).trans (.of_eq rfl rfl rfl))
    split <;> exact hdist

theorem frame_finalise (s : Executor) : Frame A T s.world (finalise s).world := by
  -- A removed account had no nonce and no balance.
  have hempty : ∀ a, isEmptyAccount (s.world.accounts a) = true →
      s.world.getNonce a = 0 ∧ s.world.getBalance a = 0 := by
    intro a ha
    unfold isEmptyAccount at ha
    cases hacct : s.world.accounts a with
    | none => exact ⟨by simp only [World.getNonce, hacct], by simp only [World.getBalance, hacct]⟩
    | some acct =>
      rw [hacct] at ha
      simp only [Bool.and_eq_true, decide_eq_true_eq] at ha
      simp only [World.getNonce, World.getBalance, hacct]
      exact ⟨ha.1.1, ha.1.2⟩
  have hread : ∀ a, (finalise s).world.getNonce a = s.world.getNonce a ∧
      (finalise s).world.getBalance a = s.world.getBalance a := by
    intro a
    by_cases ha : a ∈ s.touchedAccounts.filter fun a =>
        a ∉ s.zombieAccounts && isEmptyAccount (s.world.accounts a)
    · have h0 := hempty a (Bool.and_eq_true_iff.mp (List.mem_filter.mp ha).2).2
      rw [h0.1, h0.2]
      simp only [finalise, World.getNonce, World.getBalance, if_pos ha, and_self]
    · simp only [finalise, World.getNonce, World.getBalance, if_neg ha, and_self]
  exact ⟨fun a => (hread a).1, fun a _ => (hread a).2, fun _ _ => rfl, rfl⟩

/-- The frame without restriction: what remains is that nonces and the filter are kept. -/
abbrev Quiet (w w' : World) : Prop := Frame (fun _ => True) (fun _ => True) w w'

/-- The accounts and the ticket the end of a transaction may touch. -/
theorem frame_settle (hsender : A p.sender)
    (hretry : ∀ c, p.retryContext = some c → T c.ticketId ∧ A c.refundTo ∧
      A s.ctx.networkFeeAccount ∧ A s.ctx.infraFeeAccount ∧
      A (retryableEscrowAddress x.keccak256 c.ticketId) ∧ A (s.world.tickets c.ticketId).beneficiary)
    (hnormal : ∀ h, s.hooks = some h → PaysTo A h) : Frame A T s.world (settle x s p r).world := by
  have hctx := ctx_of_shell (shell_chargeExtraGas s p r.gasUsed)
  have hhooks := hooks_of_shell (shell_chargeExtraGas s p r.gasUsed)
  unfold settle
  refine .trans (frame_chargeExtraGas r.gasUsed hsender) ?_
  cases hc : p.retryContext with
  | some c =>
    obtain ⟨hid, hrefundTo, hnetwork, hinfra, hescrow, hbeneficiary⟩ := hretry c hc
    have hticket := (frame_chargeExtraGas (A := fun _ => True) (T := fun _ => False) (s := s) (p := p)
      r.gasUsed trivial).ticket c.ticketId id
    exact frame_settleRetry hsender hrefundTo (hctx ▸ hnetwork) (hctx ▸ hinfra) hid hescrow
      (hticket ▸ hbeneficiary)
  | none =>
    cases isNormalType p.arbTxType with
    | true => exact frame_settleNormal r.gasUsed hsender fun h hh => hnormal h (hhooks ▸ hh)
    | false => exact .refl _

theorem quiet_settle : Quiet s.world (settle x s p r).world :=
  frame_settle r trivial (fun _ _ => ⟨trivial, trivial, trivial, trivial, trivial, trivial⟩)
    fun _ _ => ⟨trivial, trivial, trivial⟩

theorem quiet_commitTransaction : Quiet (r.state.getD s.world) (commitTransaction x s r).world := by
  have hrun := (commitRun_kept s r).1
  have hsweep : ∀ s' : Executor, Quiet s'.world (sweepCancelled s').world :=
    fun s' => frame_sweepCancelled fun _ _ _ => ⟨trivial, trivial⟩
  have hburn : ∀ s' : Executor, ∀ v, Quiet s'.world (burnWithdrawn s' v).world :=
    fun s' v => frame_burnWithdrawn v trivial
  unfold commitTransaction
  rw [← hrun]
  cases s.pending with
  | none => exact ((hsweep _).trans (hburn _ _)).trans (frame_finalise _)
  | some p =>
    have htip : Quiet (commitRun s r).world (redirectTip (commitRun s r) p r.gasUsed).world :=
      frame_redirectTip r.gasUsed trivial trivial
    have hstylus := htip.trans (frame_payStylusDataFee (p := p) trivial trivial)
    exact (((hstylus.trans (hsweep _)).trans (hburn _ _)).trans (quiet_settle r)).trans
      (frame_finalise _)

/-! ## Transactions that stay out of the EVM -/

theorem quiet_applyInternalOp (s : Executor) (op : InternalOp) :
    Quiet s.world (applyInternalOp x s op).world := by
  cases op with
  | transfer src dst amount => exact frame_doTransfer amount trivial trivial
  | reap id => exact frame_deleteRetryable trivial trivial trivial
  | prolong id => exact frame_setTicket _ trivial

theorem quiet_internalOps (ops : List InternalOp) (s : Executor) :
    Quiet s.world (ops.foldl (applyInternalOp x) s).world := by
  induction ops generalizing s with
  | nil => exact .refl s.world
  | cons op ops ih => exact (quiet_applyInternalOp s op).trans (ih (applyInternalOp x s op))

/-- The outcome of a transaction that never entered the EVM: no nonce has moved and the result
    brings no state of its own. -/
structure Ended (w : World) (o : Outcome) : Prop where
  quiet : Quiet w o.1.world
  state : ∀ r, o.2 = .ok r → r.state = none

/-- The pending record of an Ok result asks for no data fee. -/
def AsksNoFee (o : Outcome) : Prop := ∀ p r, o.1.pending = some p → o.2 = .ok r → p.stylusDataFee = 0

theorem AsksNoFee.of_ended {o : Outcome} {s : Executor} {sender : Address} {gasLimit evmGasUsed : Nat}
    {ty : ArbTxType} (h : o.1.pending = some (endedPending s sender gasLimit ty evmGasUsed)) :
    AsksNoFee o := by
  intro p r hp _
  cases h.symm.trans hp
  rfl

/-- Such an outcome also leaves the sweep slot as it was, which only a run writes. -/
structure EndedFrom (s : Executor) (o : Outcome) : Prop extends Ended s.world o where
  sweep : o.1.cancelEscrowSweep = s.cancelEscrowSweep
  noFee : AsksNoFee o

theorem ended_executeInternal (sender : Address) (data : Bytes) :
    EndedFrom s (executeInternal x s sender data) := by
  unfold executeInternal
  split
  · exact ⟨⟨.refl s.world, fun r hr => (nomatch hr)⟩, rfl, fun p r _ hr => (nomatch hr)⟩
  · split
    · exact ⟨⟨.refl s.world, fun r hr => by cases hr; rfl⟩, rfl, .of_ended rfl⟩
    · have hops := quiet_internalOps (x := x) (x.internalTx s.ctx s.hooks s.world data).ops s
      have hsweep := sweep_of_shell
        (shell_internalOps x s (x.internalTx s.ctx s.hooks s.world data).ops)
      dsimp only
      split
      · exact ⟨⟨hops.trans (.of_eq rfl rfl rfl), fun r hr => (nomatch hr)⟩, hsweep, .of_ended rfl⟩
      · exact ⟨⟨hops.trans (.of_eq rfl rfl rfl), fun r hr => by cases hr; rfl⟩, hsweep,
          .of_ended rfl⟩

theorem ended_executeDeposit (t : ExecutableTx x) (d : ArbDepositTx) :
    EndedFrom s (executeDeposit x s t d) := by
  refine ⟨⟨?_, fun r hr => ?_⟩, rfl, .of_ended rfl⟩
  · exact (frame_mintBalance _ trivial).trans (frame_transferBalance _ trivial trivial)
  · unfold executeDeposit at hr
    dsimp only at hr
    split at hr <;> cases hr <;> rfl

theorem frame_applyBalanceOp {w w' : World} {src dst : Option Address} {amount : U256}
    (h : applyBalanceOp w src dst amount = .ok w') : Frame (fun _ => True) T w w' := by
  unfold applyBalanceOp at h
  split at h
  · cases h
    exact .refl _
  · split at h
    · split at h
      · cases h
      · cases h
        exact (frame_applyBurn _ trivial).trans (frame_applyMint _ trivial)
    · cases h
      exact frame_applyBurn _ trivial
    · cases h
      exact frame_applyMint _ trivial
    · cases h
      exact .refl _

/-- Between two states of the executor only balances have moved. -/
structure OnlyPays (s s' : Executor) : Prop where
  frame : Frame (fun _ => True) (fun _ => False) s.world s'.world
  shell : s'.shell = s.shell

namespace OnlyPays

theorem refl (s : Executor) : OnlyPays s s := ⟨.refl _, rfl⟩

theorem trans {s₁ s₂ : Executor} (h : OnlyPays s s₁) (h' : OnlyPays s₁ s₂) : OnlyPays s s₂ :=
  ⟨h.frame.trans h'.frame, h'.shell.trans h.shell⟩

theorem pay (s : Executor) (src dst : Address) (amount : U256) : OnlyPays s (s.pay src dst amount) :=
  ⟨frame_pay amount trivial trivial, rfl⟩

theorem ite {c : Prop} [Decidable c] {s₁ s₂ : Executor} (h₁ : OnlyPays s s₁) (h₂ : OnlyPays s s₂) :
    OnlyPays s (if c then s₁ else s₂) := by
  split
  · exact h₁
  · exact h₂

theorem payGas (sender feeRefundAddr : Address) (fees : SubmitRetryableFees) :
    OnlyPays s (payGas s sender feeRefundAddr fees) := by
  have hinfra : OnlyPays s (if s.ctx.infraFeeAccount ≠ 0 then
      s.pay sender s.ctx.infraFeeAccount fees.infraCost else s) := .ite (.pay ..) (.refl _)
  exact (hinfra.trans (.ite (.pay ..) (.refl _))).trans (.pay ..)

variable {s' : Executor} (h : OnlyPays s s')

include h

theorem touch (accounts : List Address) : OnlyPays s (s'.touch accounts) := ⟨h.frame, h.shell⟩

theorem setWorld {w : World} (hw : Frame (fun _ => True) (fun _ => False) s'.world w) :
    OnlyPays s { s' with world := w } := ⟨h.frame.trans hw, h.shell⟩

theorem quiet : Quiet s.world s'.world := h.frame.mono (fun _ => id) fun _ => False.elim

end OnlyPays

/-- How a submission goes: it is refused, or the ticket is created once its value is in escrow,
    the gas is paid, and the redemption may be scheduled. -/
inductive SubmitPath (x : Externals) (s : Executor) (i : ArbSubmitRetryableTx) (ticketId : B256) :
    Outcome → Prop
  | refused (s₁ : Executor) (hpaid : OnlyPays s s₁) : SubmitPath x s i ticketId (submitRefused s₁ i)
  | created (s₁ s₂ s₃ : Executor) (timeout : Nat) (beneficiary : Address) (success : Bool)
      (gasUsed : Nat) (output : Bytes) (hpaid : OnlyPays s s₁)
      (hgas : OnlyPays (createTicket x s₁ i ticketId timeout beneficiary) s₂)
      (hredeem : s₃ = s₂ ∨ s₃ = scheduleRedeem s₂ ticketId i.gas) :
      SubmitPath x s i ticketId
        ({ s₃ with pending := some (endedPending s₃ i.sender i.gas .submitRetryable gasUsed) },
          .ok (syntheticResult success gasUsed output))

theorem submitPath_paySubmission {s₀ : Executor} (fees : SubmitRetryableFees) (isFiltered : Bool)
    (h : OnlyPays s₀ s) : SubmitPath x s₀ i ticketId
      (paySubmission x s i ticketId feeRefundAddr beneficiary fees isFiltered) := by
  have hfee : OnlyPays s₀ (if fees.submissionFee ≠ 0 then
      s.pay i.sender s.ctx.networkFeeAccount fees.submissionFee else s) :=
    .ite (h.trans (.pay ..)) h
  have hpaid := hfee.trans (.pay _ i.sender feeRefundAddr fees.submissionFeeRefund)
  unfold paySubmission
  dsimp only
  split
  · exact .refused _ ((hpaid.touch _).trans ((OnlyPays.pay ..).trans (.pay ..)))
  · next w' hw' =>
    have hmoved := hpaid.setWorld (frame_applyBalanceOp hw')
    unfold createSubmitted
    dsimp only
    split
    · split
      · exact .created _ _ _ _ _ _ _ _ hmoved (.payGas ..) (.inl rfl)
      · exact .created _ _ _ _ _ _ _ _ hmoved (.payGas ..) (.inr rfl)
    · exact .created _ _ _ _ _ _ _ _ hmoved (.ite (.pay ..) (.refl _)) (.inl rfl)

theorem executeSubmitRetryable_path :
    SubmitPath x s i ticketId (executeSubmitRetryable x s ticketId i) := by
  have hmint : OnlyPays s ({ s with world := mintBalance s.world i.sender i.depositValue }.touch
      [i.sender]) := ⟨frame_mintBalance _ trivial, rfl⟩
  exact iteInduction (fun _ => .refused _ hmint) fun _ =>
    submitPath_paySubmission _ _ _ _ _ _ hmint

theorem quiet_createTicket (timeout : Nat) (beneficiary : Address) :
    Quiet s.world (createTicket x s i ticketId timeout beneficiary).world := by
  have hescrow : Quiet s.world (if i.retryValue = 0 then
      s.world.materialiseEmpty (retryableEscrowAddress x.keccak256 ticketId) else s.world) := by
    split
    · exact frame_materialiseEmpty _ _
    · exact .refl s.world
  exact hescrow.trans (frame_setTicket _ trivial)

theorem scheduleRedeem_moves (gas : Nat) : Quiet s.world (scheduleRedeem s ticketId gas).world ∧
    (scheduleRedeem s ticketId gas).cancelEscrowSweep = s.cancelEscrowSweep := by
  unfold scheduleRedeem
  split
  · exact ⟨frame_setTicket _ trivial, rfl⟩
  · exact ⟨.refl s.world, rfl⟩

theorem ended_executeSubmitRetryable : EndedFrom s (executeSubmitRetryable x s ticketId i) := by
  have hpath := executeSubmitRetryable_path (x := x) (s := s) i ticketId
  generalize executeSubmitRetryable x s ticketId i = o at hpath ⊢
  cases hpath with
  | refused s₁ hpaid =>
    exact ⟨⟨hpaid.quiet, fun r hr => by cases hr; rfl⟩, sweep_of_shell hpaid.shell, .of_ended rfl⟩
  | created s₁ s₂ s₃ timeout beneficiary success gasUsed output hpaid hgas hredeem =>
    have hquiet := (hpaid.quiet.trans (quiet_createTicket i ticketId timeout beneficiary)).trans
      hgas.quiet
    have hsweep := (sweep_of_shell hgas.shell).trans (sweep_of_shell hpaid.shell)
    rcases hredeem with rfl | rfl
    · exact ⟨⟨hquiet, fun r hr => by cases hr; rfl⟩, hsweep, .of_ended rfl⟩
    · obtain ⟨hmoves, hkept⟩ := scheduleRedeem_moves (s := s₂) ticketId i.gas
      exact ⟨⟨hquiet.trans hmoves, fun r hr => by cases hr; rfl⟩, hkept.trans hsweep, .of_ended rfl⟩

end Arbreth.Exec
