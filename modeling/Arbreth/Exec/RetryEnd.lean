/-
  The end of a redemption that failed (arb-evm, build.rs: `commit_transaction`).

  The sender of a retry holds the ticket's call value and the gas that was prepaid by a mint.
  What revm has not sold of the gas is burned in two steps, the refunds of `end_tx_retryable`
  come from the fee accounts, and the value goes from the sender to the escrow. `Owes` says what
  is still to be taken back; each step has a lemma about it. The two burns add up to what is left
  of the prepaid gas as long as the gas used stays within the gas limit.
-/
import Arbreth.Exec.GasCharging
import Arbreth.Exec.Sweep

namespace Arbreth.Exec

open Arbreth.Lib Arbreth.Tx Function

/-! ## Transfers -/

section Transfers

variable {w : World} {s : Executor} {a src : Address}

/-- What a transfer brings to an account that does not pay it. -/
theorem toNat_getBalance_transferBalance (dst : Address) (amount : U256)
    (hsupply : w.supply < 2 ^ 256) (hsrc : src ≠ a) :
    ((transferBalance w src dst amount).getBalance a).toNat = (w.getBalance a).toNat +
      if dst = a ∧ ¬ w.getBalance src < amount then amount.toNat else 0 := by
  by_cases hshort : w.getBalance src < amount
  · rw [transferBalance_short hshort, if_neg fun h => h.2 hshort, Nat.add_zero]
  · have hburned : (w.applyBurn src amount).getBalance a = w.getBalance a := by
      rw [World.getBalance_applyBurn, update_of_ne hsrc.symm]
    rw [transferBalance_covered hshort, World.getBalance_applyMint]
    by_cases hdst : dst = a
    · subst hdst
      -- What the source gave up is room for the account that gets it.
      have hroom := getBalance_le_supply (w.applyBurn src amount) dst
      have htaken := supply_applyBurn (w := w) src amount
      rw [Nat.min_eq_right (BitVec.not_lt.mp hshort)] at htaken
      rw [hburned] at hroom
      rw [update_self, hburned, if_pos ⟨rfl, hshort⟩, toNat_satAdd256_of_le]
      unfold u256Max
      omega
    · rw [update_of_ne (Ne.symm hdst), hburned, if_neg fun h => hdst h.1, Nat.add_zero]

theorem toNat_getBalance_applyBurn (w : World) (a : Address) (amount : U256) :
    ((w.applyBurn a amount).getBalance a).toNat = (w.getBalance a).toNat - amount.toNat := by
  rw [World.getBalance_applyBurn, update_self, toNat_satSub256]

/-- What the transfers that go through bring to an account. -/
def movedTo (a : Address) : Executor → List Transfer → Nat
  | _, [] => 0
  | s, t :: ts =>
    (if t.dst = a ∧ ¬ s.world.getBalance t.src < t.amount then t.amount.toNat else 0) +
      movedTo a (s.doTransfer t.src t.dst t.amount) ts

variable {ts : List Transfer}

theorem movedTo_eq_zero (h : ∀ t ∈ ts, t.dst ≠ a) : movedTo a s ts = 0 := by
  induction ts generalizing s with
  | nil => rfl
  | cons t ts ih =>
    obtain ⟨ht, hts⟩ := List.forall_mem_cons.mp h
    rw [movedTo, if_neg fun hc => ht hc.1, ih hts]

theorem supply_play (ts : List Transfer) (hsupply : s.world.supply < 2 ^ 256) :
    (play Executor.doTransfer s ts).world.supply = s.world.supply := by
  induction ts generalizing s with
  | nil => rfl
  | cons t ts ih =>
    have hstep : (s.doTransfer t.src t.dst t.amount).world.supply = s.world.supply :=
      (supply_congr (getBalance_doTransfer s t.src t.dst t.amount)).trans
        (supply_transferBalance _ _ _ hsupply)
    exact (ih (hstep.trans_lt hsupply)).trans hstep

theorem toNat_getBalance_play (hsupply : s.world.supply < 2 ^ 256) (hsrc : ∀ t ∈ ts, t.src ≠ a) :
    ((play Executor.doTransfer s ts).world.getBalance a).toNat =
      (s.world.getBalance a).toNat + movedTo a s ts := by
  induction ts generalizing s with
  | nil => rfl
  | cons t ts ih =>
    obtain ⟨ht, hts⟩ := List.forall_mem_cons.mp hsrc
    have hstep : (s.doTransfer t.src t.dst t.amount).world.supply = s.world.supply :=
      supply_play [t] hsupply
    have hmoved := toNat_getBalance_transferBalance t.dst t.amount hsupply ht
    rw [← getBalance_doTransfer] at hmoved
    have hrest := ih (hstep.trans_lt hsupply) hts
    rw [hmoved] at hrest
    rw [movedTo, ← Nat.add_assoc]
    exact hrest

end Transfers

/-! ## Taking back what was prepaid -/

/-- The sender of a redemption holds its call value and a rest of the prepaid gas on top of the
    balance `b`; the escrow had `e` before the value was taken out. -/
structure Owes (w : World) (sender escrow : Address) (b e value rest : Nat) : Prop where
  sender : (w.getBalance sender).toNat = b + value + rest
  escrow : (w.getBalance escrow).toNat + value = e
  supply : w.supply < 2 ^ 256

section Owes

variable {w w' : World} {sender escrow : Address} {b e value rest : Nat}

theorem Owes.congr (h : Owes w sender escrow b e value rest) (hw : w'.getBalance = w.getBalance) :
    Owes w' sender escrow b e value rest :=
  ⟨by rw [hw]; exact h.sender, by rw [hw]; exact h.escrow, (supply_congr hw).trans_lt h.supply⟩

theorem Owes.applyBurn (h : Owes w sender escrow b e value rest) (hne : escrow ≠ sender)
    (amount : U256) (hle : amount.toNat ≤ rest) :
    Owes (w.applyBurn sender amount) sender escrow b e value (rest - amount.toNat) where
  sender := by
    have hsender := h.sender
    rw [toNat_getBalance_applyBurn]
    omega
  escrow := by
    rw [World.getBalance_applyBurn, update_of_ne hne]
    exact h.escrow
  supply := by
    have hburn := supply_applyBurn (w := w) sender amount
    have hsupply := h.supply
    omega

theorem Owes.play {s : Executor} (h : Owes s.world sender escrow b e value rest)
    (ts : List Transfer) (hsender : ∀ t ∈ ts, t.src ≠ sender)
    (hescrow : ∀ t ∈ ts, t.src ≠ escrow ∧ t.dst ≠ escrow) :
    Owes (play Executor.doTransfer s ts).world sender escrow (b + movedTo sender s ts) e value
      rest where
  sender := by
    rw [toNat_getBalance_play h.supply hsender, h.sender]
    omega
  escrow := by
    rw [toNat_getBalance_play h.supply fun t ht => (hescrow t ht).1,
      movedTo_eq_zero fun t ht => (hescrow t ht).2]
    exact h.escrow
  supply := (supply_play ts h.supply).trans_lt h.supply

/-- Once the gas is taken back the value can go home. -/
theorem Owes.giveBack {amount : U256} (h : Owes w sender escrow b e amount.toNat 0)
    (hne : escrow ≠ sender) :
    ((transferBalance w sender escrow amount).getBalance escrow).toNat = e ∧
      ((transferBalance w sender escrow amount).getBalance sender).toNat = b := by
  have hsender := h.sender
  have hcovered : amount.toNat ≤ (w.getBalance sender).toNat := by omega
  constructor
  · rw [toNat_getBalance_transferBalance escrow amount h.supply hne.symm,
      if_pos ⟨rfl, BitVec.not_lt.mpr hcovered⟩]
    exact h.escrow
  · rw [toNat_getBalance_covered hne.symm hcovered, if_neg hne.symm, if_pos rfl]
    omega

end Owes

/-! ## The end of a failed redemption -/

section Settle

variable {x : Externals} {s : Executor} {p : Pending} {c : RetryContext} {r : TxResult} {h : Hooks}
  {b e : Nat}

/-- The charge for gas that revm did not sell. -/
theorem Owes.chargeExtraGas {escrow : Address} {value : Nat}
    (ho : Owes s.world p.sender escrow b e value (s.ctx.basefee.toNat * (p.txGasLimit - p.evmGasUsed)))
    (hne : escrow ≠ p.sender) (hprice : p.actualGasPrice = s.ctx.basefee)
    (hused : p.evmGasUsed ≤ r.gasUsed) (hlimit : r.gasUsed ≤ p.txGasLimit)
    (hfits : s.ctx.basefee.toNat * p.txGasLimit < 2 ^ 256) :
    Owes (chargeExtraGas s p r.gasUsed).world p.sender escrow b e value
      (s.ctx.basefee.toNat * (p.txGasLimit - r.gasUsed)) := by
  have hsplit : s.ctx.basefee.toNat * (p.txGasLimit - p.evmGasUsed) =
      s.ctx.basefee.toNat * (p.txGasLimit - r.gasUsed) +
        s.ctx.basefee.toNat * (r.gasUsed - p.evmGasUsed) := by
    rw [← Nat.mul_add]
    congr 1
    omega
  have hextra : (satMul256 p.actualGasPrice (r.gasUsed - p.evmGasUsed)).toNat =
      s.ctx.basefee.toNat * (r.gasUsed - p.evmGasUsed) := by
    rw [hprice]
    refine toNat_satMul256_of_lt (Nat.lt_of_le_of_lt ?_ hfits)
    exact Nat.mul_le_mul_left _ (by omega)
  unfold Exec.chargeExtraGas
  dsimp only
  split
  · have hburn := ho.applyBurn hne (satMul256 p.actualGasPrice (r.gasUsed - p.evmGasUsed))
      (by rw [hextra, hsplit]; exact Nat.le_add_left _ _)
    rw [hextra, hsplit, Nat.add_sub_cancel] at hburn
    rw [← burnBalance_eq] at hburn
    exact hburn
  · next hnone =>
    rw [show p.txGasLimit - r.gasUsed = p.txGasLimit - p.evmGasUsed by omega]
    exact ho

/-- With the gas within the limit, a failed redemption ends with the escrow as it was and the
    sender's balance as it was before the refunds. -/
theorem settle_failed (hretry : p.retryContext = some c) (hfail : r.success = false)
    (hhooks : s.hooks = some h) (hprice : p.actualGasPrice = s.ctx.basefee)
    (hused : p.evmGasUsed ≤ r.gasUsed) (hlimit : r.gasUsed ≤ p.txGasLimit)
    (hfits : s.ctx.basefee.toNat * p.txGasLimit < 2 ^ 256)
    (hsender : p.sender ≠ s.ctx.networkFeeAccount ∧ p.sender ≠ s.ctx.infraFeeAccount)
    (hescrow : escrowOf x c.ticketId ≠ p.sender ∧ escrowOf x c.ticketId ≠ s.ctx.networkFeeAccount ∧
      escrowOf x c.ticketId ≠ s.ctx.infraFeeAccount ∧ escrowOf x c.ticketId ≠ c.refundTo)
    (ho : Owes s.world p.sender (escrowOf x c.ticketId) b e c.callValue.toNat
      (s.ctx.basefee.toNat * (p.txGasLimit - p.evmGasUsed))) :
    ((settle x s p r).world.getBalance (escrowOf x c.ticketId)).toNat = e ∧
      ((settle x s p r).world.getBalance p.sender).toNat =
        b + movedTo p.sender (burnFrom (chargeExtraGas s p r.gasUsed) p.sender
          (gasRefundAmount (retryEndParams (chargeExtraGas s p r.gasUsed) p c r)))
          (retryTransfers (retryEndParams (chargeExtraGas s p r.gasUsed) p c r)) := by
  have hhooks' := hooks_of_shell (shell_chargeExtraGas s p r.gasUsed)
  have hctx := ctx_of_shell (shell_chargeExtraGas s p r.gasUsed)
  have hcharged := ho.chargeExtraGas hescrow.1 hprice hused hlimit hfits
  have hworld : (settle x s p r).world = (settleRetry x (chargeExtraGas s p r.gasUsed) p c r).world := by
    unfold settle
    rw [hretry]
    rfl
  rw [hworld]
  generalize chargeExtraGas s p r.gasUsed = s₁ at hhooks' hctx hcharged ⊢
  have hleft : (gasRefundAmount (retryEndParams s₁ p c r)).toNat =
      s.ctx.basefee.toNat * (p.txGasLimit - r.gasUsed) := by
    change (satMul256 s₁.ctx.basefee (p.txGasLimit - r.gasUsed)).toNat = _
    rw [hctx]
    refine toNat_satMul256_of_lt (Nat.lt_of_le_of_lt ?_ hfits)
    exact Nat.mul_le_mul_left _ (Nat.sub_le _ _)
  have hburned : Owes (burnFrom s₁ p.sender (gasRefundAmount (retryEndParams s₁ p c r))).world
      p.sender (escrowOf x c.ticketId) b e c.callValue.toNat 0 := by
    have hburn := hcharged.applyBurn hescrow.1
      (gasRefundAmount (retryEndParams s₁ p c r)) (Nat.le_of_eq hleft)
    rwa [hleft, Nat.sub_self] at hburn
  have hends : ∀ t ∈ retryTransfers (retryEndParams s₁ p c r),
      (t.src = s.ctx.networkFeeAccount ∨ t.src = s.ctx.infraFeeAccount) ∧
        (t.dst = c.refundTo ∨ t.dst = p.sender) := by
    intro t ht
    rw [← hctx]
    exact ends_of_mem_retryTransfers ht
  have hplayed := hburned.play (retryTransfers (retryEndParams s₁ p c r))
    (fun t ht => by
      rcases (hends t ht).1 with hsrc | hsrc
      · exact hsrc ▸ hsender.1.symm
      · exact hsrc ▸ hsender.2.symm)
    (fun t ht => by
      refine ⟨?_, ?_⟩
      · rcases (hends t ht).1 with hsrc | hsrc
        · exact hsrc ▸ hescrow.2.1.symm
        · exact hsrc ▸ hescrow.2.2.1.symm
      · rcases (hends t ht).2 with hdst | hdst
        · exact hdst ▸ hescrow.2.2.2.symm
        · exact hdst ▸ hescrow.1.symm)
  have hretried : (settleRetry x s₁ p c r).world.getBalance =
      (transferBalance (play Executor.doTransfer (burnFrom s₁ p.sender
        (gasRefundAmount (retryEndParams s₁ p c r))) (retryTransfers (retryEndParams s₁ p c r))).world
        p.sender (escrowOf x c.ticketId) c.callValue).getBalance := by
    unfold settleRetry
    rw [hhooks', hhooks, hfail, ← getBalance_doTransfer, endTxRetryable_played]
    rfl
  rw [hretried]
  exact hplayed.giveBack hescrow.1

end Settle

/-! ## Committing a failure -/

/-- The state in which `end_tx_retryable` runs. -/
def retryEndState (s' : Executor) (p : Pending) (r : TxResult) : Executor :=
  chargeExtraGas (burnWithdrawn (sweepCancelled (beforeSweep s' p r))
    ((withdrawals r).foldl satAdd256 0)) p r.gasUsed

/-- What its refunds bring to the sender. -/
def refundedToSender (s' : Executor) (p : Pending) (c : RetryContext) (r : TxResult) : Nat :=
  let s := retryEndState s' p r
  let a := retryEndParams s p c r
  movedTo p.sender (burnFrom s p.sender (gasRefundAmount a)) (retryTransfers a)

/-- The accounts of a redemption: the sender is no fee account, the escrow is none of the others. -/
structure RetryApart (x : Externals) (s : Executor) (t : ExecutableTx x) (i : ArbRetryTx) : Prop where
  sender_network : t.sender ≠ s.ctx.networkFeeAccount
  sender_infra : t.sender ≠ s.ctx.infraFeeAccount
  escrow_sender : escrowOf x i.ticketId ≠ t.sender
  escrow_network : escrowOf x i.ticketId ≠ s.ctx.networkFeeAccount
  escrow_infra : escrowOf x i.ticketId ≠ s.ctx.infraFeeAccount
  escrow_refundTo : escrowOf x i.ticketId ≠ i.refundTo

section Commit

variable {x : Externals} {s s' : Executor} {t : ExecutableTx x} {i : ArbRetryTx} {p : Pending}
  {r : TxResult}

/-- Nothing happens before the settlement of a failure without fee, tip and sweep. -/
theorem beforeSettle_failed (hfail : r.success = false) (hfee : p.stylusDataFee = 0)
    (htip : p.coinbaseTipPerGas = 0) (hsweep : s'.cancelEscrowSweep = none)
    (hparams : r.dirtyParams = none) :
    burnWithdrawn (sweepCancelled (beforeSweep s' p r)) ((withdrawals r).foldl satAdd256 0) =
      { s' with pending := none, world := r.state.getD s'.world }.touch r.touched := by
  have hrun : commitRun s' r =
      { s' with pending := none, world := r.state.getD s'.world }.touch r.touched := by
    unfold commitRun
    rw [hparams]
    rfl
  have hbefore : beforeSweep s' p r = commitRun s' r := by
    unfold beforeSweep payStylusDataFee
    rw [redirectTip_dropped _ (.inr htip), hfee]
    rfl
  have hswept : sweepCancelled (commitRun s' r) = commitRun s' r := by
    have hslot : (commitRun s' r).cancelEscrowSweep = none := by
      rw [hrun]
      exact hsweep
    unfold sweepCancelled
    rw [hslot]
  have hlogs : withdrawals r = [] := by
    unfold withdrawals
    rw [hfail]
    rfl
  rw [hbefore, hswept, hlogs, hrun]
  rfl

/-- A transaction refused without a redemption costs nothing. -/
theorem getBalance_commit_ended {s₀ : Executor} {sender : Address}
    (hpending : s'.pending = some (endedPending s₀ sender 0 .retry 0))
    (hsweep : s'.cancelEscrowSweep = none) :
    (commitTransaction x s' (syntheticResult false 0 [])).world.getBalance = s'.world.getBalance := by
  rw [commitTransaction_eq hpending, beforeSettle_failed rfl rfl rfl hsweep rfl]
  exact funext fun a =>
    (frame_finalise (A := fun _ => False) (T := fun _ => False) _).balance a not_false

/-- What the execution of a redemption that fails hands to the commit. The sender's balance was
    `b` and the escrow's `e`. -/
structure FailedRetry (s : Executor) (t : ExecutableTx x) (i : ArbRetryTx) (b e : Nat) (s' : Executor)
    (p : Pending) (r : TxResult) : Prop where
  pending : s'.pending = some p
  hooks : s'.hooks.isSome
  ctx : s'.ctx = s.ctx
  sweep : s'.cancelEscrowSweep = none
  dataFee : p.stylusDataFee = 0
  tip : p.coinbaseTipPerGas = 0
  params : r.dirtyParams = none
  failed : r.success = false
  context : p.retryContext = some (retryContextOf i)
  sender : p.sender = t.sender
  limit : p.txGasLimit = i.gas
  price : p.actualGasPrice = s.ctx.basefee
  used : p.evmGasUsed ≤ r.gasUsed
  owes : Owes (r.state.getD s'.world) t.sender (escrowOf x i.ticketId) b e i.value.toNat
    (s.ctx.basefee.toNat * (i.gas - p.evmGasUsed))

theorem FailedRetry.commit {b e : Nat} (hf : FailedRetry s t i b e s' p r)
    (hapart : RetryApart x s t i) (hlimit : r.gasUsed ≤ i.gas)
    (hfits : s.ctx.basefee.toNat * i.gas < 2 ^ 256) :
    ((commitTransaction x s' r).world.getBalance (escrowOf x i.ticketId)).toNat = e ∧
      ((commitTransaction x s' r).world.getBalance t.sender).toNat =
        b + refundedToSender s' p (retryContextOf i) r := by
  have hstage := beforeSettle_failed hf.failed hf.dataFee hf.tip hf.sweep hf.params
  have hfinal : (commitTransaction x s' r).world.getBalance =
      (settle x ({ s' with pending := none, world := r.state.getD s'.world }.touch r.touched) p
        r).world.getBalance := by
    rw [commitTransaction_eq hf.pending, hstage]
    exact funext fun a =>
      (frame_finalise (A := fun _ => False) (T := fun _ => False) _).balance a not_false
  obtain ⟨h, hhooks⟩ := Option.isSome_iff_exists.mp hf.hooks
  have hctx : ({ s' with pending := none, world := r.state.getD s'.world }.touch r.touched).ctx =
      s.ctx := hf.ctx
  have hsettled := settle_failed (x := x) (h := h) (b := b) (e := e)
    (s := { s' with pending := none, world := r.state.getD s'.world }.touch r.touched) hf.context
    hf.failed hhooks (hctx ▸ hf.price) hf.used (hf.limit ▸ hlimit)
    (by rw [hctx, hf.limit]; exact hfits)
    (by rw [hctx, hf.sender]; exact ⟨hapart.sender_network, hapart.sender_infra⟩)
    (by
      rw [hctx, hf.sender]
      exact ⟨hapart.escrow_sender, hapart.escrow_network, hapart.escrow_infra,
        hapart.escrow_refundTo⟩)
    (by rw [hctx, hf.sender, hf.limit]; exact hf.owes)
  rw [hfinal, refundedToSender, retryEndState, hstage, ← hf.sender]
  exact hsettled

end Commit

end Arbreth.Exec
