/-
  Ether is conserved by normal transactions that leave the sender able to pay.

  With tips dropped the sender owes the base fee for all gas used: revm takes its part during the
  run, `commit_transaction` burns the rest afterwards and mints the whole to the network, infra
  and poster accounts. The burn saturates, the mints do not care: when the run has taken the
  sender's balance below the rest, as delegated code of the sender can, ether is created. A
  filtered transaction, which is never validated, also mints poster fees beyond its gas limit.
-/
import Arbreth.Exec.Valid

namespace Arbreth.Exec

open Arbreth.Lib Arbreth.Tx Arbreth.Parse Function

/-- The sum of all balances. -/
def World.supply (w : World) : Nat := total fun a => (w.getBalance a).toNat

/-! ## What the operations do to the supply -/

variable {w w' : World}

theorem supply_congr (h : w'.getBalance = w.getBalance) : w'.supply = w.supply := by
  unfold World.supply
  rw [h]

theorem getBalance_le_supply (w : World) (a : Address) : (w.getBalance a).toNat ≤ w.supply :=
  le_total (fun a => (w.getBalance a).toNat) a

/-- The supply after the balance of one account was set. -/
theorem supply_update {a : Address} {v : U256} (h : w'.getBalance = update w.getBalance a v) :
    w'.supply + (w.getBalance a).toNat = w.supply + v.toNat := by
  have hcomp : (fun b => (w'.getBalance b).toNat) =
      update (fun b => (w.getBalance b).toNat) a v.toNat := by
    funext b
    rw [h]
    by_cases hb : b = a
    · subst hb
      rw [update_self, update_self]
    · rw [update_of_ne hb, update_of_ne hb]
  unfold World.supply
  rw [hcomp]
  exact total_update (fun b => (w.getBalance b).toNat) a v.toNat

variable (a : Address) {call : EvmInput → World → World} {out : EvmOutput}

theorem supply_applyMint {m : U256} (h : w.supply + m.toNat < 2 ^ 256) :
    (w.applyMint a m).supply = w.supply + m.toNat := by
  have hupd := supply_update (w.getBalance_applyMint a m)
  have hbal := getBalance_le_supply w a
  rw [toNat_satAdd256, Nat.min_eq_left (by unfold u256Max; omega)] at hupd
  omega

theorem supply_applyBurn (m : U256) :
    (w.applyBurn a m).supply + min (w.getBalance a).toNat m.toNat = w.supply := by
  have hupd := supply_update (w.getBalance_applyBurn a m)
  rw [toNat_satSub256] at hupd
  omega

theorem supply_mintBalance {m : U256} (h : w.supply + m.toNat < 2 ^ 256) :
    (mintBalance w a m).supply = w.supply + m.toNat :=
  mintBalance_eq w a m ▸ supply_applyMint a h

theorem supply_burnBalance (m : U256) :
    (burnBalance w a m).supply + min (w.getBalance a).toNat m.toNat = w.supply :=
  burnBalance_eq w a m ▸ supply_applyBurn a m

theorem supply_transferBalance (src dst : Address) (m : U256) (h : w.supply < 2 ^ 256) :
    (transferBalance w src dst m).supply = w.supply := by
  by_cases hlt : w.getBalance src < m
  · rw [transferBalance_short hlt]
  · rw [transferBalance_covered hlt]
    have hburn := supply_applyBurn (w := w) src m
    rw [BitVec.lt_def] at hlt
    rw [Nat.min_eq_right (Nat.le_of_not_lt hlt)] at hburn
    rw [supply_applyMint dst (by omega), hburn]

/-! ## Fees of a normal transaction -/

variable {x : Externals} {s : Executor} {p : Pending}

/-- Network and infra share the base fee of the compute gas. -/
theorem networkFee_add_infraFee (h : Hooks) (gasUsed : Nat) (baseFee : U256)
    (hfits : baseFee.toNat * (gasUsed - h.txProc.posterGas) < 2 ^ 256) :
    (computeEndTxFees h gasUsed baseFee).networkFeeAmount.toNat +
        (computeEndTxFees h gasUsed baseFee).infraFeeAmount.toNat =
      baseFee.toNat * (gasUsed - h.txProc.posterGas) := by
  have hcost : (satMul256 baseFee (gasUsed - h.txProc.posterGas)).toNat =
      baseFee.toNat * (gasUsed - h.txProc.posterGas) := toNat_satMul256_of_lt hfits
  -- The infra fee per gas is at most the base fee, so that the difference does not saturate.
  have hshare : ∀ fee : U256, fee.toNat ≤ baseFee.toNat →
      (satMul256 fee (gasUsed - h.txProc.posterGas)).toNat ≤
        baseFee.toNat * (gasUsed - h.txProc.posterGas) := by
    intro fee hfee
    rw [toNat_satMul256]
    exact (Nat.min_le_left _ _).trans (Nat.mul_le_mul_right _ hfee)
  unfold computeEndTxFees TxProcessor.computeEndTxFeeDistribution
  dsimp only
  rw [toNat_satSub256, hcost]
  split
  · split
    · next hlt =>
      have := hshare h.minBaseFee (Nat.le_of_lt (BitVec.lt_def.mp hlt))
      omega
    · omega
  · simp

theorem supply_applyFeeDistribution {d : EndTxFeeDistribution}
    (h : w.supply + (d.networkFeeAmount.toNat + d.infraFeeAmount.toNat) + d.posterFeeAmount.toNat <
      2 ^ 256) :
    (applyFeeDistribution w d).supply =
      w.supply + (d.networkFeeAmount.toNat + d.infraFeeAmount.toNat) + d.posterFeeAmount.toNat := by
  have hnetwork := supply_mintBalance (w := w) d.networkFeeAccount (m := d.networkFeeAmount)
    (by omega)
  have hinfra := supply_mintBalance (w := mintBalance w d.networkFeeAccount d.networkFeeAmount)
    d.infraFeeAccount (m := d.infraFeeAmount) (by omega)
  unfold applyFeeDistribution
  rw [supply_mintBalance _ (by omega)]
  omega

theorem supply_refundMultiGas (networkFeeAccount : Address) (gasUsed : Nat)
    (h : s.world.supply < 2 ^ 256) :
    (refundMultiGas s p networkFeeAccount gasUsed).world.supply = s.world.supply := by
  unfold refundMultiGas
  dsimp only
  split
  · exact supply_transferBalance _ _ _ h
  · rfl

theorem supply_addFees (w : World) (fees : U256) :
    { w with l1FeesAvailable := fees }.supply = w.supply := rfl

/-- The fees mint the base fee of all gas used, or of the poster gas where that is more. -/
theorem supply_settleNormal {h : Hooks} (hh : s.hooks = some h) (gasUsed : Nat)
    (hposter : h.txProc.posterFee.toNat = s.ctx.basefee.toNat * h.txProc.posterGas)
    (hroom : s.world.supply + s.ctx.basefee.toNat * max gasUsed h.txProc.posterGas < 2 ^ 256) :
    (settleNormal s p gasUsed).world.supply =
      s.world.supply + s.ctx.basefee.toNat * max gasUsed h.txProc.posterGas := by
  have hsplit : s.ctx.basefee.toNat * max gasUsed h.txProc.posterGas =
      s.ctx.basefee.toNat * (gasUsed - h.txProc.posterGas) +
        s.ctx.basefee.toNat * h.txProc.posterGas := by
    rw [← Nat.mul_add]
    congr 1
    omega
  have hfees := networkFee_add_infraFee h gasUsed s.ctx.basefee (by omega)
  have hdist := supply_applyFeeDistribution (w := s.world) (d := computeEndTxFees h gasUsed s.ctx.basefee)
    (by rw [hfees]; change _ + _ + h.txProc.posterFee.toNat < _; omega)
  rw [hfees] at hdist
  change _ = _ + _ + h.txProc.posterFee.toNat at hdist
  unfold settleNormal
  simp only [hh]
  rw [supply_addFees, supply_refundMultiGas]
  · split <;> exact hdist.trans (by omega)
  · split <;> exact hdist.trans_lt (by omega)

/-! ## Committing a normal transaction -/

theorem redirectTip_dropped (gasUsed : Nat)
    (h : p.cappedGasPrice = true ∨ p.coinbaseTipPerGas = 0) : redirectTip s p gasUsed = s := by
  refine if_neg fun hc => ?_
  rcases h with h | h
  · exact absurd hc.1 (by simp [h])
  · exact absurd hc.2.1 (by omega)

theorem supply_finalise (s : Executor) : (finalise s).world.supply = s.world.supply :=
  supply_congr (funext fun a =>
    (frame_finalise (A := fun _ => False) (T := fun _ => False) s).balance a id)

/-- The run's state once the escrow a cancel left has been swept. -/
def afterSweep (w : World) : Option (Address × Address) → World
  | none => w
  | some (escrow, beneficiary) => transferBalance w escrow beneficiary (w.getBalance escrow)

theorem sweepCancelled_spec (s : Executor) :
    (sweepCancelled s).world.getBalance =
        (afterSweep s.world s.cancelEscrowSweep).getBalance ∧
      (sweepCancelled s).hooks = s.hooks ∧ (sweepCancelled s).ctx = s.ctx := by
  unfold sweepCancelled
  cases s.cancelEscrowSweep with
  | none => exact ⟨rfl, rfl, rfl⟩
  | some sweep =>
    obtain ⟨e, b⟩ := sweep
    have hshell := shell_doTransfer { s with cancelEscrowSweep := none } e b (s.world.getBalance e)
    exact ⟨getBalance_doTransfer _ e b _, congrArg Shell.hooks hshell, congrArg Shell.ctx hshell⟩

theorem supply_afterSweep (sweep : Option (Address × Address)) (h : w.supply < 2 ^ 256) :
    (afterSweep w sweep).supply = w.supply := by
  cases sweep with
  | none => rfl
  | some sweep => exact supply_transferBalance _ _ _ h

theorem supply_chargeExtraGas (gasUsed : Nat)
    (hfits : p.actualGasPrice.toNat * (gasUsed - p.evmGasUsed) < 2 ^ 256) :
    (chargeExtraGas s p gasUsed).world.supply +
        min (s.world.getBalance p.sender).toNat (p.actualGasPrice.toNat * (gasUsed - p.evmGasUsed)) =
      s.world.supply := by
  unfold chargeExtraGas
  dsimp only
  split
  · have hburn := supply_burnBalance (w := s.world) p.sender
      (satMul256 p.actualGasPrice (gasUsed - p.evmGasUsed))
    rw [toNat_satMul256_of_lt hfits] at hburn
    exact hburn
  · next h0 =>
    rw [Nat.eq_zero_of_not_pos h0, Nat.mul_zero, Nat.min_zero, Nat.add_zero]

theorem txProc_commitRun {h : Hooks} (hh : s.hooks = some h) (r : TxResult) :
    ∃ h', (commitRun s r).hooks = some h' ∧ h'.txProc = h.txProc := by
  unfold commitRun refreshStateParams
  cases r.dirtyParams with
  | none => exact ⟨h, hh, rfl⟩
  | some d => exact ⟨_, congrArg (Option.map _) hh, rfl⟩

/-- The ledger of a normal transaction: what the burn finds leaves the supply, the base fee of
    all gas used enters it. -/
theorem supply_commitTransaction {h : Hooks} {r : TxResult} (hh : s.hooks = some h)
    (hpending : s.pending = some p) (htip : p.cappedGasPrice = true ∨ p.coinbaseTipPerGas = 0)
    (hstylus : p.stylusDataFee = 0) (hretry : p.retryContext = none)
    (hnormal : isNormalType p.arbTxType = true) (hprice : p.actualGasPrice = s.ctx.basefee)
    (hlogs : withdrawals r = [])
    (hposter : h.txProc.posterFee.toNat = s.ctx.basefee.toNat * h.txProc.posterGas)
    (hroom : (r.state.getD s.world).supply +
      s.ctx.basefee.toNat * max r.gasUsed h.txProc.posterGas < 2 ^ 256) :
    (commitTransaction x s r).world.supply +
        min ((afterSweep (r.state.getD s.world) s.cancelEscrowSweep).getBalance p.sender).toNat
          (s.ctx.basefee.toNat * (r.gasUsed - p.evmGasUsed)) =
      (r.state.getD s.world).supply + s.ctx.basefee.toNat * max r.gasUsed h.txProc.posterGas := by
  obtain ⟨hworld, hslot, hfee, -⟩ := commitRun_kept s r
  obtain ⟨h', hh', hproc⟩ := txProc_commitRun hh r
  obtain ⟨hbal, hhooks, hctx⟩ := sweepCancelled_spec (commitRun s r)
  rw [hworld, hslot] at hbal
  rw [← hproc] at hposter hroom ⊢
  have hstages : commitTransaction x s r =
      finalise (settle x (sweepCancelled (commitRun s r)) p r) := by
    unfold commitTransaction
    rw [hpending, hlogs]
    simp only [redirectTip_dropped _ htip, payStylusDataFee, hstylus, ne_eq, not_true_eq_false,
      if_false, burnWithdrawn, List.foldl_nil]
  have hswept : (sweepCancelled (commitRun s r)).world.supply = (r.state.getD s.world).supply :=
    (supply_congr hbal).trans (supply_afterSweep _ (by omega))
  have hextra : s.ctx.basefee.toNat * (r.gasUsed - p.evmGasUsed) ≤
      s.ctx.basefee.toNat * max r.gasUsed h'.txProc.posterGas :=
    Nat.mul_le_mul_left _ (by omega)
  have hcharge := supply_chargeExtraGas (s := sweepCancelled (commitRun s r)) (p := p) r.gasUsed
    (by rw [hprice]; omega)
  rw [hbal, hprice, hswept] at hcharge
  have hshell := shell_chargeExtraGas (sweepCancelled (commitRun s r)) p r.gasUsed
  have hbase : (chargeExtraGas (sweepCancelled (commitRun s r)) p r.gasUsed).ctx.basefee =
      s.ctx.basefee := by rw [ctx_of_shell hshell, hctx, hfee]
  have hmint := supply_settleNormal (p := p) ((hooks_of_shell hshell).trans (hhooks.trans hh'))
    r.gasUsed (by rw [hbase]; exact hposter) (by rw [hbase]; omega)
  rw [hbase] at hmint
  rw [hstages, supply_finalise]
  simp only [settle, hretry, hnormal, if_true, chargeBlockGas]
  omega

/-! ## Executing a normal transaction -/

section Normal

variable (x : Externals) (s : Executor) (t : ExecutableTx x)

/-- The run takes the base fee of the EVM's gas out of the supply and nothing else, has no
    Stylus data fee and logs no withdrawal. -/
def ConservingRun : Prop :=
  ∀ out, normalRun x s t = .ok out →
    out.world.supply + s.ctx.basefee.toNat * out.gasUsed = s.world.supply ∧ out.stylusDataFee = 0 ∧
      ∀ log ∈ out.logs, ¬ (log.address = arbsysAddress ∧ log.topics.head? = some l2ToL1TxTopic)

/-- The sender can pay for the gas charged after the run: with what the run and the sweep leave
    or, where the hook reverts the transaction, with the balance before it. -/
def Covered : Prop :=
  if hookAction x s t = .none then
    ∀ out, normalRun x s t = .ok out →
      s.ctx.basefee.toNat *
          (receiptGas out.gasUsed (posterGasFor x s t) (calldataFloorGas x s t) - out.gasUsed) ≤
        ((afterSweep out.world out.cancelEscrowSweep).getBalance t.sender).toNat
  else
    posterGasFor x s t ≤ forcedGas x s t ∧
      s.ctx.basefee.toNat * forcedGas x s t ≤ (s.world.getBalance t.sender).toNat

instance : Decidable (Covered x s t) := by
  delta Covered
  infer_instance

end Normal

variable {t : ExecutableTx x}

theorem actualGasPrice_dropped (h : shouldDropTip s = true) : actualGasPrice x s t = s.ctx.basefee := by
  unfold actualGasPrice
  rw [if_pos (.inl h)]

theorem charges_resetTx (s : Executor) (t : ExecutableTx x) :
    posterGasFor x s.resetTx t = posterGasFor x s t ∧ forcedGas x s.resetTx t = forcedGas x s t ∧
      calldataFloorGas x s.resetTx t = calldataFloorGas x s t ∧
      shouldDropTip s.resetTx = shouldDropTip s := by
  unfold forcedGas posterGasFor actualGasPrice shouldDropTip hookAction calldataFloorGas
  cases h : s.hooks with
  | none => simp only [Executor.resetTx, h]; exact ⟨rfl, rfl, rfl, rfl⟩
  | some h' => simp only [Executor.resetTx, h]; exact ⟨rfl, rfl, rfl, rfl⟩

theorem charges_chargeGas (s : Executor) (t : ExecutableTx x) :
    calldataFloorGas x (chargeGas x s t) t = calldataFloorGas x s t ∧
      shouldDropTip (chargeGas x s t) = shouldDropTip s := by
  unfold calldataFloorGas shouldDropTip chargeGas chargeHooks
  cases s.hooks with
  | none => exact ⟨rfl, rfl⟩
  | some h => exact ⟨rfl, rfl⟩

theorem posterGasFor_le (x : Externals) (s : Executor) (t : ExecutableTx x) :
    posterGasFor x s t ≤ u64Max := by
  unfold posterGasFor computePosterGas
  split
  · split
    · exact Nat.zero_le _
    · exact Nat.min_le_right _ _
  · exact Nat.zero_le _

theorem calldataFloorGas_le (x : Externals) (s : Executor) (t : ExecutableTx x) :
    calldataFloorGas x s t ≤ u64Max := by
  unfold calldataFloorGas txFloorDataGas satAdd64
  dsimp only
  split
  · split <;> omega
  · omega

/-- The receipt's gas covers what the EVM and the poster used. -/
theorem receiptGas_bounds {evmGasUsed posterGas : Nat} (floor : Nat) (hevm : evmGasUsed ≤ u64Max)
    (hposter : posterGas ≤ u64Max) :
    max evmGasUsed posterGas ≤ receiptGas evmGasUsed posterGas floor ∧
      receiptGas evmGasUsed posterGas floor ≤ u64Max := by
  unfold receiptGas satAdd64
  dsimp only
  split <;> split <;> omega

/-- What the hooks hold once gas is charged with tips dropped. -/
theorem chargeGas_hooks (hdrop : shouldDropTip s = true) :
    ∃ h, (chargeGas x s.resetTx t).hooks = some h ∧
      h.txProc.posterGas = posterGasFor x s t ∧
      h.txProc.posterFee = satMul256 s.ctx.basefee (posterGasFor x s t) := by
  obtain ⟨hgas, -, -, hreset⟩ := charges_resetTx s t
  have hprice := actualGasPrice_dropped (t := t) (hreset.trans hdrop)
  cases hh : s.resetTx.hooks with
  | none =>
    rw [← hreset, shouldDropTip, hh] at hdrop
    cases hdrop
  | some h =>
    refine ⟨_, congrArg (Option.map _) hh, hgas, ?_⟩
    rw [hprice, hgas]
    rfl

theorem isNormalType_eq (tx : ArbTransactionSigned) :
    isNormalType (ArbTxType.fromU8 tx.ty) = isUserTx (ArbTxType.fromU8 tx.ty) := by
  obtain ⟨transaction, signature⟩ := tx
  cases transaction <;> rfl

/-- The ledger of a transaction the hook reverts. -/
theorem supply_forced (hnormal : isNormalType (ArbTxType.fromU8 t.tx.ty) = true)
    (hdrop : shouldDropTip s = true) (computation : Nat) (output : Bytes)
    (hroom : s.world.supply + s.ctx.basefee.toNat * max (forcedGas x s t) (posterGasFor x s t) <
      2 ^ 256) :
    (commitOutcome x (forceRevert x (chargeGas x s.resetTx t) t none (posterGasFor x s.resetTx t)
        (forcedGas x s.resetTx t) computation output)).world.supply +
        min (s.world.getBalance t.sender).toNat (s.ctx.basefee.toNat * forcedGas x s t) =
      s.world.supply + s.ctx.basefee.toNat * max (forcedGas x s t) (posterGasFor x s t) := by
  obtain ⟨h, hh, hgas, hfee⟩ := chargeGas_hooks (x := x) (t := t) hdrop
  obtain ⟨hposter, hforced, -⟩ := charges_resetTx s t
  have hnonce : ((chargeGas x s.resetTx t).world.incrementNonce t.sender).getBalance =
      s.world.getBalance := World.getBalance_incrementNonce _ _
  have hle : s.ctx.basefee.toNat * posterGasFor x s t ≤
      s.ctx.basefee.toNat * max (forcedGas x s t) (posterGasFor x s t) :=
    Nat.mul_le_mul_left _ (Nat.le_max_right _ _)
  have hposterFee : h.txProc.posterFee.toNat = s.ctx.basefee.toNat * h.txProc.posterGas := by
    rw [hfee, hgas, toNat_satMul256_of_lt (by omega)]
  rw [hposter, hforced]
  have hledger := supply_commitTransaction (x := x) (r := syntheticResult false (forcedGas x s t) output)
    (s := (forceRevert x (chargeGas x s.resetTx t) t none (posterGasFor x s t) (forcedGas x s t)
      computation output).1) hh rfl (.inr rfl) rfl rfl hnormal rfl rfl hposterFee
    (by rw [hgas]; exact (supply_congr hnonce).symm ▸ hroom)
  -- Nothing was cancelled and no gas was sold before.
  change _ + min (((chargeGas x s.resetTx t).world.incrementNonce t.sender).getBalance t.sender).toNat
    _ = ((chargeGas x s.resetTx t).world.incrementNonce t.sender).supply + _ at hledger
  rw [hnonce, supply_congr hnonce, hgas] at hledger
  exact hledger

theorem withdrawals_eq_nil {r : TxResult} (h : ∀ log ∈ r.logs,
    ¬ (log.address = arbsysAddress ∧ log.topics.head? = some l2ToL1TxTopic)) :
    withdrawals r = [] := by
  unfold withdrawals
  split
  · refine List.filterMap_eq_nil_iff.mpr fun log hlog => if_neg fun hc => ?_
    exact h log hlog ⟨hc.1, hc.2.1⟩
  · rfl

/-- The ledger of a transaction that ran. -/
theorem supply_ran (hnormal : isNormalType (ArbTxType.fromU8 t.tx.ty) = true)
    (hdrop : shouldDropTip s = true) (hrun : normalRun x s t = .ok out)
    (hconserving : ConservingRun x s t)
    (hroom : s.world.supply + s.ctx.basefee.toNat * u64Max < 2 ^ 256) :
    (commitOutcome x (finishEvm x (chargeGas x s.resetTx t) t none (posterGasFor x s.resetTx t)
        out)).world.supply +
        min ((afterSweep out.world out.cancelEscrowSweep).getBalance t.sender).toNat
          (s.ctx.basefee.toNat *
            (receiptGas out.gasUsed (posterGasFor x s t) (calldataFloorGas x s t) - out.gasUsed)) =
      s.world.supply + s.ctx.basefee.toNat *
        (receiptGas out.gasUsed (posterGasFor x s t) (calldataFloorGas x s t) - out.gasUsed) := by
  obtain ⟨hsupply, hstylus, hlogs⟩ := hconserving out hrun
  obtain ⟨h, hh, hgas, hfee⟩ := chargeGas_hooks (x := x) (t := t) hdrop
  obtain ⟨hposter, -, hfloor, hreset⟩ := charges_resetTx s t
  obtain ⟨hfloor', hdrop'⟩ := charges_chargeGas s.resetTx t
  obtain ⟨hused, hfits⟩ := receiptGas_bounds (calldataFloorGas x s t) out.gasUsed_le
    (posterGasFor_le x s t)
  set gas := receiptGas out.gasUsed (posterGasFor x s t) (calldataFloorGas x s t) with hreceipt
  have hextra := Nat.mul_le_mul_left s.ctx.basefee.toNat hfits
  have hsplit : s.ctx.basefee.toNat * gas =
      s.ctx.basefee.toNat * out.gasUsed + s.ctx.basefee.toNat * (gas - out.gasUsed) := by
    rw [← Nat.mul_add]
    congr 1
    omega
  have hmax : max gas h.txProc.posterGas = gas := by
    rw [hgas]
    omega
  have hposterFee : h.txProc.posterFee.toNat = s.ctx.basefee.toNat * h.txProc.posterGas := by
    have := Nat.mul_le_mul_left s.ctx.basefee.toNat (posterGasFor_le x s t)
    rw [hfee, hgas, toNat_satMul256_of_lt (by omega)]
  have hcapped : shouldDropTip (chargeGas x s.resetTx t) = true := hdrop'.trans (hreset.trans hdrop)
  have hlog : withdrawals ⟨out.success, gas, [], if out.success then out.logs else [],
      some out.world, out.touched, out.dirtyParams⟩ = [] := by
    refine withdrawals_eq_nil fun log hlog => hlogs log ?_
    split at hlog
    · exact hlog
    · cases hlog
  have hledger := supply_commitTransaction (x := x)
    (s := (finishEvm x (chargeGas x s.resetTx t) t none (posterGasFor x s t) out).1)
    (congrArg (Option.map _) hh) rfl (.inl hcapped) hstylus rfl hnormal
    (actualGasPrice_dropped hcapped) hlog hposterFee
    (by
      change out.world.supply + s.ctx.basefee.toNat * max gas h.txProc.posterGas < _
      rw [hmax]
      omega)
  change _ = out.world.supply + s.ctx.basefee.toNat * max gas h.txProc.posterGas at hledger
  rw [hmax, hsplit, ← Nat.add_assoc, hsupply] at hledger
  have hrecorded : receiptGas out.gasUsed (posterGasFor x s t)
      (calldataFloorGas x (chargeGas x s.resetTx t) t) = gas := by rw [hfloor', hfloor]
  rw [hposter]
  change (commitTransaction x (finishEvm x (chargeGas x s.resetTx t) t none (posterGasFor x s t) out).1
    ⟨out.success, receiptGas out.gasUsed (posterGasFor x s t) _, [], _, _, _, _⟩).world.supply + _ = _
  rw [hrecorded]
  exact hledger

theorem posterGasFor_free (hdrop : shouldDropTip s = true) (h0 : s.ctx.basefee = 0) :
    posterGasFor x s t = 0 := by
  unfold posterGasFor computePosterGas
  rw [actualGasPrice_dropped hdrop, if_pos h0]
  split <;> rfl

theorem forcedGas_le (x : Externals) (s : Executor) (t : ExecutableTx x) :
    forcedGas x s t ≤ max (Accessor.gasLimit t.tx) u64Max := by
  unfold forcedGas
  split
  · exact (Nat.min_le_right _ _).trans (Nat.le_max_right _ _)
  · exact Nat.le_max_left _ _

/-- A normal transaction with tips dropped conserves ether exactly if its sender can pay for the
    gas charged after the run. No balance overflows as long as the supply and the base fee of
    the gas together fit a word. -/
theorem normal_tx_conserves_iff (s : Executor) (t : ExecutableTx x)
    (hnormal : isNormalType (ArbTxType.fromU8 t.tx.ty) = true) (hdrop : shouldDropTip s = true)
    (hok : returnsOk x s t = true) (hconserving : ConservingRun x s t)
    (hroom : s.world.supply + s.ctx.basefee.toNat * max (Accessor.gasLimit t.tx) u64Max < 2 ^ 256) :
    (processTransaction x s t).world.supply = s.world.supply ↔ Covered x s t := by
  have hfits : ∀ gas ≤ max (Accessor.gasLimit t.tx) u64Max,
      s.world.supply + s.ctx.basefee.toNat * gas < 2 ^ 256 := fun gas hgas =>
    (Nat.add_le_add_left (Nat.mul_le_mul_left _ hgas) _).trans_lt hroom
  have hpath := userPath_of_ok (isNormalType_eq t.tx ▸ hnormal) hok
  unfold processTransaction Covered
  generalize executeTransactionWithoutCommit x s t = o at hpath
  cases hpath with
  | forced computation output hne =>
    have hledger := supply_forced hnormal hdrop computation output (hfits _
      (Nat.max_le.mpr ⟨forcedGas_le x s t, (posterGasFor_le x s t).trans (Nat.le_max_right _ _)⟩))
    rw [if_neg hne]
    constructor
    · intro h
      have hmax : s.ctx.basefee.toNat * max (forcedGas x s t) (posterGasFor x s t) ≤
          s.ctx.basefee.toNat * forcedGas x s t := by omega
      have hle : posterGasFor x s t ≤ forcedGas x s t := by
        rcases Nat.eq_zero_or_pos s.ctx.basefee.toNat with h0 | hpos
        · rw [posterGasFor_free hdrop (BitVec.eq_of_toNat_eq h0)]
          exact Nat.zero_le _
        · exact (Nat.le_max_right _ _).trans (Nat.le_of_mul_le_mul_left hmax hpos)
      rw [Nat.max_eq_left hle] at hledger
      exact ⟨hle, by omega⟩
    · rintro ⟨hle, hpays⟩
      rw [Nat.max_eq_left hle, Nat.min_eq_right hpays] at hledger
      omega
  | ran out hhook _ hrun =>
    have hledger := supply_ran hnormal hdrop hrun hconserving (hfits _ (Nat.le_max_right _ _))
    rw [if_pos hhook]
    constructor
    · intro h out' hrun'
      obtain rfl : out = out' := Except.ok.inj (hrun.symm.trans hrun')
      omega
    · intro h
      have := h out hrun
      omega

/-! ## A run -/

variable {gasUsed : Nat} {i : EvmInput}

/-- A run moves the nonce, buys the gas limit, calls, and pays the unused gas back. -/
theorem revmRun_ok (h : revmRun gasUsed call i w = .ok out) :
    out.gasUsed = gasUsed ∧ out.stylusDataFee = 0 ∧ out.logs = [] ∧
      ∃ w₁, w₁.getBalance = w.getBalance ∧
        out.world = mintBalance
          (call i (burnBalance w₁ i.env.caller
            (satMul256 (BitVec.ofNat 256 i.env.gasPrice) i.env.gasLimit)))
          i.env.caller (satMul256 (BitVec.ofNat 256 i.env.gasPrice) (i.env.gasLimit - gasUsed)) := by
  unfold revmRun at h
  split at h
  · cases h
    refine ⟨rfl, rfl, rfl, _, ?_, rfl⟩
    rw [World.getBalance_setAccount, update_eq_self]
  · cases h

/-- A run takes the price of the gas it used out of the supply. -/
theorem supply_revmRun (hcall : ∀ i w, w.supply < 2 ^ 256 → (call i w).supply = w.supply)
    (h : revmRun gasUsed call i w = .ok out) (hfits : w.supply < 2 ^ 256)
    (hpays : i.env.gasPrice * i.env.gasLimit ≤ (w.getBalance i.env.caller).toNat)
    (hprice : i.env.gasPrice < 2 ^ 256) (hused : gasUsed ≤ i.env.gasLimit) :
    out.world.supply + i.env.gasPrice * gasUsed = w.supply := by
  obtain ⟨-, -, -, w₁, hsame, hworld⟩ := revmRun_ok h
  have hsplit : i.env.gasPrice * i.env.gasLimit =
      i.env.gasPrice * gasUsed + i.env.gasPrice * (i.env.gasLimit - gasUsed) := by
    rw [← Nat.mul_add, Nat.add_sub_cancel' hused]
  have hcost : ∀ gas, i.env.gasPrice * gas ≤ i.env.gasPrice * i.env.gasLimit →
      (satMul256 (BitVec.ofNat 256 i.env.gasPrice) gas).toNat = i.env.gasPrice * gas := by
    intro gas hgas
    have hword : (BitVec.ofNat 256 i.env.gasPrice).toNat = i.env.gasPrice := by
      rw [BitVec.toNat_ofNat, Nat.mod_eq_of_lt hprice]
    rw [toNat_satMul256_of_lt (by rw [hword]; omega), hword]
  have hburn := supply_burnBalance (w := w₁) i.env.caller
    (satMul256 (BitVec.ofNat 256 i.env.gasPrice) i.env.gasLimit)
  rw [supply_congr hsame, hsame, hcost _ (Nat.le_refl _), Nat.min_eq_right hpays] at hburn
  have hkept := hcall i _ (((Nat.le_add_right _ _).trans_eq hburn).trans_lt hfits)
  have hback := hcost (i.env.gasLimit - gasUsed) (by omega)
  rw [hworld, supply_mintBalance _ (by rw [hkept, hback]; omega), hkept, hback]
  omega

theorem supply_transferCall (i : EvmInput) (w : World) (h : w.supply < 2 ^ 256) :
    (transferCall i w).supply = w.supply := by
  unfold transferCall
  cases i.env.kind with
  | none => rfl
  | some dst => exact supply_transferBalance _ _ _ h

/-- A run at the base fee takes the base fee of its gas. -/
theorem conservingRun_revmRun (hx : x.evm = revmRun gasUsed call)
    (hcall : ∀ i w, w.supply < 2 ^ 256 → (call i w).supply = w.supply)
    (hfits : s.world.supply < 2 ^ 256)
    (hprice : (normalInput x s t).env.gasPrice = s.ctx.basefee.toNat)
    (hpays : s.ctx.basefee.toNat * (normalInput x s t).env.gasLimit ≤
      (s.world.getBalance (normalInput x s t).env.caller).toNat)
    (hused : gasUsed ≤ (normalInput x s t).env.gasLimit) : ConservingRun x s t := by
  intro out hrun
  rw [normalRun, hx] at hrun
  have hsame : (chargeGas x s.resetTx t).world.getBalance = s.world.getBalance := rfl
  obtain ⟨hgas, hstylus, hlogs, -⟩ := revmRun_ok hrun
  have hsupply := supply_revmRun hcall hrun ((supply_congr hsame).trans_lt hfits)
    (by rw [hsame, hprice]; exact hpays) (by rw [hprice]; exact s.ctx.basefee.isLt) hused
  rw [supply_congr hsame, hprice, ← hgas] at hsupply
  exact ⟨hsupply, hstylus, fun log hlog => by rw [hlogs] at hlog; cases hlog⟩

theorem supply_fundedExecutor (hasCode : Bool) :
    (fundedExecutor hasCode).world.supply = 2000000000000000000 := by
  unfold World.supply total
  rw [Finset.sum_eq_single_of_mem sampleSender (Finset.mem_univ _)]
  · simp [fundedExecutor, sampleExecutor, World.getBalance]
  · intro b _ hb
    simp [fundedExecutor, sampleExecutor, World.getBalance, hb]

/-- A transfer whose sender keeps enough conserves ether. -/
theorem normal_tx_conserves_transfer :
    Covered (sampleExternals plainCall) (fundedExecutor false) (sampleTx plainCall) ∧
      (processTransaction (sampleExternals plainCall) (fundedExecutor false)
        (sampleTx plainCall)).world.supply = (fundedExecutor false).world.supply := by
  have hsupply := supply_fundedExecutor false
  have hconserving : ConservingRun (sampleExternals plainCall) (fundedExecutor false)
      (sampleTx plainCall) :=
    conservingRun_revmRun (show _ = revmRun txGas transferCall from rfl) supply_transferCall
      (hsupply.trans_lt (by decide)) (by decide +kernel) (by decide +kernel) (by decide +kernel)
  have hcovered : Covered (sampleExternals plainCall) (fundedExecutor false) (sampleTx plainCall) := by
    decide +kernel
  exact ⟨hcovered, (normal_tx_conserves_iff _ _ (by decide +kernel) (by decide +kernel)
    (by decide +kernel) hconserving (by rw [hsupply]; decide +kernel)).mpr hcovered⟩

/-- The called contract calls back the sender, whose delegated code sends away what the gas
    purchase has left. -/
def drainCall (i : EvmInput) (w : World) : World :=
  transferBalance w i.env.caller 0xb0b (w.getBalance i.env.caller)

/-- All gas but 400 is used up on the way. -/
def drainRun : EvmInput → World → Except String EvmOutput := revmRun 98000 drainCall

/-- The burn for 1600 poster gas finds the price of 400: the supply grows by that of 1200. -/
theorem drained_sender_mints_ether :
    ConservingRun (sampleExternals drainRun) (fundedExecutor true) (sampleTx drainRun) ∧
      shouldDropTip (fundedExecutor true) = true ∧
      returnsOk (sampleExternals drainRun) (fundedExecutor true) (sampleTx drainRun) = true ∧
      (processTransaction (sampleExternals drainRun) (fundedExecutor true)
          (sampleTx drainRun)).world.supply =
        (fundedExecutor true).world.supply + 1200 * 100000000 := by
  have hsupply := supply_fundedExecutor true
  have hconserving : ConservingRun (sampleExternals drainRun) (fundedExecutor true)
      (sampleTx drainRun) :=
    conservingRun_revmRun (show _ = revmRun 98000 drainCall from rfl)
      (fun _ _ h => supply_transferBalance _ _ _ h) (hsupply.trans_lt (by decide))
      (by decide +kernel) (by decide +kernel) (by decide +kernel)
  have hok : returnsOk (sampleExternals drainRun) (fundedExecutor true) (sampleTx drainRun) = true := by
    decide +kernel
  have hleft : ∀ out, normalRun (sampleExternals drainRun) (fundedExecutor true) (sampleTx drainRun) =
      .ok out → (fundedExecutor true).ctx.basefee.toNat * (receiptGas out.gasUsed
          (posterGasFor (sampleExternals drainRun) (fundedExecutor true) (sampleTx drainRun))
          (calldataFloorGas (sampleExternals drainRun) (fundedExecutor true) (sampleTx drainRun)) -
            out.gasUsed) = 1600 * 100000000 ∧
        ((afterSweep out.world out.cancelEscrowSweep).getBalance (sampleTx drainRun).sender).toNat =
          400 * 100000000 := by
    decide +kernel
  refine ⟨hconserving, by decide +kernel, hok, ?_⟩
  have hpath := userPath_of_ok (x := sampleExternals drainRun) (s := fundedExecutor true)
    (t := sampleTx drainRun) (by decide +kernel) hok
  unfold processTransaction
  generalize executeTransactionWithoutCommit (sampleExternals drainRun) (fundedExecutor true)
    (sampleTx drainRun) = o at hpath
  cases hpath with
  | forced _ _ hne => exact absurd (by decide +kernel) hne
  | ran out _ _ hrun =>
    have hledger := supply_ran (x := sampleExternals drainRun) (by decide +kernel)
      (by decide +kernel) hrun hconserving (by rw [hsupply]; decide +kernel)
    rw [(hleft out hrun).1, (hleft out hrun).2] at hledger
    omega

end Arbreth.Exec
