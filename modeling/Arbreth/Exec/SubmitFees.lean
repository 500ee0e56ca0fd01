/-
  The fees of a submitted retryable (arbos, tx_processor.rs: compute_submit_retryable_fees).

  The deposit is a pool from which the call value, the submission fee, its refund and the gas
  are taken in turn; the sender's balance is charged in another order. `SubmitFeesSpec` says in
  naturals what the function returns. From it follow that the deposit is split exactly and that
  the sender can cover every transfer the fees ask for, the call value apart.
-/
import Arbreth.Exec.RetryRefunds
import Arbreth.Exec.World
import Arbreth.Lib.Outcome

namespace Arbreth.Exec

open Arbreth.Lib

/-- No product of the fee computation leaves 256 bits. -/
structure SubmitRetryableParams.Unsaturated (a : SubmitRetryableParams) : Prop where
  submission : a.l1BaseFee.toNat * (1400 + 6 * a.retryDataLen) < 2 ^ 256
  maxGas : a.gasFeeCap.toNat * a.gas < 2 ^ 256
  gas : a.effectiveBaseFee.toNat * a.gas < 2 ^ 256

section Spec

variable (a : SubmitRetryableParams)

/-- The submission fee in naturals. -/
def submissionFeeAmount : Nat := a.l1BaseFee.toNat * (1400 + 6 * a.retryDataLen)

/-- The deposit after the call value and the submission fee. -/
def depositAfterFee : Nat := a.depositValue.toNat - a.retryValue.toNat - submissionFeeAmount a

/-- The excess of the submission fee, as far as the deposit covers it. -/
def feeRefundAmount : Nat :=
  min (depositAfterFee a) (a.maxSubmissionFee.toNat - submissionFeeAmount a)

/-- The deposit before gas. -/
def depositForGas : Nat := depositAfterFee a - feeRefundAmount a

/-- What the sender holds once fee, refund and call value are paid. -/
def balanceForGas : Nat :=
  a.balanceAfterMint.toNat - submissionFeeAmount a - a.retryValue.toNat -
    if a.feeRefundAddr ≠ a.sender then feeRefundAmount a else 0

/-- What `compute_submit_retryable_fees` returns where it returns no error. -/
structure SubmitFeesSpec (f : SubmitRetryableFees) : Prop where
  balance_ge : a.maxSubmissionFee.toNat ≤ a.balanceAfterMint.toNat
  max_ge : submissionFeeAmount a ≤ a.maxSubmissionFee.toNat
  submissionFee : f.submissionFee.toNat = submissionFeeAmount a
  withheld : f.withheldSubmissionFee.toNat =
    min (a.depositValue.toNat - a.retryValue.toNat) (submissionFeeAmount a)
  refund : f.submissionFeeRefund.toNat = feeRefundAmount a
  gasCost : f.gasCost.toNat = a.effectiveBaseFee.toNat * a.gas
  split : f.infraCost.toNat + f.networkCost.toNat = a.effectiveBaseFee.toNat * a.gas
  pays : f.canPayForGas = true →
    a.effectiveBaseFee.toNat ≤ a.gasFeeCap.toNat ∧
    a.gasFeeCap.toNat * a.gas ≤ balanceForGas a ∧
    f.gasCostRefund.toNat = 0 ∧
    f.gasPriceRefund.toNat = min (depositForGas a - a.effectiveBaseFee.toNat * a.gas)
      ((a.gasFeeCap.toNat - a.effectiveBaseFee.toNat) * a.gas) ∧
    f.availableRefund.toNat + f.gasPriceRefund.toNat =
      depositForGas a + f.withheldSubmissionFee.toNat
  short : f.canPayForGas = false →
    f.gasPriceRefund.toNat = 0 ∧
    f.gasCostRefund.toNat = min (depositForGas a) (a.gasFeeCap.toNat * a.gas) ∧
    f.availableRefund.toNat = depositForGas a - a.gasFeeCap.toNat * a.gas

end Spec

section Compute

variable {a : SubmitRetryableParams}

theorem gasSplit_sum (gas : Nat) (effectiveBaseFee : U256) (infraFeeAccount : Address)
    (minBaseFee : U256) (arbosVersion : Nat)
    (h : effectiveBaseFee.toNat * gas < 2 ^ 256) :
    (computeRetryableGasSplit gas effectiveBaseFee infraFeeAccount minBaseFee arbosVersion).1.toNat +
      (computeRetryableGasSplit gas effectiveBaseFee infraFeeAccount minBaseFee arbosVersion).2.toNat =
        effectiveBaseFee.toNat * gas := by
  unfold computeRetryableGasSplit
  split
  · simp only [toNat_takeFunds_taken, toNat_takeFunds_rest, toNat_satMul256_of_lt h]
    omega
  · simp only [toNat_satMul256_of_lt h]
    exact Nat.zero_add _

/-- The pool and what was withheld for the submission fee. -/
def withheldPool (a : SubmitRetryableParams) : U256 × U256 :=
  takeFunds (takeFunds a.depositValue a.retryValue).1
    (retryableSubmissionFee a.retryDataLen a.l1BaseFee)

/-- The pool and the refund of the submission fee. -/
def refundedPool (a : SubmitRetryableParams) : U256 × U256 :=
  takeFunds (withheldPool a).1
    (satSub256 a.maxSubmissionFee (retryableSubmissionFee a.retryDataLen a.l1BaseFee))

/-- The balance the test for gas reads. -/
def gasBalance (a : SubmitRetryableParams) : U256 :=
  let balance := satSub256 (satSub256 a.balanceAfterMint
    (retryableSubmissionFee a.retryDataLen a.l1BaseFee)) a.retryValue
  if a.feeRefundAddr ≠ a.sender then satSub256 balance (refundedPool a).2 else balance

def PaysForGas (a : SubmitRetryableParams) : Prop :=
  ¬ a.gasFeeCap < a.effectiveBaseFee ∧ txGas ≤ a.gas ∧
    ¬ gasBalance a < satMul256 a.gasFeeCap a.gas

instance : Decidable (PaysForGas a) := inferInstanceAs (Decidable (_ ∧ _))

/-- What the function returns where it returns no error. -/
theorem computeSubmitRetryableFees_eq (hbalance : ¬ a.balanceAfterMint < a.maxSubmissionFee)
    (hmax : ¬ a.maxSubmissionFee < retryableSubmissionFee a.retryDataLen a.l1BaseFee) :
    let split := computeRetryableGasSplit a.gas a.effectiveBaseFee a.infraFeeAccount a.minBaseFee
      a.arbosVersion
    let fees : SubmitRetryableFees :=
      { submissionFee := retryableSubmissionFee a.retryDataLen a.l1BaseFee
        submissionFeeRefund := (refundedPool a).2
        timeout := wrap64 (a.currentTime + retryableLifetimeSeconds)
        canPayForGas := decide (PaysForGas a)
        gasCost := satMul256 a.effectiveBaseFee a.gas
        infraCost := split.1
        networkCost := split.2
        withheldSubmissionFee := (withheldPool a).2 }
    let gas := takeFunds (refundedPool a).1 (satMul256 a.effectiveBaseFee a.gas)
    let price := takeFunds gas.1 (satMul256 (satSub256 a.gasFeeCap a.effectiveBaseFee) a.gas)
    let cost := takeFunds (refundedPool a).1 (satMul256 a.gasFeeCap a.gas)
    computeSubmitRetryableFees a =
      if PaysForGas a then
        { fees with
          gasPriceRefund := price.2
          availableRefund := satAdd256 (satAdd256 price.1 gas.2) (withheldPool a).2 }
      else { fees with gasCostRefund := cost.2, availableRefund := cost.1 } := by
  intro split fees gas price cost
  unfold computeSubmitRetryableFees
  rw [if_neg hbalance, if_neg hmax]
  by_cases hpays : PaysForGas a
  · rw [if_pos hpays]
    exact if_pos (decide_eq_true hpays)
  · rw [if_neg hpays]
    exact if_neg fun h => hpays (of_decide_eq_true h)

theorem computeSubmitRetryableFees_checks (herror : (computeSubmitRetryableFees a).error = none) :
    ¬ a.balanceAfterMint < a.maxSubmissionFee ∧
      ¬ a.maxSubmissionFee < retryableSubmissionFee a.retryDataLen a.l1BaseFee := by
  unfold computeSubmitRetryableFees at herror
  constructor
  · intro hbalance
    rw [if_pos hbalance] at herror
    cases herror
  · intro hmax
    by_cases hbalance : a.balanceAfterMint < a.maxSubmissionFee
    · rw [if_pos hbalance] at herror
      cases herror
    · rw [if_neg hbalance, if_pos hmax] at herror
      cases herror

theorem toNat_withheldPool :
    (withheldPool a).1.toNat = a.depositValue.toNat - a.retryValue.toNat -
        (retryableSubmissionFee a.retryDataLen a.l1BaseFee).toNat ∧
      (withheldPool a).2.toNat = min (a.depositValue.toNat - a.retryValue.toNat)
        (retryableSubmissionFee a.retryDataLen a.l1BaseFee).toNat := by
  unfold withheldPool
  rw [toNat_takeFunds_rest, toNat_takeFunds_taken, toNat_takeFunds_rest]
  exact ⟨rfl, rfl⟩

theorem toNat_refundedPool :
    (refundedPool a).1.toNat = (withheldPool a).1.toNat - (refundedPool a).2.toNat ∧
      (refundedPool a).2.toNat = min (withheldPool a).1.toNat (a.maxSubmissionFee.toNat -
        (retryableSubmissionFee a.retryDataLen a.l1BaseFee).toNat) := by
  unfold refundedPool
  rw [toNat_takeFunds_rest, toNat_takeFunds_taken, toNat_satSub256]
  omega

section Pools

variable (h : a.Unsaturated)

include h

theorem toNat_submissionFee :
    (retryableSubmissionFee a.retryDataLen a.l1BaseFee).toNat = submissionFeeAmount a :=
  toNat_satMul256_of_lt h.submission

theorem toNat_feeRefund : (refundedPool a).2.toNat = feeRefundAmount a := by
  rw [toNat_refundedPool.2, toNat_withheldPool.1, toNat_submissionFee h]
  rfl

theorem toNat_gasBalance : (gasBalance a).toNat = balanceForGas a := by
  unfold gasBalance balanceForGas
  split
  · simp only [toNat_satSub256, toNat_submissionFee h, toNat_feeRefund h]
  · simp only [toNat_satSub256, toNat_submissionFee h, Nat.sub_zero]

end Pools

theorem computeSubmitRetryableFees_spec (h : a.Unsaturated)
    (herror : (computeSubmitRetryableFees a).error = none) :
    SubmitFeesSpec a (computeSubmitRetryableFees a) := by
  obtain ⟨hbalance, hmax⟩ := computeSubmitRetryableFees_checks herror
  have hmaxGas := toNat_satMul256_of_lt h.maxGas
  have hgas := toNat_satMul256_of_lt h.gas
  have hsplit := gasSplit_sum a.gas a.effectiveBaseFee a.infraFeeAccount a.minBaseFee a.arbosVersion
    h.gas
  have hbalanceNat : a.maxSubmissionFee.toNat ≤ a.balanceAfterMint.toNat := BitVec.not_lt.mp hbalance
  have hmaxNat : submissionFeeAmount a ≤ a.maxSubmissionFee.toNat :=
    toNat_submissionFee h ▸ BitVec.not_lt.mp hmax
  have hrefund := toNat_feeRefund h
  obtain ⟨hafterFee, hwithheld⟩ := toNat_withheldPool (a := a)
  rw [toNat_submissionFee h] at hafterFee hwithheld
  have hpool : (refundedPool a).1.toNat = depositForGas a := by
    rw [toNat_refundedPool.1, hrefund, hafterFee]
    rfl
  have hdeposit := toNat_le_u256Max a.depositValue
  rw [computeSubmitRetryableFees_eq hbalance hmax]
  by_cases hpays : PaysForGas a
  · have hcap : a.effectiveBaseFee.toNat ≤ a.gasFeeCap.toNat := BitVec.not_lt.mp hpays.1
    have hcovers : a.gasFeeCap.toNat * a.gas ≤ balanceForGas a := by
      rw [← hmaxGas, ← toNat_gasBalance h]
      exact BitVec.not_lt.mp hpays.2.2
    have hprice : (satMul256 (satSub256 a.gasFeeCap a.effectiveBaseFee) a.gas).toNat =
        (a.gasFeeCap.toNat - a.effectiveBaseFee.toNat) * a.gas := by
      rw [← toNat_satSub256]
      refine toNat_satMul256_of_lt (Nat.lt_of_le_of_lt ?_ h.maxGas)
      rw [toNat_satSub256]
      exact Nat.mul_le_mul_right _ (Nat.sub_le _ _)
    rw [if_pos hpays]
    refine ⟨hbalanceNat, hmaxNat, toNat_submissionFee h, hwithheld, hrefund, hgas, hsplit,
      fun _ => ⟨hcap, hcovers, rfl, ?_, ?_⟩, fun hshort => absurd hpays (of_decide_eq_false hshort)⟩
    · rw [toNat_takeFunds_taken, toNat_takeFunds_rest, hpool, hgas, hprice]
    · have hgasSum := toNat_takeFunds_add (refundedPool a).1 (satMul256 a.effectiveBaseFee a.gas)
      have hpriceSum := toNat_takeFunds_add
        (takeFunds (refundedPool a).1 (satMul256 a.effectiveBaseFee a.gas)).1
        (satMul256 (satSub256 a.gasFeeCap a.effectiveBaseFee) a.gas)
      have hfits : depositForGas a + (withheldPool a).2.toNat ≤ a.depositValue.toNat := by
        rw [hwithheld, depositForGas, depositAfterFee]
        omega
      rw [hpool] at hgasSum
      dsimp only
      generalize takeFunds (refundedPool a).1 (satMul256 a.effectiveBaseFee a.gas) = gas at *
      generalize takeFunds gas.1 (satMul256 (satSub256 a.gasFeeCap a.effectiveBaseFee) a.gas) =
        price at *
      have hinner : (satAdd256 price.1 gas.2).toNat = price.1.toNat + gas.2.toNat :=
        toNat_satAdd256_of_le (by omega)
      rw [toNat_satAdd256_of_le (by omega), hinner]
      omega
  · rw [if_neg hpays]
    refine ⟨hbalanceNat, hmaxNat, toNat_submissionFee h, hwithheld, hrefund, hgas, hsplit,
      fun hpays' => absurd (of_decide_eq_true hpays') hpays, fun _ => ⟨rfl, ?_, ?_⟩⟩
    · rw [toNat_takeFunds_taken, hpool, hmaxGas]
    · rw [toNat_takeFunds_rest, hpool, hmaxGas]

end Compute

/-! ## The transfers -/

/-- Transfers one after another, up to the first that lacks funds. -/
def transferAll (w : World) (ts : List Transfer) : Except BalanceError World :=
  ts.foldlM (fun w t => applyBalanceOp w (some t.src) (some t.dst) t.amount) w

/-- A transfer that succeeds takes at most its amount from the source. -/
theorem getBalance_le_of_applyBalanceOp {w w' : World} {src dst : Address} {amount : U256}
    (h : applyBalanceOp w (some src) (some dst) amount = .ok w') :
    (w.getBalance src).toNat ≤ (w'.getBalance src).toNat + amount.toNat := by
  have hw' : transferBalance w src dst amount = w' := by
    unfold transferBalance balanceOp
    rw [h]
  by_cases hlt : w.getBalance src < amount
  · rw [← hw', transferBalance_short hlt]
    exact Nat.le_add_right _ _
  · rw [← hw']
    exact getBalance_transferBalance_src dst hlt

/-- Transfers from an account that holds their sum succeed, and leave at least the rest. -/
theorem transferAll_covered {src : Address} {ts : List Transfer} (hsrc : ∀ t ∈ ts, t.src = src)
    {w : World} (h : paidBy ts ≤ (w.getBalance src).toNat) :
    ∃ w', transferAll w ts = .ok w' ∧
      (w.getBalance src).toNat ≤ (w'.getBalance src).toNat + paidBy ts := by
  induction ts generalizing w with
  | nil => exact ⟨w, rfl, Nat.le_refl _⟩
  | cons t ts ih =>
    obtain ⟨rfl, hrest⟩ := List.forall_mem_cons.mp hsrc
    have hpaid : paidBy (t :: ts) = t.amount.toNat + paidBy ts := by simp [paidBy]
    have hcovered : t.amount.toNat ≤ (w.getBalance t.src).toNat := by omega
    have hleft := getBalance_transferBalance_src t.dst (BitVec.not_lt.mpr hcovered)
    obtain ⟨w', hw', hle⟩ := @ih hrest (transferBalance w t.src t.dst t.amount) (by omega)
    refine ⟨w', ?_, by omega⟩
    unfold transferAll at hw' ⊢
    rw [List.foldlM_cons, applyBalanceOp_covered t.dst hcovered, ok_bind, hw']

section Solvent

variable (a : SubmitRetryableParams) (networkFeeAccount : Address) (f : SubmitRetryableFees)

/-- The transfers before the call value goes into escrow. -/
def feeTransfers : List Transfer :=
  [⟨a.sender, networkFeeAccount, f.submissionFee⟩, ⟨a.sender, a.feeRefundAddr, f.submissionFeeRefund⟩]

/-- The transfers after it. -/
def gasTransfers : List Transfer :=
  if f.canPayForGas then
    [⟨a.sender, a.infraFeeAccount, f.infraCost⟩, ⟨a.sender, networkFeeAccount, f.networkCost⟩,
      ⟨a.sender, a.feeRefundAddr, f.gasPriceRefund⟩]
  else [⟨a.sender, a.feeRefundAddr, f.gasCostRefund⟩]

end Solvent

section Covered

variable {a : SubmitRetryableParams} {f : SubmitRetryableFees} (networkFeeAccount : Address)

/-- Fee and refund are covered; a refund to the sender itself costs nothing. -/
theorem feeTransfers_covered (hspec : SubmitFeesSpec a f) {w : World}
    (hw : w.getBalance a.sender = a.balanceAfterMint) :
    ∃ w', transferAll w (feeTransfers a networkFeeAccount f) = .ok w' ∧
      a.balanceAfterMint.toNat ≤ (w'.getBalance a.sender).toNat + submissionFeeAmount a +
        if a.feeRefundAddr ≠ a.sender then feeRefundAmount a else 0 := by
  have hbalance := hspec.balance_ge
  have hmax := hspec.max_ge
  have hrefund := hspec.refund
  have hfee : f.submissionFee.toNat ≤ (w.getBalance a.sender).toNat := by
    rw [hw, hspec.submissionFee]
    omega
  have hafter := getBalance_transferBalance_src networkFeeAccount (BitVec.not_lt.mpr hfee)
  rw [hspec.submissionFee, hw] at hafter
  have hle : feeRefundAmount a ≤ a.maxSubmissionFee.toNat - submissionFeeAmount a :=
    Nat.min_le_right _ _
  have hcovered : f.submissionFeeRefund.toNat ≤
      ((transferBalance w a.sender networkFeeAccount f.submissionFee).getBalance a.sender).toNat := by
    omega
  refine ⟨transferBalance (transferBalance w a.sender networkFeeAccount f.submissionFee) a.sender
    a.feeRefundAddr f.submissionFeeRefund, ?_, ?_⟩
  · simp only [transferAll, feeTransfers, List.foldlM_cons, List.foldlM_nil,
      applyBalanceOp_covered _ hfee, ok_bind, applyBalanceOp_covered _ hcovered]
    rfl
  · by_cases hself : a.feeRefundAddr = a.sender
    · refine Nat.le_trans ?_ (Nat.add_le_add_right (Nat.add_le_add_right
        (le_getBalance_transferBalance f.submissionFeeRefund (.inr hself.symm)) _) _)
      rw [if_neg (not_not_intro hself)]
      omega
    · have hleft := getBalance_transferBalance_src a.feeRefundAddr (BitVec.not_lt.mpr hcovered)
      rw [if_pos hself]
      omega

/-- What is left after the call value covers the transfers for gas. -/
theorem paidBy_gasTransfers_le (hspec : SubmitFeesSpec a f)
    (hdeposit : a.depositValue.toNat ≤ a.balanceAfterMint.toNat) {balance : Nat}
    (hleft : a.balanceAfterMint.toNat ≤ balance + a.retryValue.toNat + submissionFeeAmount a +
      if a.feeRefundAddr ≠ a.sender then feeRefundAmount a else 0) :
    paidBy (gasTransfers a networkFeeAccount f) ≤ balance := by
  have hsplit := hspec.split
  cases hpays : f.canPayForGas with
  | true =>
    obtain ⟨hcap, hcovers, -, hprice, -⟩ := hspec.pays hpays
    have hsum : a.effectiveBaseFee.toNat * a.gas +
        (a.gasFeeCap.toNat - a.effectiveBaseFee.toNat) * a.gas = a.gasFeeCap.toNat * a.gas := by
      rw [← Nat.add_mul, Nat.add_sub_cancel' hcap]
    simp only [gasTransfers, hpays, if_true, paidBy, List.map_cons, List.map_nil, List.sum_cons,
      List.sum_nil]
    unfold balanceForGas at hcovers
    omega
  | false =>
    obtain ⟨-, hcost, -⟩ := hspec.short hpays
    simp only [gasTransfers, hpays, Bool.false_eq_true, if_false, paidBy, List.map_cons,
      List.map_nil, List.sum_cons, List.sum_nil]
    unfold depositForGas depositAfterFee at hcost
    split at hleft <;> omega

/-- Submitting a retryable: the fee and its refund stay within the maximum, the gas cost is
    split without rest, the deposit is accounted for to the last wei, and of the transfers, made
    in order from any state in which the sender holds the balance that was read, only the one of
    the call value can lack funds. -/
theorem submit_fees_conserved_and_solvent (h : a.Unsaturated)
    (hdeposit : a.depositValue.toNat ≤ a.balanceAfterMint.toNat)
    (herror : (computeSubmitRetryableFees a).error = none) :
    let f := computeSubmitRetryableFees a
    f.submissionFee.toNat + f.submissionFeeRefund.toNat ≤ a.maxSubmissionFee.toNat ∧
    f.infraCost.toNat + f.networkCost.toNat = f.gasCost.toNat ∧
    f.gasCost.toNat = a.effectiveBaseFee.toNat * a.gas ∧
    min a.depositValue.toNat a.retryValue.toNat + f.submissionFeeRefund.toNat +
        f.gasPriceRefund.toNat + f.gasCostRefund.toNat + f.availableRefund.toNat +
        (if f.canPayForGas then 0 else f.withheldSubmissionFee.toNat) = a.depositValue.toNat ∧
    ∀ (w : World) (networkFeeAccount escrow : Address),
      w.getBalance a.sender = a.balanceAfterMint →
      ∃ w₁, transferAll w (feeTransfers a networkFeeAccount f) = .ok w₁ ∧
        ∀ w₂, applyBalanceOp w₁ (some a.sender) (some escrow) a.retryValue = .ok w₂ →
          ∃ w₃, transferAll w₂ (gasTransfers a networkFeeAccount f) = .ok w₃ := by
  intro f
  have hspec : SubmitFeesSpec a f := computeSubmitRetryableFees_spec h herror
  have hmax := hspec.max_ge
  refine ⟨?_, hspec.split.trans hspec.gasCost.symm, hspec.gasCost, ?_, ?_⟩
  · rw [hspec.submissionFee, hspec.refund]
    unfold feeRefundAmount
    omega
  · have hrefund := hspec.refund
    have hwithheld := hspec.withheld
    cases hpays : f.canPayForGas with
    | true =>
      obtain ⟨-, -, hcost, -, havailable⟩ := hspec.pays hpays
      rw [if_pos rfl]
      unfold depositForGas feeRefundAmount depositAfterFee at *
      omega
    | false =>
      obtain ⟨hprice, hcost, havailable⟩ := hspec.short hpays
      rw [if_neg Bool.false_ne_true]
      unfold depositForGas feeRefundAmount depositAfterFee at *
      omega
  · intro w networkFeeAccount escrow hw
    obtain ⟨w₁, hw₁, hle⟩ := feeTransfers_covered networkFeeAccount hspec hw
    refine ⟨w₁, hw₁, fun w₂ hw₂ => ?_⟩
    have hsrc : ∀ t ∈ gasTransfers a networkFeeAccount f, t.src = a.sender := by
      unfold gasTransfers
      split <;> simp
    have hvalue := getBalance_le_of_applyBalanceOp hw₂
    have hcovered : paidBy (gasTransfers a networkFeeAccount f) ≤ (w₂.getBalance a.sender).toNat :=
      paidBy_gasTransfers_le networkFeeAccount hspec hdeposit (by omega)
    obtain ⟨w₃, hw₃, -⟩ := transferAll_covered hsrc hcovered
    exact ⟨w₃, hw₃⟩

/-- A deposit that pays for everything, with a refund to another account. -/
def sampleSubmission : SubmitRetryableParams where
  ticketId := 9
  sender := 1
  feeRefundAddr := 2
  depositValue := 400000
  retryValue := 50000
  gasFeeCap := 10
  gas := 21000
  maxSubmissionFee := 20000
  retryDataLen := 100
  l1BaseFee := 5
  effectiveBaseFee := 7
  currentTime := 1000
  balanceAfterMint := 500000
  infraFeeAccount := 4
  minBaseFee := 3
  arbosVersion := 60

theorem submit_fees_conserved_and_solvent_sample :
    let f := computeSubmitRetryableFees sampleSubmission
    f.canPayForGas = true ∧
    f.submissionFee.toNat + f.submissionFeeRefund.toNat ≤ 20000 ∧
    f.infraCost.toNat + f.networkCost.toNat = 7 * 21000 ∧
    50000 + f.submissionFeeRefund.toNat + f.gasPriceRefund.toNat + f.gasCostRefund.toNat +
      f.availableRefund.toNat = 400000 := by
  obtain ⟨hmax, hsplit, hcost, hdeposit, -⟩ :=
    submit_fees_conserved_and_solvent (a := sampleSubmission) ⟨by decide, by decide, by decide⟩
      (by decide) (by decide)
  exact ⟨by decide, hmax, hsplit.trans hcost, hdeposit⟩

end Covered

end Arbreth.Exec
