/-
  What `end_tx_retryable` pays (arbos, tx_processor.rs).

  The function is given its burn and its transfers as closures. Here they record the calls, so
  that the payments of one redemption are a list: the burn of the unused gas, then up to four
  refunds of two transfers each. The refund address is served first, out of a pool that starts
  with the deposit's cap and only shrinks; the sender gets what the pool does not cover.
-/
import Arbreth.Exec.TxProcessor

namespace Arbreth.Exec

open Arbreth.Lib

/-- A call of `transfer_fn`. -/
structure Transfer where
  src : Address
  dst : Address
  amount : U256
  deriving DecidableEq

/-- A call of one of the closures. -/
inductive Payment where
  | burn (account : Address) (amount : U256)
  | transfer (t : Transfer)
  deriving DecidableEq

def recordBurn (calls : List Payment) (account : Address) (amount : U256) : List Payment :=
  calls ++ [.burn account amount]

def recordTransfer (calls : List Payment) (src dst : Address) (amount : U256) : List Payment :=
  calls ++ [.transfer ⟨src, dst, amount⟩]

/-- The sum of the amounts. -/
def paidBy (ts : List Transfer) : Nat := (ts.map fun t => t.amount.toNat).sum

/-- The sum of the amounts sent to the accounts with a property. -/
def sentTo (P : Address → Bool) (ts : List Transfer) : Nat := paidBy (ts.filter fun t => P t.dst)

theorem paidBy_append (ts us : List Transfer) : paidBy (ts ++ us) = paidBy ts + paidBy us := by
  simp [paidBy]

theorem sentTo_append (P : Address → Bool) (ts us : List Transfer) :
    sentTo P (ts ++ us) = sentTo P ts + sentTo P us := by
  simp [sentTo, paidBy_append]

/-! ## The calls -/

section Calls

variable (a : EndTxRetryableParams)

/-- The two transfers of one refund. -/
def refundTransfers (src : Address) (amount pool : U256) : List Transfer :=
  [⟨src, a.refundTo, (takeFunds pool amount).2⟩,
    ⟨src, a.sender, satSub256 amount (takeFunds pool amount).2⟩]

def gasRefundAmount : U256 := satMul256 a.effectiveBaseFee a.gasLeft

def singleGasCost : U256 := satMul256 a.effectiveBaseFee a.gasUsed

abbrev paysInfra : Prop := 11 ≤ a.arbosVersion ∧ a.infraFeeAccount ≠ 0

/-- The infra account's part of the unused gas. -/
def infraRefund : U256 :=
  if paysInfra a then
    (takeFunds (gasRefundAmount a)
      (satMul256 (if a.minBaseFee < a.effectiveBaseFee then a.minBaseFee else a.effectiveBaseFee)
        a.gasLeft)).2
  else 0

/-- The network account's part of the unused gas. -/
def networkRefund : U256 := (takeFunds (gasRefundAmount a) (infraRefund a)).1

/-- What the multi-gas refund gives back; zero where it does not apply. -/
def multiRefund : U256 :=
  match a.multiDimensionalCost with
  | some multiCost =>
    if multiCost < singleGasCost a ∧ a.effectiveBaseFee = a.blockBaseFee then
      satSub256 (singleGasCost a) multiCost
    else 0
  | none => 0

/-- The pool once the submission fee and the gas that was used are taken from it. -/
def poolAfterGas : U256 :=
  (takeFunds (takeFunds a.maxRefund a.submissionFeeRefund).1 (singleGasCost a)).1

def poolAfterInfra : U256 := (takeFunds (poolAfterGas a) (infraRefund a)).1

def poolAfterNetwork : U256 := (takeFunds (poolAfterInfra a) (networkRefund a)).1

def submissionTransfers : List Transfer :=
  if a.success then refundTransfers a a.networkFeeAccount a.submissionFeeRefund a.maxRefund else []

def infraTransfers : List Transfer :=
  if paysInfra a then refundTransfers a a.infraFeeAccount (infraRefund a) (poolAfterGas a) else []

def networkTransfers : List Transfer :=
  refundTransfers a a.networkFeeAccount (networkRefund a) (poolAfterInfra a)

def multiTransfers : List Transfer :=
  match a.multiDimensionalCost with
  | some multiCost =>
    if multiCost < singleGasCost a ∧ a.effectiveBaseFee = a.blockBaseFee then
      refundTransfers a a.networkFeeAccount (multiRefund a) (poolAfterNetwork a)
    else []
  | none => []

/-- All calls of `transfer_fn`, in order. -/
def retryTransfers : List Transfer :=
  submissionTransfers a ++ infraTransfers a ++ networkTransfers a ++ multiTransfers a

end Calls

/-- Make the calls one after the other. -/
def play {σ : Type} (transferFn : σ → Address → Address → U256 → σ) (s : σ) (ts : List Transfer) : σ :=
  ts.foldl (fun s t => transferFn s t.src t.dst t.amount) s

theorem play_record (calls : List Payment) (ts : List Transfer) :
    play recordTransfer calls ts = calls ++ ts.map .transfer := by
  induction ts generalizing calls with
  | nil => simp [play]
  | cons t ts ih =>
    have hstep : play recordTransfer calls (t :: ts) =
        play recordTransfer (calls ++ [.transfer t]) ts := rfl
    rw [hstep, ih, List.map_cons, List.append_assoc, List.singleton_append]

section Recorded

variable {a : EndTxRetryableParams}

section Played

variable {σ : Type} {transferFn : σ → Address → Address → U256 → σ}

variable (s : σ)

theorem refundWithPool_played (src : Address) (amount pool : U256) :
    refundWithPool transferFn s src amount pool a.refundTo a.sender =
      (play transferFn s (refundTransfers a src amount pool), (takeFunds pool amount).1) := rfl

theorem refundSubmissionFee_played :
    refundSubmissionFee transferFn a s =
      (play transferFn s (submissionTransfers a), (takeFunds a.maxRefund a.submissionFeeRefund).1) := by
  unfold refundSubmissionFee submissionTransfers
  by_cases hs : a.success
  · rw [if_pos hs, if_pos hs, refundWithPool_played]
  · rw [if_neg hs, if_neg hs]
    rfl

theorem takeFunds_zero (pool : U256) : (takeFunds pool 0).1 = pool := by
  refine BitVec.eq_of_toNat_eq ?_
  rw [toNat_takeFunds_rest]
  rfl

/-- Taking from the unused gas what was taken from it gives the same rest. -/
theorem networkRefund_of_paysInfra (h : paysInfra a) :
    networkRefund a = (takeFunds (gasRefundAmount a)
      (satMul256 (if a.minBaseFee < a.effectiveBaseFee then a.minBaseFee else a.effectiveBaseFee)
        a.gasLeft)).1 := by
  refine BitVec.eq_of_toNat_eq ?_
  rw [networkRefund, infraRefund, if_pos h, toNat_takeFunds_rest, toNat_takeFunds_rest,
    toNat_takeFunds_taken]
  omega

theorem refundInfraGas_played :
    refundInfraGas transferFn a (gasRefundAmount a) s (poolAfterGas a) =
      (play transferFn s (infraTransfers a), poolAfterInfra a, networkRefund a) := by
  unfold refundInfraGas infraTransfers poolAfterInfra
  by_cases h : paysInfra a
  · have hinfra : infraRefund a = _ := if_pos h
    rw [if_pos h, if_pos h, networkRefund_of_paysInfra h, hinfra]
    simp only [refundWithPool_played]
  · have hinfra : infraRefund a = 0 := if_neg h
    rw [if_neg h, if_neg h, networkRefund, hinfra, takeFunds_zero, takeFunds_zero]
    rfl

theorem refundMultiDimensional_played :
    refundMultiDimensional transferFn a (singleGasCost a) s (poolAfterNetwork a) =
      play transferFn s (multiTransfers a) := by
  unfold refundMultiDimensional multiTransfers multiRefund
  cases a.multiDimensionalCost with
  | none => rfl
  | some multiCost =>
    dsimp only
    split
    · rw [refundWithPool_played]
    · rfl

/-- Whatever the closures do, a redemption ends with one burn and then the refunds. -/
theorem endTxRetryable_played (burnFn : σ → Address → U256 → σ) (a : EndTxRetryableParams) (s : σ) :
    endTxRetryable burnFn transferFn a s =
      play transferFn (burnFn s a.sender (gasRefundAmount a)) (retryTransfers a) := by
  have hshape : endTxRetryable burnFn transferFn a s =
      refundMultiDimensional transferFn a (singleGasCost a)
        (play transferFn (play transferFn (play transferFn (burnFn s a.sender (gasRefundAmount a))
          (submissionTransfers a)) (infraTransfers a)) (networkTransfers a)) (poolAfterNetwork a) := by
    unfold endTxRetryable
    simp only [refundSubmissionFee_played, refundWithPool_played]
    rw [show satMul256 a.effectiveBaseFee a.gasLeft = gasRefundAmount a from rfl,
      show (takeFunds (takeFunds a.maxRefund a.submissionFeeRefund).1
        (satMul256 a.effectiveBaseFee a.gasUsed)).1 = poolAfterGas a from rfl,
      refundInfraGas_played]
    rfl
  rw [hshape, refundMultiDimensional_played]
  simp only [play, retryTransfers, List.foldl_append]

end Played

/-- The payments of a redemption. -/
theorem endTxRetryable_record (a : EndTxRetryableParams) :
    endTxRetryable recordBurn recordTransfer a [] =
      .burn a.sender (gasRefundAmount a) :: (retryTransfers a).map .transfer := by
  rw [endTxRetryable_played, play_record]
  rfl

/-! ## Sums -/

/-- The transfers are one refund of this amount, or none because there is nothing to refund. -/
def IsRefund (a : EndTxRetryableParams) (src : Address) (amount pool : U256) (ts : List Transfer) :
    Prop :=
  ts = refundTransfers a src amount pool ∨ ts = [] ∧ amount = 0

section IsRefund

variable {src : Address} {amount pool : U256} {ts : List Transfer}

theorem IsRefund.src_eq (h : IsRefund a src amount pool ts) : ∀ t ∈ ts, t.src = src := by
  rcases h with rfl | ⟨rfl, _⟩
  · simp [refundTransfers]
  · simp

theorem IsRefund.dst_eq (h : IsRefund a src amount pool ts) :
    ∀ t ∈ ts, t.dst = a.refundTo ∨ t.dst = a.sender := by
  rcases h with rfl | ⟨rfl, _⟩
  · simp [refundTransfers]
  · simp

theorem IsRefund.paidBy_eq (h : IsRefund a src amount pool ts) : paidBy ts = amount.toNat := by
  rcases h with rfl | ⟨rfl, rfl⟩
  · simp [paidBy, refundTransfers]
  · rfl

/-- Every refund goes to the refund address or to the sender. -/
theorem IsRefund.sentTo_both (h : IsRefund a src amount pool ts) :
    sentTo (fun d => d = a.refundTo || d = a.sender) ts = amount.toNat := by
  rw [← h.paidBy_eq]
  rcases h with rfl | ⟨rfl, _⟩
  · simp [sentTo, refundTransfers]
  · rfl

/-- The refund address gets what the pool still holds. -/
theorem IsRefund.sentTo_refundTo (h : IsRefund a src amount pool ts) (hne : a.refundTo ≠ a.sender) :
    sentTo (fun d => d = a.refundTo) ts = min pool.toNat amount.toNat := by
  rcases h with rfl | ⟨rfl, rfl⟩
  · simp [sentTo, paidBy, refundTransfers, hne.symm]
  · simp [sentTo, paidBy]

end IsRefund

theorem isRefund_submission (a : EndTxRetryableParams) :
    IsRefund a a.networkFeeAccount (if a.success then a.submissionFeeRefund else 0) a.maxRefund
      (submissionTransfers a) := by
  unfold submissionTransfers
  split
  · exact .inl rfl
  · exact .inr ⟨rfl, rfl⟩

theorem isRefund_infra (a : EndTxRetryableParams) :
    IsRefund a a.infraFeeAccount (infraRefund a) (poolAfterGas a) (infraTransfers a) := by
  by_cases h : paysInfra a
  · exact .inl (if_pos h)
  · exact .inr ⟨if_neg h, if_neg h⟩

theorem isRefund_network (a : EndTxRetryableParams) :
    IsRefund a a.networkFeeAccount (networkRefund a) (poolAfterInfra a) (networkTransfers a) :=
  .inl rfl

theorem isRefund_multi (a : EndTxRetryableParams) :
    IsRefund a a.networkFeeAccount (multiRefund a) (poolAfterNetwork a) (multiTransfers a) := by
  unfold multiTransfers multiRefund
  cases a.multiDimensionalCost with
  | none => exact .inr ⟨rfl, rfl⟩
  | some multiCost =>
    dsimp only
    split
    · exact .inl rfl
    · exact .inr ⟨rfl, rfl⟩

/-- Refunds go from a fee account to the refund address or the sender. -/
theorem ends_of_mem_retryTransfers {t : Transfer} (ht : t ∈ retryTransfers a) :
    (t.src = a.networkFeeAccount ∨ t.src = a.infraFeeAccount) ∧
      (t.dst = a.refundTo ∨ t.dst = a.sender) := by
  rcases List.mem_append.mp ht with ht | ht
  · rcases List.mem_append.mp ht with ht | ht
    · rcases List.mem_append.mp ht with ht | ht
      · exact ⟨.inl ((isRefund_submission a).src_eq t ht), (isRefund_submission a).dst_eq t ht⟩
      · exact ⟨.inr ((isRefund_infra a).src_eq t ht), (isRefund_infra a).dst_eq t ht⟩
    · exact ⟨.inl ((isRefund_network a).src_eq t ht), (isRefund_network a).dst_eq t ht⟩
  · exact ⟨.inl ((isRefund_multi a).src_eq t ht), (isRefund_multi a).dst_eq t ht⟩

/-- The end of a redemption keeps what a burn from the sender and the transfers from the fee
    accounts to the refund address and the sender keep. -/
theorem endTxRetryable_inv {σ : Type} {P : σ → Prop} {burnFn : σ → Address → U256 → σ}
    {transferFn : σ → Address → Address → U256 → σ} (hburn : ∀ s m, P s → P (burnFn s a.sender m))
    (htransfer : ∀ s src dst m, (src = a.networkFeeAccount ∨ src = a.infraFeeAccount) →
      (dst = a.refundTo ∨ dst = a.sender) → P s → P (transferFn s src dst m))
    {s : σ} (h : P s) : P (endTxRetryable burnFn transferFn a s) := by
  rw [endTxRetryable_played]
  refine List.foldlRecOn _ _ (hburn s _ h) fun s hs t ht => ?_
  obtain ⟨hsrc, hdst⟩ := ends_of_mem_retryTransfers ht
  exact htransfer s t.src t.dst t.amount hsrc hdst hs

theorem infraRefund_le (a : EndTxRetryableParams) :
    (infraRefund a).toNat ≤ min a.minBaseFee.toNat a.effectiveBaseFee.toNat * a.gasLeft := by
  unfold infraRefund
  split
  · rw [toNat_takeFunds_taken, toNat_satMul256, show (if a.minBaseFee < a.effectiveBaseFee then
      a.minBaseFee else a.effectiveBaseFee) = min256 a.minBaseFee a.effectiveBaseFee from rfl,
      toNat_min256]
    omega
  · exact Nat.zero_le _

theorem infra_add_network (a : EndTxRetryableParams) :
    (infraRefund a).toNat + (networkRefund a).toNat = (gasRefundAmount a).toNat := by
  have hle : (infraRefund a).toNat ≤ (gasRefundAmount a).toNat := by
    unfold infraRefund
    split
    · rw [toNat_takeFunds_taken]
      exact Nat.min_le_left _ _
    · exact Nat.zero_le _
  rw [networkRefund, toNat_takeFunds_rest]
  omega

/-- The multi-gas refund in naturals. -/
def multiRefundAmount (a : EndTxRetryableParams) : Nat :=
  match a.multiDimensionalCost with
  | some multiCost =>
    if multiCost.toNat < a.effectiveBaseFee.toNat * a.gasUsed ∧
        a.effectiveBaseFee = a.blockBaseFee then
      a.effectiveBaseFee.toNat * a.gasUsed - multiCost.toNat
    else 0
  | none => 0

theorem toNat_multiRefund (hused : a.effectiveBaseFee.toNat * a.gasUsed < 2 ^ 256) :
    (multiRefund a).toNat = multiRefundAmount a := by
  have hsingle : (singleGasCost a).toNat = a.effectiveBaseFee.toNat * a.gasUsed :=
    toNat_satMul256_of_lt hused
  unfold multiRefund multiRefundAmount
  cases a.multiDimensionalCost with
  | none => rfl
  | some multiCost =>
    simp only [BitVec.lt_def, hsingle]
    split
    · rw [toNat_satSub256, hsingle]
    · rfl

/-- The refund address gets no more than the pool: each refund to it is taken from the pool. -/
theorem sentTo_refundTo_le (hne : a.refundTo ≠ a.sender) :
    sentTo (fun d => d = a.refundTo) (retryTransfers a) ≤ a.maxRefund.toNat := by
  have hsubmission : (if a.success then a.submissionFeeRefund else 0).toNat ≤
      a.submissionFeeRefund.toNat := by
    split
    · exact Nat.le_refl _
    · exact Nat.zero_le _
  rw [retryTransfers, sentTo_append, sentTo_append, sentTo_append,
    (isRefund_submission a).sentTo_refundTo hne, (isRefund_infra a).sentTo_refundTo hne,
    (isRefund_network a).sentTo_refundTo hne, (isRefund_multi a).sentTo_refundTo hne,
    poolAfterNetwork, poolAfterInfra, poolAfterGas]
  simp only [toNat_takeFunds_rest]
  omega

/-- The refunds of a redemption: within the deposit's cap, complete, from the right accounts,
    and for unused gas exactly what was burned. -/
theorem retry_refunds_respect_deposit (a : EndTxRetryableParams)
    (hleft : a.effectiveBaseFee.toNat * a.gasLeft < 2 ^ 256)
    (hused : a.effectiveBaseFee.toNat * a.gasUsed < 2 ^ 256) :
    ∃ burned, burned.toNat = a.effectiveBaseFee.toNat * a.gasLeft ∧
      endTxRetryable recordBurn recordTransfer a [] =
        .burn a.sender burned :: (retryTransfers a).map .transfer ∧
      retryTransfers a =
        submissionTransfers a ++ infraTransfers a ++ networkTransfers a ++ multiTransfers a ∧
      (a.refundTo ≠ a.sender →
        sentTo (fun d => d = a.refundTo) (retryTransfers a) ≤ a.maxRefund.toNat) ∧
      sentTo (fun d => d = a.refundTo || d = a.sender) (retryTransfers a) =
        (if a.success then a.submissionFeeRefund.toNat else 0) +
          a.effectiveBaseFee.toNat * a.gasLeft + multiRefundAmount a ∧
      (∀ t ∈ submissionTransfers a ++ networkTransfers a ++ multiTransfers a,
        t.src = a.networkFeeAccount) ∧
      (∀ t ∈ infraTransfers a, t.src = a.infraFeeAccount) ∧
      paidBy (infraTransfers a) ≤ min a.minBaseFee.toNat a.effectiveBaseFee.toNat * a.gasLeft ∧
      paidBy (infraTransfers a ++ networkTransfers a) = burned.toNat := by
  have hburned : (gasRefundAmount a).toNat = a.effectiveBaseFee.toNat * a.gasLeft :=
    toNat_satMul256_of_lt hleft
  have hsum := infra_add_network a
  refine ⟨gasRefundAmount a, hburned, endTxRetryable_record a, rfl, sentTo_refundTo_le, ?_, ?_,
    (isRefund_infra a).src_eq, ?_, ?_⟩
  · have hsubmission : (if a.success then a.submissionFeeRefund else 0).toNat =
        if a.success then a.submissionFeeRefund.toNat else 0 := by
      split <;> rfl
    rw [retryTransfers, sentTo_append, sentTo_append, sentTo_append,
      (isRefund_submission a).sentTo_both, (isRefund_infra a).sentTo_both,
      (isRefund_network a).sentTo_both, (isRefund_multi a).sentTo_both, toNat_multiRefund hused,
      hsubmission]
    omega
  · intro t ht
    rcases List.mem_append.mp ht with ht | ht
    · rcases List.mem_append.mp ht with ht | ht
      · exact (isRefund_submission a).src_eq t ht
      · exact (isRefund_network a).src_eq t ht
    · exact (isRefund_multi a).src_eq t ht
  · rw [(isRefund_infra a).paidBy_eq]
    exact infraRefund_le a
  · rw [paidBy_append, (isRefund_infra a).paidBy_eq, (isRefund_network a).paidBy_eq, hsum]

/-- A redemption with all four refunds. -/
def sampleRetryEnd : EndTxRetryableParams where
  gasLeft := 10
  gasUsed := 5
  effectiveBaseFee := 7
  sender := 1
  refundTo := 2
  maxRefund := 90
  submissionFeeRefund := 20
  success := true
  networkFeeAccount := 3
  infraFeeAccount := 4
  minBaseFee := 3
  arbosVersion := 60
  multiDimensionalCost := some 15
  blockBaseFee := 7

theorem retry_refunds_respect_deposit_sample :
    sentTo (fun d => d = 2) (retryTransfers sampleRetryEnd) ≤ 90 ∧
      sentTo (fun d => d = 2 || d = 1) (retryTransfers sampleRetryEnd) = 20 + 70 + 20 := by
  obtain ⟨_, _, _, _, hcap, hboth, _⟩ :=
    retry_refunds_respect_deposit sampleRetryEnd (by decide) (by decide)
  exact ⟨hcap (by decide), hboth.trans (by decide)⟩

end Recorded

end Arbreth.Exec
