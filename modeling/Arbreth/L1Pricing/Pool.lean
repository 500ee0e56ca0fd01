/-
  Solvency of the L1 pricer's pool.

  Everything that moves the pool's balance or the fees counted as available: the distribution of
  fees at the end of a transaction, spending reports with the executor's transfer closure, the
  owner's release of surplus funds (arb-precompiles, arbowner.rs), and deposits. The balance
  covers the available fees in every state (`l1_pool_solvent`), so no transfer of a report fails.

  The refund of ArbOS 60 is taken from the network fee account. Where the pool is that account, and
  the base fee was lowered after the block began, it may be more than the pool's shares
  (`refund_from_pool_breaks_solvency`).
-/
import Arbreth.Exec.Tips
import Arbreth.L1Pricing.Spending

namespace Arbreth.L1Pricing

open Arbreth.Lib Arbreth.Exec
open Arbreth.L2Pricing (ResourceKind multiDimensionalPrice)

/-- The executor, whose world holds the two counters it writes, and the other pricing fields. -/
structure PoolState where
  executor : Executor
  slots : L1PricingSlots

namespace PoolState

def pricing (s : PoolState) : L1PricingState :=
  { s.slots with
    unitsSinceUpdate := s.executor.world.unitsSinceUpdate
    l1FeesAvailable := s.executor.world.l1FeesAvailable }

def poolBalance (s : PoolState) : U256 := s.executor.world.getBalance l1PricerFundsPoolAddress

def withWorld (s : PoolState) (w : World) : PoolState :=
  { s with executor := { s.executor with world := w } }

/-- The step of the upgrade to ArbOS 10. -/
def upgradeToVersion10 (s : PoolState) : PoolState :=
  s.withWorld { s.executor.world with l1FeesAvailable := s.poolBalance }

/-- Perform the transfers of a report, in order. -/
def performTransfers (e : Executor) (ts : List Transfer) : Executor :=
  ts.foldl (fun e t => e.doTransfer t.src t.dst t.amount) e

/-- `update_for_batch_poster_spending` with the executor's transfer closure. -/
def report (s : PoolState) (r : SpendingReport) : PoolState :=
  let u := s.pricing.updateForBatchPosterSpending r
  let e := performTransfers s.executor u.2.2
  { executor := { e with world := { e.world with
      unitsSinceUpdate := u.2.1.unitsSinceUpdate
      l1FeesAvailable := u.2.1.l1FeesAvailable } }
    slots := u.2.1.toL1PricingSlots }

/-- `ArbOwner.releaseL1PricerSurplusFunds`. -/
def releaseL1PricerSurplusFunds (w : World) (maxWei : U256) : World :=
  let poolBalance := w.getBalance l1PricerFundsPoolAddress
  let recognized := w.l1FeesAvailable
  if poolBalance ≤ recognized then w
  else { w with l1FeesAvailable := recognized + min256 maxWei (poolBalance - recognized) }

end PoolState

/-- The fees of a transaction, with the hooks and the block they are distributed in, the base fee of
    the moment and the block's fees per resource. -/
structure Distribution where
  hooks : Hooks
  ctx : BlockCtx
  baseFeeWei : U256
  multiGasCurrentFees : ResourceKind → U256
  pending : Pending
  gasUsed : Nat

namespace Distribution

variable (d : Distribution)

def fees : EndTxFeeDistribution := computeEndTxFees d.hooks d.gasUsed d.ctx.basefee

/-- The refund of ArbOS 60. -/
def refund : U256 :=
  satSub256 (satMul256 d.ctx.basefee d.gasUsed)
    (multiDimensionalPrice d.baseFeeWei d.pending.chargedMultiGas d.multiGasCurrentFees)

/-- What the pool gets as network or infrastructure account. -/
def poolShare : Nat :=
  gets l1PricerFundsPoolAddress d.fees.networkFeeAccount d.fees.networkFeeAmount +
    gets l1PricerFundsPoolAddress d.fees.infraFeeAccount d.fees.infraFeeAmount

/-- The executor in which the fees are distributed. -/
def enter (e : Executor) : Executor :=
  { e with
    world := { e.world with baseFeeWei := d.baseFeeWei }
    hooks := some d.hooks
    ctx := d.ctx
    multiGasCurrentFees := d.multiGasCurrentFees }

end Distribution

/-- A deposit is minted or comes from an account. -/
inductive PoolAction where
  | distribute (d : Distribution)
  | report (r : SpendingReport)
  | release (maxWei : U256)
  | deposit (src : Option Address) (amount : U256)

namespace PoolState

def step (s : PoolState) : PoolAction → Option PoolState
  | .distribute d =>
    some { s with executor := settleNormal (d.enter s.executor) d.pending d.gasUsed }
  | .report r => some (s.report r)
  | .release maxWei => some (s.withWorld (releaseL1PricerSurplusFunds s.executor.world maxWei))
  | .deposit src amount =>
    some (s.withWorld
      (balanceOp s.executor.world src (some l1PricerFundsPoolAddress) amount))

/-- A refund that is taken from the pool is within what the pool gets as network or infrastructure
    account, and its balance does not saturate. -/
def RefundCovered (s : PoolState) (d : Distribution) : Prop :=
  60 ≤ d.ctx.arbosVersion → d.hooks.networkFeeAccount = l1PricerFundsPoolAddress →
    d.refund.toNat ≤ d.poolShare ∧
      s.poolBalance.toNat + d.fees.paidTo l1PricerFundsPoolAddress < 2 ^ 256

instance (s : PoolState) (d : Distribution) : Decidable (s.RefundCovered d) :=
  inferInstanceAs (Decidable (_ → _ → _ ∧ _))

/-- Fees are distributed at ArbOS 10 or later, with a refund the pool's shares cover. -/
def Allowed (s : PoolState) : PoolAction → Prop
  | .distribute d => 10 ≤ d.hooks.arbosVersion ∧ s.RefundCovered d
  | _ => True

instance (s : PoolState) (a : PoolAction) : Decidable (s.Allowed a) := by
  unfold Allowed
  cases a <;> infer_instance

/-- The pool covers the available fees. -/
def Solvent (s : PoolState) : Prop := s.executor.world.l1FeesAvailable.toNat ≤ s.poolBalance.toNat

/-- Each transfer is covered when its turn comes, so that the balance operation succeeds. -/
def AllCovered : Executor → List Transfer → Prop
  | _, [] => True
  | e, t :: ts => t.amount.toNat ≤ (e.world.getBalance t.src).toNat ∧
      (applyBalanceOp e.world (some t.src) (some t.dst) t.amount).isOk = true ∧
      AllCovered (e.doTransfer t.src t.dst t.amount) ts

/-! ## Transfers from the pool -/

theorem applyBalanceOp_isOk {w : World} {src dst : Address} {amount : U256}
    (h : amount.toNat ≤ (w.getBalance src).toNat) :
    (applyBalanceOp w (some src) (some dst) amount).isOk = true := by
  have hlt : ¬ w.getBalance src < amount := BitVec.not_lt.mpr h
  unfold applyBalanceOp
  split
  · rfl
  · dsimp only
    rw [if_neg hlt]
    rfl

/-- Transfers from the pool that it covers together are covered one by one, and leave the rest. -/
theorem performTransfers_spec {e : Executor} {ts : List Transfer}
    (hsrc : ∀ t ∈ ts, t.src = l1PricerFundsPoolAddress)
    (hcover : (ts.map fun t => t.amount.toNat).sum ≤
      (e.world.getBalance l1PricerFundsPoolAddress).toNat) :
    AllCovered e ts ∧ (e.world.getBalance l1PricerFundsPoolAddress).toNat ≤
      ((performTransfers e ts).world.getBalance l1PricerFundsPoolAddress).toNat +
        (ts.map fun t => t.amount.toNat).sum := by
  induction ts generalizing e with
  | nil => exact ⟨trivial, Nat.le_refl _⟩
  | cons t ts ih =>
    have ht : t.src = l1PricerFundsPoolAddress := hsrc t (List.mem_cons_self ..)
    rw [List.map_cons, List.sum_cons] at hcover ⊢
    have hone : t.amount.toNat ≤ (e.world.getBalance l1PricerFundsPoolAddress).toNat :=
      (Nat.le_add_right _ _).trans hcover
    have hleft : (e.world.getBalance l1PricerFundsPoolAddress).toNat ≤
        ((e.doTransfer t.src t.dst t.amount).world.getBalance l1PricerFundsPoolAddress).toNat +
          t.amount.toNat := by
      rw [getBalance_doTransfer, ht]
      exact getBalance_transferBalance_src t.dst (BitVec.not_lt.mpr hone)
    obtain ⟨hrest, hend⟩ := ih (e := e.doTransfer t.src t.dst t.amount)
      (fun u hu => hsrc u (List.mem_cons_of_mem t hu)) (by omega)
    refine ⟨⟨ht ▸ hone, applyBalanceOp_isOk (ht ▸ hone), hrest⟩, ?_⟩
    change _ ≤ ((performTransfers (e.doTransfer t.src t.dst t.amount) ts).world.getBalance
      l1PricerFundsPoolAddress).toNat + _
    omega

/-- What a report pays and what it leaves of the fees are the fees. -/
theorem update_pays (p : L1PricingState) (r : SpendingReport) :
    (p.updateForBatchPosterSpending r).2.1.l1FeesAvailable.toNat +
      ((p.updateForBatchPosterSpending r).2.2.map fun t => t.amount.toNat).sum =
      p.l1FeesAvailable.toNat ∧
    ∀ t ∈ (p.updateForBatchPosterSpending r).2.2, t.src = l1PricerFundsPoolAddress := by
  rcases p.update_cases r with hu | hu | hu
  · rw [hu]
    exact ⟨rfl, fun t ht => (nomatch ht)⟩
  · rw [hu]
    exact ⟨rfl, fun t ht => (nomatch ht)⟩
  · rw [hu]
    exact (p.opened r.batchPoster).accepted_pays r

variable {s : PoolState}

theorem covered_of_solvent (h : s.Solvent) (r : SpendingReport) :
    AllCovered s.executor (s.pricing.updateForBatchPosterSpending r).2.2 := by
  obtain ⟨hfees, hsrc⟩ := update_pays s.pricing r
  refine (performTransfers_spec hsrc ?_).1
  exact (Nat.le_add_left _ _).trans (hfees.le.trans h)

theorem solvent_report (h : s.Solvent) (r : SpendingReport) : (s.report r).Solvent := by
  obtain ⟨hfees, hsrc⟩ := update_pays s.pricing r
  have hle : s.pricing.l1FeesAvailable.toNat ≤ s.poolBalance.toNat := h
  have hend := (performTransfers_spec (e := s.executor) hsrc
    ((Nat.le_add_left _ _).trans (hfees.le.trans h))).2
  change _ ≤ ((performTransfers s.executor _).world.getBalance l1PricerFundsPoolAddress).toNat
  change (s.pricing.updateForBatchPosterSpending r).2.1.l1FeesAvailable.toNat ≤ _
  unfold poolBalance at hle
  omega

theorem solvent_release (h : s.Solvent) (maxWei : U256) :
    (s.withWorld (releaseL1PricerSurplusFunds s.executor.world maxWei)).Solvent := by
  unfold Solvent poolBalance at *
  dsimp only [withWorld, releaseL1PricerSurplusFunds]
  by_cases hle :
      s.executor.world.getBalance l1PricerFundsPoolAddress ≤ s.executor.world.l1FeesAvailable
  · rw [if_pos hle]
    exact h
  · rw [if_neg hle]
    change (s.executor.world.l1FeesAvailable + min256 maxWei
      (s.executor.world.getBalance l1PricerFundsPoolAddress - s.executor.world.l1FeesAvailable)).toNat ≤
        (s.executor.world.getBalance l1PricerFundsPoolAddress).toNat
    generalize s.executor.world.getBalance l1PricerFundsPoolAddress = b at h hle ⊢
    have hsub : (b - s.executor.world.l1FeesAvailable).toNat =
        b.toNat - s.executor.world.l1FeesAvailable.toNat := BitVec.toNat_sub_of_le h
    have hb := b.isLt
    rw [BitVec.toNat_add, toNat_min256, hsub]
    refine (Nat.mod_le _ _).trans ?_
    omega

theorem solvent_deposit (h : s.Solvent) (src : Option Address) (amount : U256) :
    (s.withWorld (balanceOp s.executor.world src (some l1PricerFundsPoolAddress) amount)).Solvent := by
  unfold Solvent poolBalance at *
  cases src with
  | none =>
    change (mintBalance s.executor.world _ amount).l1FeesAvailable.toNat ≤
      ((mintBalance s.executor.world _ amount).getBalance _).toNat
    rw [mintBalance_eq, l1FeesAvailable_of_books (books_applyMint ..)]
    exact h.trans (le_getBalance_applyMint ..)
  | some a =>
    change (transferBalance s.executor.world a _ amount).l1FeesAvailable.toNat ≤
      ((transferBalance s.executor.world a _ amount).getBalance _).toNat
    rw [l1FeesAvailable_of_books (books_transferBalance ..)]
    exact h.trans (le_getBalance_transferBalance amount (.inr rfl))

/-! ## The distribution of fees -/

/-- From ArbOS 10 on the poster's fee goes to the pool, and the available fees grow by as much. -/
theorem computeEndTxFees_poster {h : Hooks} (hversion : 10 ≤ h.arbosVersion) (gasUsed : Nat)
    (baseFee : U256) :
    let dist := computeEndTxFees h gasUsed baseFee
    dist.posterFeeDestination = l1PricerFundsPoolAddress ∧ dist.l1FeesToAdd = dist.posterFeeAmount :=
  ⟨if_neg (Nat.not_lt.mpr (Nat.le_trans (by decide) hversion)), if_pos hversion⟩

theorem applyFeeDistribution_pool (w : World) {h : Hooks} (hversion : 10 ≤ h.arbosVersion)
    (gasUsed : Nat) (baseFee : U256) :
    (satAdd256 (w.getBalance l1PricerFundsPoolAddress)
      (computeEndTxFees h gasUsed baseFee).l1FeesToAdd).toNat ≤
      ((applyFeeDistribution w (computeEndTxFees h gasUsed baseFee)).getBalance
        l1PricerFundsPoolAddress).toNat := by
  obtain ⟨hdst, hfee⟩ := computeEndTxFees_poster hversion gasUsed baseFee
  rw [hfee]
  generalize computeEndTxFees h gasUsed baseFee = dist at hdst ⊢
  have hbefore := (le_getBalance_applyMint w l1PricerFundsPoolAddress dist.networkFeeAccount
    dist.networkFeeAmount).trans (le_getBalance_applyMint _ l1PricerFundsPoolAddress
      dist.infraFeeAccount dist.infraFeeAmount)
  unfold applyFeeDistribution
  rw [mintBalance_eq, mintBalance_eq, mintBalance_eq, hdst]
  generalize (w.applyMint dist.networkFeeAccount dist.networkFeeAmount).applyMint
    dist.infraFeeAccount dist.infraFeeAmount = w' at hbefore ⊢
  rw [World.getBalance_applyMint, Function.update_self, toNat_satAdd256, toNat_satAdd256]
  omega

theorem books_applyFeeDistribution (w : World) (dist : EndTxFeeDistribution) :
    (applyFeeDistribution w dist).books = w.books := by
  unfold applyFeeDistribution
  simp only [mintBalance_eq, books_applyMint]

/-- The refund takes its amount from the pool at most, and nothing from it where the pool is not the
    network account. -/
theorem refundMultiGas_pool (e : Executor) (p : Pending) (network : Address) (gasUsed : Nat) :
    let refunded := (refundMultiGas e p network gasUsed).world
    refunded.l1FeesAvailable = e.world.l1FeesAvailable ∧
      ((60 ≤ e.ctx.arbosVersion → network ≠ l1PricerFundsPoolAddress) →
        (e.world.getBalance l1PricerFundsPoolAddress).toNat ≤
          (refunded.getBalance l1PricerFundsPoolAddress).toNat) ∧
      (e.world.getBalance l1PricerFundsPoolAddress).toNat ≤
        (refunded.getBalance l1PricerFundsPoolAddress).toNat +
          (satSub256 (satMul256 e.ctx.basefee gasUsed) (multiCost e p)).toNat := by
  unfold refundMultiGas
  dsimp only
  split
  · next hrefund =>
    refine ⟨l1FeesAvailable_of_books (books_transferBalance ..), fun hnetwork =>
      le_getBalance_transferBalance _ (.inl (hnetwork hrefund.1).symm), ?_⟩
    change _ ≤ ((transferBalance e.world network p.sender _).getBalance _).toNat + _
    generalize satSub256 (satMul256 e.ctx.basefee gasUsed) (multiCost e p) = refund
    by_cases hnetwork : network = l1PricerFundsPoolAddress
    · subst hnetwork
      by_cases hlt : e.world.getBalance l1PricerFundsPoolAddress < refund
      · rw [transferBalance_short hlt]
        exact Nat.le_add_right _ _
      · exact getBalance_transferBalance_src p.sender hlt
    · exact (le_getBalance_transferBalance _ (.inl (Ne.symm hnetwork))).trans (Nat.le_add_right _ _)
  · exact ⟨rfl, fun _ => Nat.le_refl _, Nat.le_add_right _ _⟩

theorem Distribution.paidTo_pool {d : Distribution} (hversion : 10 ≤ d.hooks.arbosVersion) :
    d.fees.paidTo l1PricerFundsPoolAddress = d.poolShare + d.fees.l1FeesToAdd.toNat := by
  obtain ⟨hdst, hfee⟩ := computeEndTxFees_poster hversion d.gasUsed d.ctx.basefee
  unfold EndTxFeeDistribution.paidTo Distribution.poolShare Distribution.fees
  rw [hdst, hfee]
  exact congrArg _ (if_pos rfl)

theorem solvent_distribute (h : s.Solvent) {d : Distribution} (hversion : 10 ≤ d.hooks.arbosVersion)
    (hcovered : s.RefundCovered d) :
    Solvent { s with executor := settleNormal (d.enter s.executor) d.pending d.gasUsed } := by
  let w := (d.enter s.executor).world
  have hpool : (satAdd256 s.poolBalance d.fees.l1FeesToAdd).toNat ≤
      ((applyFeeDistribution w d.fees).getBalance l1PricerFundsPoolAddress).toNat :=
    applyFeeDistribution_pool w hversion d.gasUsed d.ctx.basefee
  have hbooks := books_applyFeeDistribution w d.fees
  have hpaid : s.poolBalance.toNat + d.fees.paidTo l1PricerFundsPoolAddress < 2 ^ 256 →
      ((applyFeeDistribution w d.fees).getBalance l1PricerFundsPoolAddress).toNat =
        s.poolBalance.toNat + d.fees.paidTo l1PricerFundsPoolAddress :=
    balance_applyFeeDistribution (w := w) (a := l1PricerFundsPoolAddress)
  rw [Distribution.paidTo_pool hversion] at hpaid
  rw [toNat_satAdd256] at hpool
  -- The touched accounts are no part of the world.
  have hdistributed : ∀ e : Executor, e.world = applyFeeDistribution w d.fees → e.ctx = d.ctx →
      e.multiGasCurrentFees = d.multiGasCurrentFees →
      let refunded := (refundMultiGas e d.pending d.hooks.networkFeeAccount d.gasUsed).world
      (satAdd256 refunded.l1FeesAvailable d.fees.l1FeesToAdd).toNat ≤
        (refunded.getBalance l1PricerFundsPoolAddress).toNat := by
    intro e hworld hctx hfees
    obtain ⟨hkept, hother, htaken⟩ :=
      refundMultiGas_pool e d.pending d.hooks.networkFeeAccount d.gasUsed
    have hrefund : satSub256 (satMul256 e.ctx.basefee d.gasUsed) (multiCost e d.pending) =
        d.refund := by
      have hbase : e.world.baseFeeWei = d.baseFeeWei := by
        rw [hworld]
        exact congrArg World.baseFeeWei hbooks
      unfold multiCost
      rw [hctx, hfees, hbase]
      rfl
    have havailable : e.world.l1FeesAvailable = s.executor.world.l1FeesAvailable := by
      rw [hworld]
      exact (l1FeesAvailable_of_books hbooks : _ = w.l1FeesAvailable)
    rw [hrefund, hworld] at htaken
    rw [hctx, hworld] at hother
    dsimp only
    rw [hkept, havailable, toNat_satAdd256]
    unfold Solvent at h
    by_cases hpoolPays : 60 ≤ d.ctx.arbosVersion ∧
        d.hooks.networkFeeAccount = l1PricerFundsPoolAddress
    · obtain ⟨hcover, hfits⟩ := hcovered hpoolPays.1 hpoolPays.2
      rw [Distribution.paidTo_pool hversion] at hfits
      rw [hpaid hfits] at htaken
      omega
    · have hle := hother fun h60 hnetwork => hpoolPays ⟨h60, hnetwork⟩
      omega
  unfold Solvent settleNormal
  refine hdistributed _ ?_ ?_ ?_ <;> split <;> rfl

/-! ## Runs -/

theorem solvent_step {s' : PoolState} (a : PoolAction) (h : s.Solvent) (hallowed : s.Allowed a)
    (hstep : step s a = some s') : s'.Solvent := by
  cases a with
  | distribute d =>
    cases hstep
    exact solvent_distribute h hallowed.1 hallowed.2
  | report r =>
    cases hstep
    exact solvent_report h r
  | release maxWei =>
    cases hstep
    exact solvent_release h maxWei
  | deposit src amount =>
    cases hstep
    exact solvent_deposit h src amount

/-- Where a run begins: after the upgrade to ArbOS 10, or with nothing in the pool and no fees. -/
def Entered (s : PoolState) : Prop :=
  (∃ s₀ : PoolState, s = s₀.upgradeToVersion10) ∨
    (s.executor.world.l1FeesAvailable = 0 ∧ s.poolBalance = 0)

theorem solvent_of_entered (h : s.Entered) : s.Solvent := by
  rcases h with ⟨s₀, rfl⟩ | ⟨hfees, _⟩
  · exact Nat.le_refl _
  · rw [Solvent, hfees]
    exact Nat.zero_le _

theorem l1_pool_solvent (s s' : PoolState) (hentered : s.Entered) (actions : List PoolAction)
    (hallowed : Along step Allowed s actions) (hrun : exec step s actions = some s') :
    s'.Solvent ∧ ∀ r, AllCovered s'.executor (s'.pricing.updateForBatchPosterSpending r).2.2 := by
  have hsolvent : s'.Solvent :=
    exec_invariant (fun q a q' hq hok hstep => solvent_step a hq hok hstep)
      (solvent_of_entered hentered) hallowed hrun
  exact ⟨hsolvent, fun r => covered_of_solvent hsolvent r⟩

/-- A pool without funds. -/
def samplePool : PoolState where
  executor := fundedExecutor false
  slots := L1PricingState.sampleState.toL1PricingSlots

/-- A transaction of 30 gas at a base fee of 100, ten of them for posting, with the pool as network
    account and no fees set per resource. -/
def toPool (baseFeeWei : U256) : Distribution where
  hooks :=
    { sampleHooks with
      arbosVersion := 60
      networkFeeAccount := l1PricerFundsPoolAddress
      txProc := { sampleHooks.txProc with posterFee := 1000, posterGas := 10 } }
  ctx := { sampleCtx with arbosVersion := 60, basefee := 100 }
  baseFeeWei
  multiGasCurrentFees := 0
  pending := endedPending (fundedExecutor false) 0xa11ce 30 .legacy 30
  gasUsed := 30

/-- With the base fee at 90 the refund is 300 of the 2000 wei the pool got for computation. -/
theorem l1_pool_solvent_refund :
    ∃ s', exec step samplePool [.distribute (toPool 90), .deposit (some 0xa11ce) 70, .release 50,
        .report L1PricingState.sampleReport] = some s' ∧
      s'.Solvent ∧ ∀ r, AllCovered s'.executor (s'.pricing.updateForBatchPosterSpending r).2.2 :=
  ⟨_, rfl, l1_pool_solvent samplePool _ (.inr ⟨rfl, by decide +kernel⟩)
    [.distribute (toPool 90), .deposit (some 0xa11ce) 70, .release 50,
      .report L1PricingState.sampleReport] (by decide +kernel) rfl⟩

/-- The owner sets the base fee to 1 in a block that began at 100: the pool gets 2000 wei for
    computation and 1000 for posting, and pays a refund of 2970. -/
theorem refund_from_pool_breaks_solvency :
    samplePool.Entered ∧ (toPool 1).fees.paidTo l1PricerFundsPoolAddress = 3000 ∧
      (toPool 1).refund = 2970 ∧ ∃ s', exec step samplePool [.distribute (toPool 1)] = some s' ∧
      s'.poolBalance = 30 ∧ s'.executor.world.l1FeesAvailable = 1000 ∧ ¬ s'.Solvent := by
  refine ⟨.inr ⟨rfl, by decide +kernel⟩, by decide +kernel, by decide +kernel, _, rfl,
    by decide +kernel, by decide +kernel, ?_⟩
  unfold Solvent
  decide +kernel

end PoolState

end Arbreth.L1Pricing
