/-
  What a redeeming transaction does to the gas backlogs (arb-evm, build.rs: the log scan of
  execute_transaction_without_commit and the growth in commit_transaction; arbos, tx_processor.rs
  and l2_pricing/model.rs).

  The gas a redeem donates is charged to the redeeming transaction and used by the retry. The
  scan takes it out of the backlogs before the commit adds the transaction's gas, so that it is
  counted when the retry runs. The model in use decides which of the two amounts of a call of
  `update_backlog` counts: the plain gas, or the gas by kinds. The commit passes both, the scan
  passes no gas of any kind.
-/
import Arbreth.Redeem.BacklogCost
import Arbreth.Stylus.SStore

namespace Arbreth.Redeem

open Arbreth.Lib Arbreth.Exec Arbreth.Retryable Arbreth.L2Pricing
open Arbreth.Stylus (oneKind)

/-! ## The commit -/

/-- What the commit knows of a successful transaction of normal type or of a redemption. revm
    has charged it for its start at least, and a redemption has no poster gas. -/
structure ExecutedTx where
  isRetry : Bool
  evmGasUsed : Nat
  evmGasUsed_pos : 0 < evmGasUsed
  posterGas : Nat
  posterGas_retry : isRetry = true → posterGas = 0
  calldataFloorGas : Nat
  basefee : U256
  chargedMultiGas : MultiGas

namespace ExecutedTx

variable (tx : ExecutedTx)

/-- The gas of the receipt: with the poster gas, raised to the floor. -/
def gasUsed : Nat := max (tx.evmGasUsed + tx.posterGas) tx.calldataFloorGas

/-- The gas without the poster's. -/
def computeGas : Nat := tx.gasUsed - tx.posterGas

/-- `charged_multi_gas.saturating_sub(MultiGas::single_dim_gas(poster_gas))`. -/
def usedMultiGas : MultiGas :=
  ⟨fun kind => tx.chargedMultiGas.gas kind - (oneKind .singleDim tx.posterGas).gas kind⟩

/-- `grow_backlog` as `commit_transaction` calls it. -/
def growBacklog (p : L2PricingState) : L2PricingState :=
  if tx.isRetry then p.updateBacklog .grow tx.gasUsed tx.chargedMultiGas
  else if tx.basefee = 0 then p
  else
    let txProc : TxProcessor := ⟨0, tx.posterGas, 0, false, []⟩
    p.updateBacklog .grow (txProc.computeGasForBacklog tx.gasUsed tx.basefee) tx.usedMultiGas

/-- A transaction that pays for its gas adds its gas without the poster's. -/
theorem growBacklog_eq {tx : ExecutedTx} (hprice : tx.basefee ≠ 0) (p : L2PricingState) :
    tx.growBacklog p = p.updateBacklog .grow tx.computeGas tx.usedMultiGas := by
  have hpos := tx.evmGasUsed_pos
  unfold growBacklog
  by_cases hretry : tx.isRetry = true
  · have hposter := tx.posterGas_retry hretry
    have hgas : tx.computeGas = tx.gasUsed := by rw [computeGas, hposter, Nat.sub_zero]
    have hused : tx.usedMultiGas = tx.chargedMultiGas := by
      rw [usedMultiGas, hposter]
      simp [oneKind]
    rw [if_pos hretry, hgas, hused]
  · have hposter : tx.posterGas < tx.gasUsed := by
      unfold gasUsed
      omega
    have hgas : TxProcessor.computeGasForBacklog ⟨0, tx.posterGas, 0, false, []⟩ tx.gasUsed
        tx.basefee = tx.computeGas := by
      rw [TxProcessor.computeGasForBacklog, if_neg hprice]
      exact if_pos hposter
    rw [if_neg hretry, if_neg hprice]
    dsimp only
    rw [hgas]

end ExecutedTx

/-! ## The scan -/

variable (p : L2PricingState)

theorem scanBacklog_redeemLogs (logs : List Log) :
    scanBacklog p (redeemLogs logs) = scanBacklog p logs := by
  induction logs generalizing p with
  | nil => rfl
  | cons log logs ih =>
    have hscan : scanBacklog p (log :: logs) = scanBacklog (scanLogBacklog p log) logs := rfl
    rw [hscan]
    cases hlog : parseRedeemScheduled log with
    | none =>
      have hskip : redeemLogs (log :: logs) = redeemLogs logs := by
        rw [redeemLogs, List.filter_cons_of_neg (by simp [hlog])]
        rfl
      rw [hskip, ih, scanLogBacklog, hlog]
    | some e =>
      have hkeep : redeemLogs (log :: logs) = log :: redeemLogs logs := by
        rw [redeemLogs, List.filter_cons_of_pos (by simp [hlog])]
        rfl
      rw [hkeep]
      exact ih _

/-- The scan of the logs of redeems takes the donations out one after the other. -/
theorem scanBacklog_redeems {c : CancelCtx} {redeems : List Redeemed}
    (h : ∀ r ∈ redeems, RedeemedBy c r) (p : L2PricingState) :
    scanBacklog p (redeems.map Redeemed.log) = (redeems.map Redeemed.donated).foldl shrinkBacklog p := by
  induction redeems generalizing p with
  | nil => rfl
  | cons r redeems ih =>
    have hr := h r List.mem_cons_self
    have hstep : scanBacklog p ((r :: redeems).map Redeemed.log) =
        scanBacklog (scanLogBacklog p r.log) (redeems.map Redeemed.log) := rfl
    rw [hstep, scanLogBacklog_redeemed hr, ih fun r' hr' => h r' (List.mem_cons_of_mem r hr')]
    rfl

theorem takenOut_foldl {p' : L2PricingState} {before : Nat} (h : TakenOut p p' before)
    (ds : List Nat) : TakenOut p (ds.foldl shrinkBacklog p') (before + ds.sum) := by
  induction ds generalizing p' before with
  | nil => exact h
  | cons d ds ih =>
    rw [List.sum_cons, ← Nat.add_assoc]
    exact ih (h.shrink d)

/-! ## Kinds of gas -/

/-- The gas of all kinds by the weights of a constraint. -/
def weighted (c : MultiGasConstraint) (g : MultiGas) : Nat :=
  (ResourceKind.all.map fun kind => g.gas kind * c.weights kind).sum

/-- Growing by all kinds adds the weighted sum, where nothing saturates. -/
theorem foldl_grow (weights gas : ResourceKind → Nat) (kinds : List ResourceKind) {backlog : Nat}
    (hfits : backlog + (kinds.map fun kind => gas kind * weights kind).sum ≤ u64Max) :
    kinds.foldl (fun backlog kind =>
        if weights kind = 0 then backlog
        else applyGasDeltaOp .grow backlog (satMul64 (gas kind) (weights kind))) backlog =
      backlog + (kinds.map fun kind => gas kind * weights kind).sum := by
  induction kinds generalizing backlog with
  | nil => rfl
  | cons kind kinds ih =>
    rw [List.map_cons, List.sum_cons] at hfits ⊢
    have hstep : (if weights kind = 0 then backlog
        else applyGasDeltaOp .grow backlog (satMul64 (gas kind) (weights kind))) =
        backlog + gas kind * weights kind := by
      by_cases hzero : weights kind = 0
      · rw [if_pos hzero, hzero, Nat.mul_zero, Nat.add_zero]
      · have hmul : gas kind * weights kind < 2 ^ 64 := by
          unfold u64Max at hfits
          omega
        rw [if_neg hzero, satMul64_of_lt hmul]
        exact Nat.min_eq_left (by omega)
    rw [List.foldl_cons, hstep, ih (by omega), Nat.add_assoc]

theorem updateBacklog_grow {c : MultiGasConstraint} {g : MultiGas}
    (hfits : c.backlog + weighted c g ≤ u64Max) :
    c.updateBacklog .grow g = { c with backlog := c.backlog + weighted c g } := by
  rw [MultiGasConstraint.updateBacklog, foldl_grow c.weights g.gas _ hfits]
  rfl

theorem updateBacklog_noMultiGas (c : MultiGasConstraint) :
    c.updateBacklog .shrink noMultiGas = c := by
  have hloop : ∀ (kinds : List ResourceKind) (backlog : Nat),
      kinds.foldl (fun backlog kind =>
        if c.weights kind = 0 then backlog
        else applyGasDeltaOp .shrink backlog
          (satMul64 (noMultiGas.gas kind) (c.weights kind))) backlog = backlog := by
    intro kinds
    induction kinds with
    | nil => exact fun _ => rfl
    | cons kind kinds ih =>
      intro backlog
      rw [List.foldl_cons, ih]
      split
      · rfl
      · simp [applyGasDeltaOp, noMultiGas, satMul64]
  rw [MultiGasConstraint.updateBacklog, hloop]

theorem shrinkBacklog_multi {p : L2PricingState} (h : p.gasModelToUse = .multiGasConstraints)
    (d : Nat) : shrinkBacklog p d = p := by
  rw [shrinkBacklog, L2PricingState.updateBacklog, h]
  rw [List.map_congr_left fun c _ => updateBacklog_noMultiGas c, List.map_id']

theorem foldl_shrinkBacklog_multi {p : L2PricingState}
    (h : p.gasModelToUse = .multiGasConstraints) (ds : List Nat) : ds.foldl shrinkBacklog p = p := by
  induction ds with
  | nil => rfl
  | cons d ds ih => rw [List.foldl_cons, shrinkBacklog_multi h, ih]

/-! ## The net change -/

/-- Every backlog holds the donations, by its weight of computation in the multi-gas model, when
    they are taken out. -/
def Covers (p : L2PricingState) (donated : Nat) : Prop :=
  match p.gasModelToUse with
  | .legacy => donated ≤ p.gasBacklog
  | .singleGasConstraints => ∀ c ∈ p.gasConstraints, donated ≤ c.backlog
  | .multiGasConstraints =>
    ∀ c ∈ p.multiGasConstraints, donated * c.weights .computation ≤ c.backlog

/-- No backlog saturates when it grows. -/
def Fits (p : L2PricingState) (tx : ExecutedTx) (donated : Nat) : Prop :=
  match p.gasModelToUse with
  | .legacy => p.gasBacklog - donated + tx.computeGas ≤ u64Max
  | .singleGasConstraints =>
    ∀ c ∈ p.gasConstraints, c.backlog - donated + tx.computeGas ≤ u64Max
  | .multiGasConstraints =>
    ∀ c ∈ p.multiGasConstraints, c.backlog + weighted c tx.usedMultiGas ≤ u64Max

/-- Each backlog has changed by the gas of the transaction without the donations: with them it
    would have been what it was and the transaction's gas. -/
def CountsOnce (p p' : L2PricingState) (tx : ExecutedTx) (donated : Nat) : Prop :=
  match p.gasModelToUse with
  | .legacy => p'.gasBacklog + donated = p.gasBacklog + tx.computeGas
  | .singleGasConstraints =>
    List.Forall₂ (fun c c' : GasConstraint => c'.backlog + donated = c.backlog + tx.computeGas)
      p.gasConstraints p'.gasConstraints
  | .multiGasConstraints =>
    List.Forall₂ (fun c c' : MultiGasConstraint =>
        c'.backlog + donated * c.weights .computation = c.backlog + weighted c tx.usedMultiGas)
      p.multiGasConstraints p'.multiGasConstraints

theorem countsOnce_legacy {p p' : L2PricingState} {tx : ExecutedTx} {donated : Nat}
    (hmodel : p.gasModelToUse = .legacy) (htaken : TakenOut p p' donated)
    (hcovers : donated ≤ p.gasBacklog) (hfits : p.gasBacklog - donated + tx.computeGas ≤ u64Max) :
    (p'.updateBacklog .grow tx.computeGas tx.usedMultiGas).gasBacklog + donated =
      p.gasBacklog + tx.computeGas := by
  rw [L2PricingState.updateBacklog, htaken.model, hmodel]
  dsimp only [applyGasDeltaOp]
  rw [htaken.single hmodel, satAdd64, Nat.min_eq_left hfits]
  omega

theorem countsOnce_constraints {p p' : L2PricingState} {tx : ExecutedTx} {donated : Nat}
    (hmodel : p.gasModelToUse = .singleGasConstraints) (htaken : TakenOut p p' donated)
    (hcovers : ∀ c ∈ p.gasConstraints, donated ≤ c.backlog)
    (hfits : ∀ c ∈ p.gasConstraints, c.backlog - donated + tx.computeGas ≤ u64Max) :
    List.Forall₂ (fun c c' : GasConstraint => c'.backlog + donated = c.backlog + tx.computeGas)
      p.gasConstraints
      (p'.updateBacklog .grow tx.computeGas tx.usedMultiGas).gasConstraints := by
  rw [L2PricingState.updateBacklog, htaken.model, hmodel]
  dsimp only [applyGasDeltaOp]
  -- the constraints after the scan, one by one
  have hscan : List.Forall₂ (fun c c' : GasConstraint => c.backlog - donated = c'.backlog)
      p.gasConstraints p'.gasConstraints := by
    have heq := (List.forall₂_eq_eq_eq (α := Nat)).symm ▸ (htaken.constraints hmodel).symm
    rwa [List.forall₂_map_left_iff, List.forall₂_map_right_iff] at heq
  rw [List.forall₂_map_right_iff]
  have hall : List.Forall₂ (fun c c' : GasConstraint =>
      (donated ≤ c.backlog ∧ c.backlog - donated + tx.computeGas ≤ u64Max) ∧
        c.backlog - donated = c'.backlog) p.gasConstraints p'.gasConstraints :=
    (List.forall₂_and_left _ _).mpr ⟨fun c hc => ⟨hcovers c hc, hfits c hc⟩, hscan⟩
  refine hall.imp ?_
  rintro c c' ⟨⟨hcover, hfit⟩, hbacklog⟩
  rw [← hbacklog, satAdd64, Nat.min_eq_left hfit]
  dsimp only
  omega

/-- In the multi-gas model the whole gas of the transaction is added and nothing is taken out. -/
theorem countsOnce_multi {p : L2PricingState} {tx : ExecutedTx} (donated : Nat)
    (hmodel : p.gasModelToUse = .multiGasConstraints)
    (hfits : ∀ c ∈ p.multiGasConstraints, c.backlog + weighted c tx.usedMultiGas ≤ u64Max) :
    List.Forall₂ (fun c c' : MultiGasConstraint =>
        c'.backlog + donated * c.weights .computation = c.backlog + weighted c tx.usedMultiGas)
      p.multiGasConstraints
      (p.updateBacklog .grow tx.computeGas tx.usedMultiGas).multiGasConstraints ↔
    donated = 0 ∨ ∀ c ∈ p.multiGasConstraints, c.weights .computation = 0 := by
  rw [L2PricingState.updateBacklog, hmodel]
  rw [List.forall₂_map_right_iff, List.forall₂_same]
  have heach : ∀ c ∈ p.multiGasConstraints,
      ((c.updateBacklog .grow tx.usedMultiGas).backlog + donated * c.weights .computation =
        c.backlog + weighted c tx.usedMultiGas ↔ donated = 0 ∨ c.weights .computation = 0) := by
    intro c hc
    rw [updateBacklog_grow (hfits c hc), Nat.add_eq_left, Nat.mul_eq_zero]
  constructor
  · intro h
    by_cases hdonated : donated = 0
    · exact .inl hdonated
    · exact .inr fun c hc => ((heach c hc).mp (h c hc)).resolve_left hdonated
  · rintro (hdonated | hweights) c hc
    · exact (heach c hc).mpr (.inl hdonated)
    · exact (heach c hc).mpr (.inr (hweights c hc))

/-- The donations of the redeems that survive. -/
def donatedGas (c : CancelCtx) (start : RetryableState) (calls : RetryCalls) : Nat :=
  ((calls.run c (.start start)).redeems.map Redeemed.donated).sum

/-- For every transaction that pays for its gas: donated gas is counted once, except in the
    multi-gas model, where it is not taken out of the backlogs that weigh computation. -/
theorem donations_counted_once_iff (c : CancelCtx) (p : L2PricingState) (start : RetryableState)
    (calls : RetryCalls) (logs : List Log)
    (hlogs : redeemLogs logs = (calls.run c (.start start)).redeems.map Redeemed.log)
    (tx : ExecutedTx) (hprice : tx.basefee ≠ 0) (hcovers : Covers p (donatedGas c start calls))
    (hfits : Fits p tx (donatedGas c start calls)) :
    CountsOnce p (tx.growBacklog (scanBacklog p logs)) tx (donatedGas c start calls) ↔
      (p.gasModelToUse = .multiGasConstraints → donatedGas c start calls = 0 ∨
        ∀ constraint ∈ p.multiGasConstraints, constraint.weights .computation = 0) := by
  have hscan : scanBacklog p logs =
      ((calls.run c (.start start)).redeems.map Redeemed.donated).foldl shrinkBacklog p := by
    rw [← scanBacklog_redeemLogs, hlogs, scanBacklog_redeems (redeems_run c start calls)]
  have htaken : TakenOut p (scanBacklog p logs) (donatedGas c start calls) := by
    rw [hscan]
    have := takenOut_foldl p (.start p) ((calls.run c (.start start)).redeems.map Redeemed.donated)
    rwa [Nat.zero_add] at this
  unfold Covers at hcovers
  unfold Fits at hfits
  unfold CountsOnce
  rw [ExecutedTx.growBacklog_eq hprice]
  cases hmodel : p.gasModelToUse with
  | legacy =>
    rw [hmodel] at hcovers hfits
    exact ⟨fun _ h => (nomatch h), fun _ => countsOnce_legacy hmodel htaken hcovers hfits⟩
  | singleGasConstraints =>
    rw [hmodel] at hcovers hfits
    exact ⟨fun _ h => (nomatch h), fun _ => countsOnce_constraints hmodel htaken hcovers hfits⟩
  | multiGasConstraints =>
    rw [hmodel] at hfits
    rw [hscan, foldl_shrinkBacklog_multi hmodel, countsOnce_multi _ hmodel hfits]
    exact ⟨fun h _ => h, fun h => h rfl⟩

/-! ## A redeem in the multi-gas model -/

/-- A chain at version 60 with one constraint that weighs computation and storage growth. -/
def multiPricing : L2PricingState :=
  { samplePricing with
    arbosVersion := 60
    multiGasConstraints := [⟨7000000, 60, 1000000, 3, fun
      | .computation => 1
      | .storageGrowth => 3
      | _ => 0⟩] }

def multiCtx : CancelCtx := ⟨fun _ => 0, { sampleCtx with arbosVersion := 60 }, 0⟩

def multiCalls : RetryCalls := .redeem donorCall 0x111 .done

/-- The transaction of that redeem: 250000 gas with the donation in it, 1600 of them poster gas. -/
def multiTx : ExecutedTx where
  isRetry := false
  evmGasUsed := 248400
  evmGasUsed_pos := by decide
  posterGas := 1600
  posterGas_retry := nofun
  calldataFloorGas := 21000
  basefee := 100000000
  chargedMultiGas := ⟨fun
    | .computation => 228400
    | .storageAccessWrite => 20000
    | .singleDim => 1600
    | _ => 0⟩

/-- The logs of the redeem. -/
def multiLogs (c : CancelCtx) : List Log :=
  (multiCalls.run c (.start donorStart)).redeems.map Redeemed.log

/-- The donation stays in the backlog, to be counted again when the retry runs. -/
theorem donation_stays_in_backlog :
    donatedGas multiCtx donorStart multiCalls = 147945 ∧
      (multiTx.growBacklog (scanBacklog multiPricing (multiLogs multiCtx))).multiGasConstraints.map
        MultiGasConstraint.backlog = [1000000 + 228400] ∧
      ¬ CountsOnce multiPricing (multiTx.growBacklog (scanBacklog multiPricing (multiLogs multiCtx)))
        multiTx (donatedGas multiCtx donorStart multiCalls) := by
  have hdonated : donatedGas multiCtx donorStart multiCalls = 147945 := by decide +kernel
  have hbacklogs : (multiTx.growBacklog
      (scanBacklog multiPricing (multiLogs multiCtx))).multiGasConstraints.map
        MultiGasConstraint.backlog = [1000000 + 228400] := by
    decide +kernel
  refine ⟨hdonated, hbacklogs, fun h => ?_⟩
  rw [hdonated] at h
  obtain ⟨c, rest, hcount, -, hlist⟩ := List.forall₂_cons_left_iff.mp h
  rw [hlist, List.map_cons] at hbacklogs
  have hbacklog := (List.cons.inj hbacklogs).1
  rw [hbacklog] at hcount
  exact absurd hcount (by decide)

theorem redeemLogs_multiLogs (c : CancelCtx) : redeemLogs (multiLogs c) = multiLogs c := by
  refine List.filter_eq_self.mpr fun log hlog => ?_
  obtain ⟨r, hr, rfl⟩ := List.mem_map.mp hlog
  obtain ⟨i, id, w, t, nonce, donated, w', has⟩ := redeems_run c donorStart multiCalls r hr
  rw [parse_redeemed has]
  rfl

/-- The same redeem at version 40, where the single backlog counts. -/
theorem donations_counted_once_legacy :
    CountsOnce samplePricing (multiTx.growBacklog (scanBacklog samplePricing (multiLogs donorCtx)))
        multiTx (donatedGas donorCtx donorStart multiCalls) ∧
      (multiTx.growBacklog (scanBacklog samplePricing (multiLogs donorCtx))).gasBacklog =
        200000 - 147945 + 248400 := by
  have hdonated : donatedGas donorCtx donorStart multiCalls = 147945 := by decide +kernel
  refine ⟨(donations_counted_once_iff donorCtx samplePricing donorStart multiCalls
    (multiLogs donorCtx) (redeemLogs_multiLogs donorCtx) multiTx (by decide) ?_ ?_).mpr
    (fun h => (nomatch h)), by decide +kernel⟩
  · rw [hdonated]
    exact show 147945 ≤ 200000 by decide
  · rw [hdonated]
    exact show 200000 - 147945 + 248400 ≤ u64Max by decide

end Arbreth.Redeem
