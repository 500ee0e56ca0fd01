/-
  What a redeem pays for the backlog update it causes (arb-precompiles, arbretryabletx.rs:
  compute_backlog_update_cost, compute_actual_backlog_cost; arb-evm, build.rs: the log scan;
  arbos, l2_pricing/model.rs: backlog_update_cost, shrink_backlog).

  A redeem reserves the price of writing every backlog, and then pays for each backlog the price
  of a reset if its donation takes the backlog to zero, the price of a write otherwise. It looks
  at the backlogs as they were before the transaction: the donations are taken out by the
  executor, log by log, after the run. So a redeem pays for the update its donation would cause
  alone, and the update it does cause comes after those of the redeems before it
  (`paysReset_iff`, `zeroes_iff`).
-/
import Arbreth.Exec.Valid
import Arbreth.L2Pricing.Model
import Arbreth.Redeem.Schedule

namespace Arbreth.Redeem

open Arbreth.Lib Arbreth.Exec Arbreth.Retryable Arbreth.L2Pricing

/-! ## The executor's side -/

/-- No gas of any kind: `MultiGas::default()`. -/
def noMultiGas : MultiGas := ⟨fun _ => 0⟩

/-- `shrink_backlog` as the scan calls it. -/
def shrinkBacklog (p : L2PricingState) (donatedGas : Nat) : L2PricingState :=
  p.updateBacklog .shrink donatedGas noMultiGas

/-- What the scan does to the pricing state for one log, whether its ticket is open or not. -/
def scanLogBacklog (p : L2PricingState) (log : Log) : L2PricingState :=
  match parseRedeemScheduled log with
  | none => p
  | some e => shrinkBacklog p e.donatedGas

/-- The scan of a run's logs. -/
def scanBacklog (p : L2PricingState) (logs : List Log) : L2PricingState :=
  logs.foldl scanLogBacklog p

/-- What a surviving redeem donates, as the scan reads it from its log. -/
def Redeemed.donated (r : Redeemed) : Nat :=
  ((parseRedeemScheduled r.log).map RedeemScheduled.donatedGas).getD 0

variable {c : CancelCtx}

theorem RedeemsAs.donated_eq {i : RedeemCall} {id : B256} {w w' : World} {t : Ticket}
    {nonce donated : Nat} {r : Redeemed} (h : RedeemsAs c i id w t nonce donated r w') :
    r.donated = donated := by
  rw [Redeemed.donated, parse_redeemed h]
  rfl

theorem scanLogBacklog_redeemed {r : Redeemed} (h : RedeemedBy c r) (p : L2PricingState) :
    scanLogBacklog p r.log = shrinkBacklog p r.donated := by
  obtain ⟨i, id, w, t, nonce, donated, w', has⟩ := h
  rw [scanLogBacklog, parse_redeemed has, has.donated_eq]

/-! ## The redeems that survive -/

/-- The redeems of a run that are not undone, with their calls. -/
def RetryCalls.survivors (c : CancelCtx) :
    RetryCalls → RunState → List (RedeemCall × Redeemed)
  | .done, _ => []
  | .redeem i id rest, s =>
    ((handleRedeem c i id s.state.world).map fun r => (i, r.1)).toList ++
      rest.survivors c (s.redeem c i id)
  | .cancel id caller rest, s => rest.survivors c (s.cancel c id caller)
  | .keepalive id rest, s => rest.survivors c (s.keepalive c id)
  | .call reverted body rest, s =>
    let s' := body.run c s
    (if reverted then [] else body.survivors c s) ++ rest.survivors c (if reverted then s else s')

open RetryCalls

/-- Every redeem call of the tree, undone or not. -/
def RetryCalls.redeemCalls : RetryCalls → List RedeemCall
  | .done => []
  | .redeem i _ rest => i :: rest.redeemCalls
  | .cancel _ _ rest => rest.redeemCalls
  | .keepalive _ rest => rest.redeemCalls
  | .call _ body rest => body.redeemCalls ++ rest.redeemCalls

/-- A survivor is a redeem of the tree that went through. -/
theorem survivors_spec (c : CancelCtx) (calls : RetryCalls) (s : RunState) :
    ∀ p ∈ calls.survivors c s, p.1 ∈ calls.redeemCalls ∧
      ∃ id w t nonce donated w', RedeemsAs c p.1 id w t nonce donated p.2 w' := by
  induction calls generalizing s with
  | done => exact fun p hp => absurd hp List.not_mem_nil
  | redeem i id rest ih =>
    intro p hp
    rw [survivors] at hp
    rcases List.mem_append.mp hp with hp | hp
    · obtain ⟨r, hr, rfl⟩ := Option.map_eq_some_iff.mp (Option.mem_toList.mp hp)
      obtain ⟨t, nonce, donated, has⟩ := handleRedeem_some hr
      exact ⟨List.mem_cons_self, id, _, t, nonce, donated, _, has⟩
    · obtain ⟨hmem, has⟩ := ih _ p hp
      exact ⟨List.mem_cons_of_mem i hmem, has⟩
  | cancel id caller rest ih => exact ih _
  | keepalive id rest ih => exact ih _
  | call reverted body rest ihBody ihRest =>
    intro p hp
    rw [survivors] at hp
    rcases List.mem_append.mp hp with hp | hp
    · cases reverted with
      | true => exact absurd hp List.not_mem_nil
      | false =>
        obtain ⟨hmem, has⟩ := ihBody s p hp
        exact ⟨List.mem_append_left _ hmem, has⟩
    · obtain ⟨hmem, has⟩ := ihRest _ p hp
      exact ⟨List.mem_append_right _ hmem, has⟩

/-! ## The reservation -/

/-- The call sees the pricing state that was stored before the transaction. -/
structure RedeemCall.Sees (i : RedeemCall) (p : L2PricingState) : Prop where
  constraints : i.constraintBacklogs = p.gasConstraints.map GasConstraint.backlog
  single : i.currentGasBacklog = p.gasBacklog

theorem RedeemCall.Sees.length {i : RedeemCall} {p : L2PricingState} (h : i.Sees p) :
    i.constraintBacklogs.length = p.gasConstraints.length := by
  rw [h.constraints, List.length_map]

theorem RedeemCall.Sees.ne_nil {i : RedeemCall} {p : L2PricingState} (h : i.Sees p) :
    i.constraintBacklogs ≠ [] ↔ 0 < p.gasConstraints.length := by
  rw [← h.length, List.length_pos_iff]

theorem actualBacklogCost_le (b d : Nat) : actualBacklogCost b d ≤ sloadGas + sstoreGas := by
  unfold actualBacklogCost
  split
  · decide
  · exact Nat.le_refl _

theorem sum_actualBacklogCost_le (backlogs : List Nat) (d : Nat) :
    (backlogs.map (actualBacklogCost · d)).sum ≤ backlogs.length * (sloadGas + sstoreGas) := by
  refine (List.sum_le_card_nsmul _ (sloadGas + sstoreGas) ?_).trans_eq (by simp)
  intro cost hcost
  obtain ⟨b, -, rfl⟩ := List.mem_map.mp hcost
  exact actualBacklogCost_le b d

/-- The reservation is the backlog update cost, and no actual cost exceeds it. -/
def Reserves (p : L2PricingState) : Prop :=
  ∀ i : RedeemCall, i.Sees p → ∀ gasUsed,
    let reservation := (computeBacklogUpdateCost p.arbosVersion i gasUsed).2
    reservation = p.backlogUpdateCost ∧
      ∀ gasToDonate, computeActualBacklogCost p.arbosVersion i gasToDonate ≤ reservation

/-- The product of the constraints and the price of an update is a `u64`, where it is taken. -/
def CostFits (p : L2PricingState) : Prop :=
  51 ≤ p.arbosVersion → p.arbosVersion < 60 → p.gasConstraints.length * 20800 < 2 ^ 64

section Regimes

variable {p : L2PricingState} {i : RedeemCall}

/-- Between the fix and version 60, with constraints: each constraint has its price. -/
def ManyPriced (p : L2PricingState) : Prop :=
  51 ≤ p.arbosVersion ∧ p.arbosVersion < 60 ∧ 0 < p.gasConstraints.length

theorem reservation_many (h : ManyPriced p) (hsees : i.Sees p) (gasUsed : Nat) :
    (computeBacklogUpdateCost p.arbosVersion i gasUsed).2 =
      wrap64 (1600 + satMul64 p.gasConstraints.length 20800) := by
  obtain ⟨hlow, hhigh, hn⟩ := h
  rw [computeBacklogUpdateCost, if_neg (by omega)]
  rw [if_pos hlow, if_pos (hsees.ne_nil.mpr hn), if_pos (by omega), hsees.length]
  rfl

theorem updateCost_many (h : ManyPriced p) :
    p.backlogUpdateCost = wrap64 (1600 + wrap64 (p.gasConstraints.length * 20800)) := by
  obtain ⟨hlow, hhigh, hn⟩ := h
  rw [L2PricingState.backlogUpdateCost, if_neg (by omega)]
  rw [if_pos ⟨hlow, hn⟩, if_pos (by omega)]
  rfl

theorem actualCost_many (h : ManyPriced p) (hsees : i.Sees p) (d : Nat) :
    computeActualBacklogCost p.arbosVersion i d =
      wrap64 (1600 + (i.constraintBacklogs.map (actualBacklogCost · d)).sum) := by
  obtain ⟨hlow, hhigh, hn⟩ := h
  rw [computeActualBacklogCost, if_neg (by omega), if_pos ⟨hlow, hsees.ne_nil.mpr hn⟩]
  rfl

/-- The costs where only the single backlog is priced. -/
theorem costs_single (hhigh : p.arbosVersion < 60) (h : ¬ ManyPriced p) (hsees : i.Sees p)
    (gasUsed d : Nat) :
    let lookup := if 50 ≤ p.arbosVersion then 800 else 0
    (computeBacklogUpdateCost p.arbosVersion i gasUsed).2 = lookup + 20800 ∧
      p.backlogUpdateCost = lookup + 20800 ∧ computeActualBacklogCost p.arbosVersion i d =
        actualBacklogCost i.currentGasBacklog d + lookup := by
  have hlate : ¬ 60 ≤ p.arbosVersion := by omega
  have hone : ¬ (51 ≤ p.arbosVersion ∧ i.constraintBacklogs ≠ []) := fun hmany =>
    h ⟨hmany.1, hhigh, hsees.ne_nil.mp hmany.2⟩
  simp only [computeBacklogUpdateCost, L2PricingState.backlogUpdateCost, computeActualBacklogCost,
    hlate, if_false, ← hsees.ne_nil, hone]
  refine ⟨?_, rfl, rfl⟩
  by_cases hlow : 51 ≤ p.arbosVersion
  · rw [if_pos hlow, if_neg fun hne => hone ⟨hlow, hne⟩]
    rfl
  · rw [if_neg hlow]
    rfl

end Regimes

theorem reserves_of_many {p : L2PricingState} (hmany : ManyPriced p)
    (hfits : p.gasConstraints.length * 20800 < 2 ^ 64) : Reserves p := by
  intro i hsees gasUsed
  rw [reservation_many hmany hsees, updateCost_many hmany]
  refine ⟨?_, fun d => ?_⟩
  · rw [satMul64_of_lt hfits, wrap64_of_lt hfits]
  · have hsum := sum_actualBacklogCost_le i.constraintBacklogs d
    rw [hsees.length] at hsum
    rw [actualCost_many hmany hsees, satMul64_of_lt hfits]
    simp only [sloadGas, sstoreGas] at hsum
    -- the largest multiple of 20800 below 2^64 leaves room for the two reads
    unfold wrap64
    omega

theorem reserves_of_single {p : L2PricingState} (hhigh : p.arbosVersion < 60)
    (hsingle : ¬ ManyPriced p) : Reserves p := by
  intro i hsees gasUsed
  have hcosts := costs_single hhigh hsingle hsees gasUsed
  rw [(hcosts 0).1, (hcosts 0).2.1]
  refine ⟨rfl, fun d => ?_⟩
  have hactual : actualBacklogCost i.currentGasBacklog d ≤ 20800 := actualBacklogCost_le _ d
  rw [(hcosts d).2.2]
  omega

/-- The reservation is right unless the constraints are too many for the price of all to be a
    `u64`: the precompile's product saturates, the other one wraps. -/
theorem reserves_iff (p : L2PricingState) : Reserves p ↔ CostFits p := by
  constructor
  · intro h hlow hhigh
    by_cases hn : 0 < p.gasConstraints.length
    · have hmany : ManyPriced p := ⟨hlow, hhigh, hn⟩
      have hsees : RedeemCall.Sees ⟨0, by decide, 0, 0,
          p.gasConstraints.map GasConstraint.backlog, p.gasBacklog⟩ p := ⟨rfl, rfl⟩
      have heq := (h _ hsees 0).1
      rw [reservation_many hmany hsees, updateCost_many hmany] at heq
      simp only [wrap64, satMul64, u64Max] at heq
      omega
    · omega
  · intro hfits
    by_cases hhigh : 60 ≤ p.arbosVersion
    · intro i _ gasUsed
      have hreserved : (computeBacklogUpdateCost p.arbosVersion i gasUsed).2 = 20800 := by
        rw [computeBacklogUpdateCost, if_pos hhigh]
        rfl
      have hcost : p.backlogUpdateCost = 20800 := if_pos hhigh
      have hactual : ∀ d, computeActualBacklogCost p.arbosVersion i d = 20800 := fun d => if_pos hhigh
      rw [hreserved, hcost]
      exact ⟨rfl, fun d => (hactual d).le⟩
    · by_cases hmany : ManyPriced p
      · exact reserves_of_many hmany (hfits hmany.1 hmany.2.1)
      · exact reserves_of_single (by omega) hmany

/-! ## The prices -/

/-- A stored backlog: the single one, or that of a constraint. -/
inductive BacklogRef where
  | single
  | constraint (index : Nat)
  deriving DecidableEq, Repr

/-- The redeem pays the price of a reset for the backlog. -/
def PaysReset (arbosVersion : Nat) (i : RedeemCall) (gasToDonate : Nat) : BacklogRef → Prop
  | .single => ¬ (51 ≤ arbosVersion ∧ i.constraintBacklogs ≠ []) ∧
      actualBacklogCost i.currentGasBacklog gasToDonate = sloadGas + sstoreResetGas
  | .constraint k => 51 ≤ arbosVersion ∧ ∃ b, i.constraintBacklogs[k]? = some b ∧
      actualBacklogCost b gasToDonate = sloadGas + sstoreResetGas

/-- The shrink is made to the backlog and leaves it zero. -/
def Zeroes (p : L2PricingState) (donatedGas : Nat) : BacklogRef → Prop
  | .single => p.gasModelToUse = .legacy ∧ (shrinkBacklog p donatedGas).gasBacklog = 0
  | .constraint k => p.gasModelToUse = .singleGasConstraints ∧
      ∃ c, (shrinkBacklog p donatedGas).gasConstraints[k]? = some c ∧ c.backlog = 0

/-- Every redeem pays the reset price for exactly the backlogs that the scan of its log, after
    those of the earlier ones, makes zero. -/
def PricedExactly (arbosVersion : Nat) : L2PricingState → List (RedeemCall × Redeemed) → Prop
  | _, [] => True
  | p, (i, r) :: rest =>
    (∀ ref, PaysReset arbosVersion i r.donated ref ↔ Zeroes p r.donated ref) ∧
      PricedExactly arbosVersion (scanLogBacklog p r.log) rest

theorem actualBacklogCost_eq_reset {b d : Nat} :
    actualBacklogCost b d = sloadGas + sstoreResetGas ↔ b ≤ d := by
  unfold actualBacklogCost
  by_cases h : b - d = 0
  · rw [if_pos h]
    exact ⟨fun _ => Nat.sub_eq_zero_iff_le.mp h, fun _ => rfl⟩
  · rw [if_neg h]
    exact ⟨fun heq => absurd heq (by decide), fun hle => absurd (Nat.sub_eq_zero_of_le hle) h⟩

section Shrinking

variable {p p' : L2PricingState} {before d : Nat}

/-- The state after donations of `before` gas in all have been taken out of `p`. -/
structure TakenOut (p p' : L2PricingState) (before : Nat) : Prop where
  model : p'.gasModelToUse = p.gasModelToUse
  single : p.gasModelToUse = .legacy → p'.gasBacklog = p.gasBacklog - before
  constraints : p.gasModelToUse = .singleGasConstraints →
    p'.gasConstraints.map GasConstraint.backlog =
      p.gasConstraints.map fun c => c.backlog - before

theorem TakenOut.start (p : L2PricingState) : TakenOut p p 0 := ⟨rfl, fun _ => rfl, fun _ => rfl⟩

theorem shrinkBacklog_legacy (h : p.gasModelToUse = .legacy) (d : Nat) :
    shrinkBacklog p d = { p with gasBacklog := p.gasBacklog - d } := by
  rw [shrinkBacklog, L2PricingState.updateBacklog, h]
  rfl

theorem shrinkBacklog_constraints (h : p.gasModelToUse = .singleGasConstraints) (d : Nat) :
    shrinkBacklog p d =
      { p with gasConstraints := p.gasConstraints.map fun c =>
          { c with backlog := c.backlog - d } } := by
  rw [shrinkBacklog, L2PricingState.updateBacklog, h]
  rfl

theorem gasModelToUse_shrinkBacklog (p : L2PricingState) (d : Nat) :
    (shrinkBacklog p d).gasModelToUse = p.gasModelToUse := by
  unfold shrinkBacklog L2PricingState.updateBacklog
  split
  · rfl
  · simp only [L2PricingState.gasModelToUse, List.length_map]
  · simp only [L2PricingState.gasModelToUse, List.length_map]

theorem TakenOut.shrink (h : TakenOut p p' before) (d : Nat) :
    TakenOut p (shrinkBacklog p' d) (before + d) where
  model := (gasModelToUse_shrinkBacklog p' d).trans h.model
  single := by
    intro hlegacy
    rw [shrinkBacklog_legacy (h.model.trans hlegacy)]
    rw [h.single hlegacy, Nat.sub_sub]
  constraints := by
    intro hsingle
    have hmap := congrArg (List.map (· - d)) (h.constraints hsingle)
    rw [List.map_map, List.map_map] at hmap
    rw [shrinkBacklog_constraints (h.model.trans hsingle)]
    rw [List.map_map]
    refine hmap.trans (List.map_congr_left fun c _ => ?_)
    exact Nat.sub_sub _ _ _

theorem zeroes_single (h : TakenOut p p' before) :
    Zeroes p' d .single ↔ p.gasModelToUse = .legacy ∧ p.gasBacklog ≤ before + d := by
  rw [Zeroes, h.model]
  refine and_congr_right fun hlegacy => ?_
  rw [(h.shrink d).single hlegacy, Nat.sub_eq_zero_iff_le]

theorem zeroes_constraint (h : TakenOut p p' before) (k : Nat) :
    Zeroes p' d (.constraint k) ↔ p.gasModelToUse = .singleGasConstraints ∧
      ∃ c, p.gasConstraints[k]? = some c ∧ c.backlog ≤ before + d := by
  rw [Zeroes, h.model]
  refine and_congr_right fun hsingle => ?_
  have hget := congrArg (·[k]?) ((h.shrink d).constraints hsingle)
  simp only [List.getElem?_map] at hget
  constructor
  · rintro ⟨c', hc', hzero⟩
    rw [hc', Option.map_some] at hget
    obtain ⟨c, hc, heq⟩ := Option.map_eq_some_iff.mp hget.symm
    exact ⟨c, hc, Nat.sub_eq_zero_iff_le.mp (heq.trans hzero)⟩
  · rintro ⟨c, hc, hle⟩
    rw [hc, Option.map_some] at hget
    obtain ⟨c', hc', heq⟩ := Option.map_eq_some_iff.mp hget
    exact ⟨c', hc', heq.trans (Nat.sub_eq_zero_of_le hle)⟩

theorem paysReset_single {i : RedeemCall} (hsees : i.Sees p) :
    PaysReset p.arbosVersion i d .single ↔
      ¬ (51 ≤ p.arbosVersion ∧ 0 < p.gasConstraints.length) ∧ p.gasBacklog ≤ d := by
  rw [PaysReset, actualBacklogCost_eq_reset, hsees.single, hsees.ne_nil]

theorem paysReset_constraint {i : RedeemCall} (hsees : i.Sees p) (k : Nat) :
    PaysReset p.arbosVersion i d (.constraint k) ↔
      51 ≤ p.arbosVersion ∧ ∃ c, p.gasConstraints[k]? = some c ∧ c.backlog ≤ d := by
  rw [PaysReset, hsees.constraints, List.getElem?_map]
  refine and_congr_right fun _ => ?_
  constructor
  · rintro ⟨b, hb, hcost⟩
    obtain ⟨c, hc, rfl⟩ := Option.map_eq_some_iff.mp hb
    exact ⟨c, hc, actualBacklogCost_eq_reset.mp hcost⟩
  · rintro ⟨c, hc, hle⟩
    exact ⟨c.backlog, by rw [hc, Option.map_some], actualBacklogCost_eq_reset.mpr hle⟩

end Shrinking

/-! ## When the prices are right -/

/-- For a donation of `d` gas after donations of `before` gas: no backlog that is priced lies
    above `d` and not above `before + d`. At version 50 constraints are shrunk and the single
    backlog is priced, so that neither may be taken to zero. -/
def StepClear (p : L2PricingState) (before d : Nat) : Prop :=
  match p.gasModelToUse with
  | .legacy => ¬ (d < p.gasBacklog ∧ p.gasBacklog ≤ before + d)
  | .singleGasConstraints =>
    if 51 ≤ p.arbosVersion then
      ∀ c ∈ p.gasConstraints, ¬ (d < c.backlog ∧ c.backlog ≤ before + d)
    else d < p.gasBacklog ∧ ∀ c ∈ p.gasConstraints, before + d < c.backlog
  | .multiGasConstraints => True

/-- `StepClear` for donations one after the other. -/
def DonationsClear (p : L2PricingState) : Nat → List Nat → Prop
  | _, [] => True
  | before, d :: ds => StepClear p before d ∧ DonationsClear p (before + d) ds

theorem gasModelToUse_below_60 {p : L2PricingState} (hhigh : p.arbosVersion < 60) :
    p.gasModelToUse =
      if 50 ≤ p.arbosVersion ∧ 0 < p.gasConstraints.length then .singleGasConstraints
      else .legacy := by
  rw [L2PricingState.gasModelToUse, if_neg (by omega)]

/-- What a redeem pays and what the scan does, in terms of the state before the transaction. -/
def StepPriced (p : L2PricingState) (before d : Nat) : Prop :=
  (¬ (51 ≤ p.arbosVersion ∧ 0 < p.gasConstraints.length) ∧ p.gasBacklog ≤ d ↔
    p.gasModelToUse = .legacy ∧ p.gasBacklog ≤ before + d) ∧
  ∀ k : Nat, (51 ≤ p.arbosVersion ∧ ∃ c, p.gasConstraints[k]? = some c ∧ c.backlog ≤ d) ↔
    p.gasModelToUse = .singleGasConstraints ∧
      ∃ c, p.gasConstraints[k]? = some c ∧ c.backlog ≤ before + d

section Step

variable {p : L2PricingState} {before d : Nat}

theorem stepPriced_legacy (hmodel : p.gasModelToUse = .legacy)
    (hone : ¬ (51 ≤ p.arbosVersion ∧ 0 < p.gasConstraints.length)) :
    StepPriced p before d ↔ ¬ (d < p.gasBacklog ∧ p.gasBacklog ≤ before + d) := by
  rw [StepPriced, hmodel]
  constructor
  · rintro ⟨hsingle, -⟩ ⟨habove, hle⟩
    have := (hsingle.mpr ⟨rfl, hle⟩).2
    omega
  · intro hclear
    refine ⟨⟨fun hpays => ⟨rfl, by omega⟩, fun hzero => ⟨hone, by omega⟩⟩, fun k => ⟨?_, ?_⟩⟩
    · rintro ⟨hlow, c, hc, -⟩
      have := (List.getElem?_eq_some_iff.mp hc).1
      omega
    · intro hzero
      exact nomatch hzero.1

theorem stepPriced_constraints (hmodel : p.gasModelToUse = .singleGasConstraints)
    (hlow : 51 ≤ p.arbosVersion) (hn : 0 < p.gasConstraints.length) :
    StepPriced p before d ↔
      ∀ c ∈ p.gasConstraints, ¬ (d < c.backlog ∧ c.backlog ≤ before + d) := by
  rw [StepPriced, hmodel]
  constructor
  · rintro ⟨-, hall⟩ c hc ⟨habove, hle⟩
    obtain ⟨k, hk⟩ := List.getElem?_of_mem hc
    obtain ⟨-, c', hc', hle'⟩ := (hall k).mpr ⟨rfl, c, hk, hle⟩
    rw [hk] at hc'
    cases hc'
    omega
  · intro hclear
    refine ⟨⟨fun hpays => absurd ⟨hlow, hn⟩ hpays.1, fun hzero => (nomatch hzero.1)⟩,
      fun k => ⟨?_, ?_⟩⟩
    · rintro ⟨-, c, hc, hle⟩
      exact ⟨rfl, c, hc, by omega⟩
    · rintro ⟨-, c, hc, hle⟩
      have := hclear c (List.mem_of_getElem? hc)
      exact ⟨hlow, c, hc, by omega⟩

theorem stepPriced_fifty (hmodel : p.gasModelToUse = .singleGasConstraints)
    (hlow : ¬ 51 ≤ p.arbosVersion) : StepPriced p before d ↔
      d < p.gasBacklog ∧ ∀ c ∈ p.gasConstraints, before + d < c.backlog := by
  rw [StepPriced, hmodel]
  constructor
  · rintro ⟨hsingle, hall⟩
    refine ⟨?_, fun c hc => ?_⟩
    · by_contra hle
      exact nomatch (hsingle.mp ⟨fun hmany => hlow hmany.1, by omega⟩).1
    · by_contra hle
      obtain ⟨k, hk⟩ := List.getElem?_of_mem hc
      exact hlow ((hall k).mpr ⟨rfl, c, hk, by omega⟩).1
  · rintro ⟨habove, hall⟩
    refine ⟨⟨fun hpays => absurd hpays.2 (by omega), fun hzero => (nomatch hzero.1)⟩,
      fun k => ⟨fun hpays => absurd hpays.1 hlow, ?_⟩⟩
    rintro ⟨-, c, hc, hle⟩
    have := hall c (List.mem_of_getElem? hc)
    omega

theorem stepPriced_iff (hhigh : p.arbosVersion < 60) :
    StepPriced p before d ↔ StepClear p before d := by
  have hmodel := gasModelToUse_below_60 hhigh
  by_cases hsingle : 50 ≤ p.arbosVersion ∧ 0 < p.gasConstraints.length
  · rw [if_pos hsingle] at hmodel
    rw [StepClear, hmodel]
    by_cases hlow : 51 ≤ p.arbosVersion
    · rw [if_pos hlow]
      exact stepPriced_constraints hmodel hlow hsingle.2
    · rw [if_neg hlow]
      exact stepPriced_fifty hmodel hlow
  · rw [if_neg hsingle] at hmodel
    rw [StepClear, hmodel]
    exact stepPriced_legacy hmodel (by omega)

end Step

theorem priced_iff {p p' : L2PricingState} {before d : Nat} {i : RedeemCall} (hsees : i.Sees p)
    (h : TakenOut p p' before) :
    (∀ ref, PaysReset p.arbosVersion i d ref ↔ Zeroes p' d ref) ↔ StepPriced p before d := by
  rw [StepPriced, ← paysReset_single hsees, ← zeroes_single h]
  simp only [← paysReset_constraint hsees, ← zeroes_constraint h]
  exact ⟨fun hall => ⟨hall .single, fun k => hall (.constraint k)⟩,
    fun hall ref => ref.casesOn hall.1 hall.2⟩

/-- All redeems of a run: one step for each, the donations adding up. -/
theorem pricedExactly_iff {p p' : L2PricingState} {before : Nat} (hhigh : p.arbosVersion < 60)
    (h : TakenOut p p' before) {redeems : List (RedeemCall × Redeemed)}
    (hredeems : ∀ s ∈ redeems, s.1.Sees p ∧ RedeemedBy c s.2) :
    PricedExactly p.arbosVersion p' redeems ↔
      DonationsClear p before (redeems.map fun s => s.2.donated) := by
  induction redeems generalizing p' before with
  | nil => exact Iff.rfl
  | cons s redeems ih =>
    obtain ⟨hsees, hredeemed⟩ := hredeems s List.mem_cons_self
    have hrest := fun s' hs' => hredeems s' (List.mem_cons_of_mem s hs')
    rw [PricedExactly, List.map_cons, DonationsClear, scanLogBacklog_redeemed hredeemed,
      priced_iff hsees h, stepPriced_iff hhigh, ih (h.shrink s.2.donated) hrest]

theorem survivors_see (c : CancelCtx) (s : RunState) {p : L2PricingState} {calls : RetryCalls}
    (hsees : ∀ i ∈ calls.redeemCalls, i.Sees p) :
    ∀ r ∈ calls.survivors c s, r.1.Sees p ∧ RedeemedBy c r.2 := by
  intro r hr
  obtain ⟨hmem, id, w, t, nonce, donated, w', has⟩ := survivors_spec c calls s r hr
  exact ⟨hsees _ hmem, r.1, id, w, t, nonce, donated, w', has⟩

/-! ## Transactions -/

/-- The charges of a transaction with its calls: no redeem is charged more than it was given, the
    reservation is the update cost and covers what is charged, and below version 60 the reset
    price is paid for exactly the backlogs that are reset. -/
structure ChargesExactly (c : CancelCtx) (p : L2PricingState) (start : RetryableState)
    (calls : RetryCalls) : Prop where
  withinGas : ∀ s ∈ calls.survivors c (.start start), s.2.gasUsed ≤ s.1.gas
  reserves : Reserves p
  prices : p.arbosVersion < 60 →
    PricedExactly c.block.arbosVersion p (calls.survivors c (.start start))

/-- For every transaction whose redeems see the stored pricing state. -/
theorem redeem_charges_its_update_iff (c : CancelCtx) (p : L2PricingState)
    (start : RetryableState) (calls : RetryCalls) (hversion : c.block.arbosVersion = p.arbosVersion)
    (hsees : ∀ i ∈ calls.redeemCalls, i.Sees p) :
    ChargesExactly c p start calls ↔
      CostFits p ∧ (p.arbosVersion < 60 →
        DonationsClear p 0 ((calls.survivors c (.start start)).map fun s => s.2.donated)) := by
  have hgas : ∀ s ∈ calls.survivors c (.start start), s.2.gasUsed ≤ s.1.gas := by
    intro s hs
    obtain ⟨-, id, w, t, nonce, donated, w', has⟩ := survivors_spec c calls (.start start) s hs
    exact has.gasUsed_le
  have hprices := fun hhigh => pricedExactly_iff hhigh (.start p) (survivors_see c (.start start) hsees)
  constructor
  · intro h
    refine ⟨(reserves_iff p).mp h.reserves, fun hhigh => (hprices hhigh).mp ?_⟩
    exact hversion ▸ h.prices hhigh
  · rintro ⟨hfits, hclear⟩
    refine ⟨hgas, (reserves_iff p).mpr hfits, fun hhigh => ?_⟩
    rw [hversion]
    exact (hprices hhigh).mpr (hclear hhigh)

/-! ## Two redeems and one backlog -/

/-- A chain at version 40 whose backlog is more than one donation and less than two. -/
def samplePricing : L2PricingState where
  arbosVersion := 40
  speedLimitPerSecond := 7000000
  perBlockGasLimit := 32000000
  baseFeeWei := 100000000
  minBaseFeeWei := 100000000
  gasBacklog := 200000
  pricingInertia := 102
  backlogTolerance := 10
  perTxGasLimit := 32000000
  gasConstraints := []
  multiGasConstraints := []
  nextFees := fun _ => 0
  currentFees := fun _ => 0

/-- An open ticket. -/
def donorStart : RetryableState where
  world := (sampleExecutor ⟨0, 0, false⟩ fun _ => false).world.setTicket 0x111
    ⟨0, 0xabc, some 0xdef, 0, sampleSender, [], 1700504800, 0⟩
  queue := .init

def donorCtx : CancelCtx := ⟨fun _ => 0, sampleCtx, 0⟩

def donorCall : RedeemCall := ⟨200000, sampleGas_le, 36, sampleSender, [], 200000⟩

def redeemTwice : RetryCalls := .redeem donorCall 0x111 (.redeem donorCall 0x111 .done)

theorem redeemTwice_sees : ∀ i ∈ redeemTwice.redeemCalls, i.Sees samplePricing := by
  intro i hi
  have hcall : i = donorCall := by simpa [redeemTwice, redeemCalls] using hi
  exact hcall ▸ ⟨rfl, rfl⟩

/-- The second redeem pays for a write, and its shrink resets the backlog. -/
theorem second_redeem_overpays :
    (redeemTwice.survivors donorCtx (.start donorStart)).map (fun s => s.2.donated) =
        [147945, 147945] ∧
      (scanBacklog samplePricing
        ((redeemTwice.run donorCtx (.start donorStart)).redeems.map Redeemed.log)).gasBacklog = 0 ∧
      ¬ ChargesExactly donorCtx samplePricing donorStart redeemTwice := by
  have hdonated : (redeemTwice.survivors donorCtx (.start donorStart)).map
      (fun s => s.2.donated) = [147945, 147945] := by
    decide +kernel
  refine ⟨hdonated, by decide +kernel, fun h => ?_⟩
  have hclear := (pricedExactly_iff (by decide) (.start samplePricing)
    (survivors_see donorCtx (.start donorStart) redeemTwice_sees)).mp (h.prices (by decide))
  rw [hdonated] at hclear
  exact hclear.2.1 ⟨by decide, by decide⟩

/-- The same two redeems with a backlog of 400000, after one that is undone. -/
def longBacklog : L2PricingState := { samplePricing with gasBacklog := 400000 }

def longCall : RedeemCall := { donorCall with currentGasBacklog := 400000 }

def redeemBoth : RetryCalls :=
  .call true (.redeem longCall 0x111 .done) (.redeem longCall 0x111 (.redeem longCall 0x111 .done))

theorem redeem_charges_its_update_twice :
    (redeemBoth.survivors donorCtx (.start donorStart)).map (fun s => s.2.donated) =
        [147945, 147945] ∧
      ChargesExactly donorCtx longBacklog donorStart redeemBoth := by
  have hdonated : (redeemBoth.survivors donorCtx (.start donorStart)).map
      (fun s => s.2.donated) = [147945, 147945] := by
    decide +kernel
  have hsees : ∀ i ∈ redeemBoth.redeemCalls, i.Sees longBacklog := by
    intro i hi
    have hcall : i = longCall := by simpa [redeemBoth, redeemCalls] using hi
    exact hcall ▸ ⟨rfl, rfl⟩
  refine ⟨hdonated, (redeem_charges_its_update_iff donorCtx longBacklog donorStart redeemBoth rfl
    hsees).mpr ⟨fun h => absurd h (by decide), fun _ => ?_⟩⟩
  rw [hdonated]
  exact ⟨fun hbetween => absurd hbetween.2 (by decide), fun hbetween => absurd hbetween.2 (by decide),
    trivial⟩

end Arbreth.Redeem
