/-
  From one pricing model to the next (arbos, l2_pricing/model.rs: set_gas_constraints_from_legacy,
  set_multi_gas_constraints_from_single_gas_constraints).

  The second migration copies every constraint with weight one for each kind of resource. From
  then on the two models run different code: the backlog is updated kind by kind, with saturation
  at each, and the base fee is the largest of the kinds' fees. `Matches` relates a state of the
  single model to one of the multi model; every operation keeps it, so that nobody who reads the
  backlogs and the base fee can tell whether the migration took place.

  The first migration makes one constraint of the legacy parameters, with the tolerance taken off
  the backlog for good. The legacy model drains first and takes the tolerance off afterwards; the
  two orders leave the same backlog, so the next update gives the same price.
-/
import Arbreth.L2Pricing.ResourceFees
import Mathlib.Algebra.Order.BigOperators.Group.List

namespace Arbreth.L2Pricing

open Arbreth.Lib L2PricingState

/-- `u32::MAX`. -/
def u32Max : Nat := 2 ^ 32 - 1

/-- `set_multi_gas_constraints_from_single_gas_constraints`. -/
def setMultiGasConstraintsFromSingleGasConstraints (s : L2PricingState) : L2PricingState :=
  s.gasConstraints.foldl
    (fun s' c =>
      let adjustmentWindow := if u32Max < c.adjustmentWindow then u32Max else c.adjustmentWindow
      PricingOp.apply s' (.addMultiGasConstraint c.target adjustmentWindow c.backlog fun _ => 1))
    (PricingOp.apply s .clearMultiGasConstraints)

/-- The constraint that takes the place of another. -/
def GasConstraint.migrated (c : GasConstraint) : MultiGasConstraint where
  target := c.target
  adjustmentWindow := c.adjustmentWindow
  backlog := c.backlog
  maxWeight := 1
  weights := fun _ => 1

open GasConstraint

theorem migration_loop (cs : List GasConstraint) (hwindow : ∀ c ∈ cs, c.adjustmentWindow ≤ u32Max)
    (s : L2PricingState) :
    cs.foldl
      (fun s' c =>
        let adjustmentWindow := if u32Max < c.adjustmentWindow then u32Max else c.adjustmentWindow
        PricingOp.apply s' (.addMultiGasConstraint c.target adjustmentWindow c.backlog fun _ => 1)) s =
      { s with multiGasConstraints := s.multiGasConstraints ++ cs.map migrated } := by
  induction cs generalizing s with
  | nil => simp
  | cons c cs ih =>
    obtain ⟨hc, hcs⟩ := List.forall_mem_cons.mp hwindow
    rw [List.foldl_cons, ih hcs]
    simp [PricingOp.apply, migrated, Nat.not_lt.mpr hc, ResourceKind.all]

theorem migrate_eq (s : L2PricingState) (hwindow : ∀ c ∈ s.gasConstraints, c.adjustmentWindow ≤ u32Max) :
    setMultiGasConstraintsFromSingleGasConstraints s =
      { s with multiGasConstraints := s.gasConstraints.map migrated } := by
  unfold setMultiGasConstraintsFromSingleGasConstraints
  rw [migration_loop _ hwindow]
  rfl

/-! ## The backlogs -/

variable {c : GasConstraint} (op : BacklogOperation) {kind : ResourceKind}

theorem applyGasDeltaOp_le {backlog : Nat} (h : backlog ≤ u64Max) (delta : Nat) :
    applyGasDeltaOp op backlog delta ≤ u64Max := by
  cases op with
  | shrink => exact (Nat.sub_le _ _).trans h
  | grow => exact Nat.min_le_right _ _

/-- The amounts of the kinds one after another change a backlog by their sum. -/
theorem foldl_applyGasDeltaOp (amount : ResourceKind → Nat) (kinds : List ResourceKind)
    {backlog : Nat} (hbacklog : backlog ≤ u64Max) :
    kinds.foldl (fun b kind => applyGasDeltaOp op b (amount kind)) backlog =
      applyGasDeltaOp op backlog (kinds.map amount).sum := by
  induction kinds generalizing backlog with
  | nil =>
    cases op with
    | shrink => rfl
    | grow => exact (Nat.min_eq_left hbacklog).symm
  | cons kind kinds ih =>
    rw [List.foldl_cons, ih (applyGasDeltaOp_le op hbacklog _), List.map_cons, List.sum_cons]
    cases op with
    | shrink => exact Nat.sub_sub _ _ _
    | grow =>
      simp only [applyGasDeltaOp, satAdd64]
      omega

theorem gas_le_sum (g : MultiGas) (kind : ResourceKind) : g.gas kind ≤ g.sum :=
  List.single_le_sum (fun _ _ => Nat.zero_le _) _ (List.mem_map_of_mem kind.mem_all)

/-- A migrated constraint counts the whole gas, whatever its kinds. -/
theorem updateBacklog_migrated (hbacklog : c.backlog ≤ u64Max) (op : BacklogOperation)
    {g : MultiGas} (hfits : g.sum ≤ u64Max) :
    c.migrated.updateBacklog op g =
      migrated { c with backlog := applyGasDeltaOp op c.backlog g.sum } := by
  have hamount : ∀ kind, satMul64 (g.gas kind) 1 = g.gas kind := by
    intro kind
    have := gas_le_sum g kind
    unfold satMul64
    omega
  have hloop := foldl_applyGasDeltaOp op g.gas ResourceKind.all hbacklog
  simp only [MultiGasConstraint.updateBacklog, migrated, Nat.one_ne_zero, if_false,
    hamount, hloop]
  rfl

/-! ## The base fee -/

/-- The exponent of a migrated constraint, for every kind but the one that is skipped. -/
theorem exponent_migrated (htarget : c.target ≤ u64Max) (hbacklog : c.backlog ≤ u64Max)
    (hkind : kind ≠ .singleDim) : c.migrated.exponent kind = c.exponent := by
  have htarget' : satMul64 c.target 1 = c.target := by
    unfold satMul64
    omega
  have hbacklog' : satMul64 c.backlog 1 = c.backlog := by
    unfold satMul64
    omega
  unfold MultiGasConstraint.exponent exponent
  simp only [migrated, Nat.one_ne_zero, or_false, htarget', hbacklog', hkind, if_false]
  by_cases hb : c.backlog = 0
  · simp [hb]
  · have hpos : 0 < c.backlog := Nat.pos_of_ne_zero hb
    rw [if_neg hb, if_pos hpos]
    by_cases hzero : c.target = 0 ∨ c.adjustmentWindow = 0
    · have hdivisor : saturatingCastToI64 (satMul64 c.adjustmentWindow c.target) = 0 := by
        rcases hzero with h | h <;> simp [h, satMul64, saturatingCastToI64]
      rw [if_pos hzero, if_neg (not_not_intro hdivisor)]
    · rw [if_neg hzero]
      by_cases hdivisor : saturatingCastToI64 (satMul64 c.adjustmentWindow c.target) = 0
      · rw [if_pos hdivisor, if_neg (not_not_intro hdivisor)]
      · rw [if_neg hdivisor, if_pos hdivisor]

theorem exponent_singleDim (c : MultiGasConstraint) : c.exponent .singleDim = 0 := by
  unfold MultiGasConstraint.exponent
  dsimp only
  split
  · rfl
  · split
    · rfl
    · split
      · rfl
      · exact if_pos rfl

/-- Constraints in storage: targets and backlogs are `u64` values. -/
def Stored (cs : List GasConstraint) : Prop := ∀ c ∈ cs, c.target ≤ u64Max ∧ c.backlog ≤ u64Max

theorem exponents_migrated {cs : List GasConstraint} (hcs : Stored cs) (hkind : kind ≠ .singleDim) :
    calcMultiGasConstraintsExponents (cs.map migrated) kind =
      totalExponent cs := by
  unfold calcMultiGasConstraintsExponents totalExponent
  rw [List.foldl_map]
  refine List.foldl_ext _ _ _ fun total c hc => ?_
  rw [exponent_migrated (hcs c hc).1 (hcs c hc).2 hkind]

theorem exponents_singleDim (cs : List MultiGasConstraint) :
    calcMultiGasConstraintsExponents cs .singleDim = 0 := by
  unfold calcMultiGasConstraintsExponents
  induction cs with
  | nil => rfl
  | cons c cs ih =>
    rw [List.foldl_cons, exponent_singleDim]
    exact ih

/-! ## The simulation -/

/-- A state of the single model and its migrated counterpart. -/
structure Matches (s s' : L2PricingState) : Prop where
  version : 60 ≤ s.arbosVersion ∧ s'.arbosVersion = s.arbosVersion
  noMulti : s.multiGasConstraints = []
  nonempty : s.gasConstraints ≠ []
  stored : Stored s.gasConstraints
  multi : s'.multiGasConstraints = s.gasConstraints.map migrated
  minBaseFee : s'.minBaseFeeWei = s.minBaseFeeWei
  baseFee : s'.baseFeeWei = s.baseFeeWei

section Simulation

variable {s s' : L2PricingState}

theorem Matches.model (h : Matches s s') : s.gasModelToUse = .singleGasConstraints := by
  have hlength : 0 < s.gasConstraints.length := List.length_pos_iff.mpr h.nonempty
  have hversion := h.version.1
  unfold gasModelToUse
  rw [if_neg (by simp [h.noMulti]), if_pos ⟨by omega, hlength⟩]

theorem Matches.model_migrated (h : Matches s s') : s'.gasModelToUse = .multiGasConstraints := by
  have hlength : 0 < s'.multiGasConstraints.length := by
    rw [h.multi, List.length_map]
    exact List.length_pos_iff.mpr h.nonempty
  unfold gasModelToUse
  rw [if_pos ⟨h.version.2 ▸ h.version.1, hlength⟩]

theorem Matches.updateBacklog (h : Matches s s') (op : BacklogOperation) {g : MultiGas}
    (hfits : g.sum ≤ u64Max) : Matches (s.updateBacklog op g.sum g) (s'.updateBacklog op g.sum g) := by
  unfold L2PricingState.updateBacklog
  rw [h.model, h.model_migrated]
  refine ⟨h.version, h.noMulti, ?_, ?_, ?_, h.minBaseFee, h.baseFee⟩
  · simpa using h.nonempty
  · intro c hc
    obtain ⟨d, hd, rfl⟩ := List.mem_map.mp hc
    exact ⟨(h.stored d hd).1, applyGasDeltaOp_le op (h.stored d hd).2 _⟩
  · rw [h.multi, List.map_map, List.map_map]
    refine List.map_congr_left fun c hc => ?_
    exact updateBacklog_migrated (h.stored c hc).2 op hfits

theorem Stored.drain {cs : List GasConstraint} (h : Stored cs) (timePassed : Nat) :
    Stored (cs.map (·.drain timePassed)) := by
  intro c hc
  obtain ⟨d, hd, rfl⟩ := List.mem_map.mp hc
  exact ⟨(h d hd).1, (Nat.sub_le _ _).trans (h d hd).2⟩

/-- The largest of the kinds' fees is the fee of the single model. -/
theorem Matches.baseFee_update (h : Matches s s') (timePassed : Nat) :
    (s'.updatePricingModelMultiConstraints timePassed).baseFeeWei =
      (s.updatePricingModelSingleConstraints timePassed).baseFeeWei := by
  have hdrained : s'.multiGasConstraints.map (·.drain timePassed) =
      (s.gasConstraints.map (·.drain timePassed)).map migrated := by
    rw [h.multi, List.map_map, List.map_map]
    rfl
  have hfee : ∀ kind, kind ≠ .singleDim →
      (s'.updatePricingModelMultiConstraints timePassed).nextFees kind =
        (s.updatePricingModelSingleConstraints timePassed).baseFeeWei := by
    intro kind hkind
    simp only [updatePricingModelMultiConstraints,
      updatePricingModelSingleConstraints, hdrained, h.minBaseFee,
      exponents_migrated (h.stored.drain timePassed) hkind]
  have hmin : s'.minBaseFeeWei ≤ (s.updatePricingModelSingleConstraints timePassed).baseFeeWei :=
    h.minBaseFee ▸ minBaseFee_le_calcBaseFee _
  refine BitVec.le_antisymm (baseFee_le_of_nextFees_le hmin fun kind => ?_) ?_
  · by_cases hkind : kind = .singleDim
    · refine BitVec.le_trans (BitVec.le_of_eq ?_) hmin
      simp only [hkind, updatePricingModelMultiConstraints, exponents_singleDim]
      rfl
    · exact BitVec.le_of_eq (hfee kind hkind)
  · rw [← hfee .unknown (by decide)]
    exact nextFees_le_baseFee s' timePassed .unknown

theorem Matches.updatePricingModel (h : Matches s s') (timePassed : Nat) :
    Matches (s.updatePricingModel timePassed) (s'.updatePricingModel timePassed) := by
  have hbaseFee := h.baseFee_update timePassed
  unfold L2PricingState.updatePricingModel
  rw [h.model, h.model_migrated]
  refine ⟨h.version, h.noMulti, ?_, h.stored.drain timePassed, ?_, h.minBaseFee, hbaseFee⟩
  · simpa [updatePricingModelSingleConstraints] using h.nonempty
  · simp only [updatePricingModelSingleConstraints,
      updatePricingModelMultiConstraints, h.multi, List.map_map]
    rfl

end Simulation

/-- A call that works on the prices: `grow_backlog` and `shrink_backlog` with the gas split into
    its kinds, and `update_pricing_model`. -/
inductive PricingCall where
  | updateBacklog (op : BacklogOperation) (gas : Nat) (multiGas : MultiGas)
  | updatePricingModel (timePassed : Nat)

open PricingCall

/-- The kinds of gas sum to the gas, without overflow. -/
def PricingCall.Split : PricingCall → Prop
  | updateBacklog _ gas multiGas => multiGas.sum = gas ∧ gas ≤ u64Max
  | updatePricingModel _ => True

def PricingCall.apply (s : L2PricingState) : PricingCall → L2PricingState
  | updateBacklog op gas multiGas => s.updateBacklog op gas multiGas
  | updatePricingModel timePassed => s.updatePricingModel timePassed

theorem Matches.run {s s' : L2PricingState} (h : Matches s s') {calls : List PricingCall}
    (hcalls : ∀ c ∈ calls, c.Split) :
    Matches (calls.foldl apply s) (calls.foldl apply s') := by
  induction calls generalizing s s' with
  | nil => exact h
  | cons c calls ih =>
    obtain ⟨hc, hrest⟩ := List.forall_mem_cons.mp hcalls
    refine ih ?_ hrest
    cases c with
    | updatePricingModel timePassed => exact h.updatePricingModel timePassed
    | updateBacklog op gas multiGas =>
      obtain ⟨rfl, hfits⟩ := hc
      exact h.updateBacklog op hfits

/-- The migration cannot be seen: whatever calls follow, the backlogs and the base fee are those
    of a state that was not migrated. -/
theorem migration_is_invisible {s : L2PricingState} (hversion : 60 ≤ s.arbosVersion)
    (hmodel : s.gasModelToUse = .singleGasConstraints) (hstored : Stored s.gasConstraints)
    (hwindow : ∀ c ∈ s.gasConstraints, c.adjustmentWindow ≤ 2 ^ 32 - 1) (calls : List PricingCall)
    (hcalls : ∀ c ∈ calls, c.Split) :
    let t := calls.foldl apply s
    let t' := calls.foldl apply (setMultiGasConstraintsFromSingleGasConstraints s)
    t'.multiGasConstraints.map (·.backlog) = t.gasConstraints.map (·.backlog) ∧
      t'.baseFeeWei = t.baseFeeWei := by
  intro t t'
  have hnoMulti : s.multiGasConstraints = [] := by
    by_contra hne
    have hlength : 0 < s.multiGasConstraints.length := List.length_pos_iff.mpr hne
    rw [gasModelToUse, if_pos ⟨hversion, hlength⟩] at hmodel
    cases hmodel
  have hnonempty : s.gasConstraints ≠ [] := by
    intro hnil
    rw [gasModelToUse, if_neg (by simp [hnoMulti]), if_neg (by simp [hnil])] at hmodel
    cases hmodel
  have hmatches : Matches s (setMultiGasConstraintsFromSingleGasConstraints s) := by
    rw [migrate_eq s hwindow]
    exact ⟨⟨hversion, rfl⟩, hnoMulti, hnonempty, hstored, rfl, rfl, rfl⟩
  have hrun : Matches t t' := hmatches.run hcalls
  refine ⟨?_, hrun.baseFee⟩
  rw [hrun.multi, List.map_map]
  rfl

/-- Two constraints, one of them congested. -/
def sampleSingleState : L2PricingState where
  arbosVersion := 60
  speedLimitPerSecond := 7000000
  perBlockGasLimit := 32000000
  baseFeeWei := 100000000
  minBaseFeeWei := 100000000
  gasBacklog := 0
  pricingInertia := 102
  backlogTolerance := 10
  perTxGasLimit := 32000000
  gasConstraints := [⟨7000000, 60, 900000000⟩, ⟨30000000, 9, 5⟩]
  multiGasConstraints := []
  nextFees := fun _ => 0
  currentFees := fun _ => 0

theorem migration_is_invisible_sample :
    let calls := [.updateBacklog .grow 27 ⟨fun _ => 3⟩, .updatePricingModel 2]
    let t := calls.foldl apply sampleSingleState
    let t' := calls.foldl apply
      (setMultiGasConstraintsFromSingleGasConstraints sampleSingleState)
    t'.multiGasConstraints.map (·.backlog) = [886000027, 0] ∧ t'.baseFeeWei = t.baseFeeWei := by
  obtain ⟨hbacklogs, hbaseFee⟩ := migration_is_invisible (s := sampleSingleState) (by decide)
    (by decide) (by unfold Stored; decide) (by decide)
    [.updateBacklog .grow 27 ⟨fun _ => 3⟩, .updatePricingModel 2]
    (List.forall_mem_cons.mpr ⟨⟨by decide, by decide⟩,
      List.forall_mem_cons.mpr ⟨trivial, List.forall_mem_nil _⟩⟩)
  exact ⟨hbacklogs.trans (by decide), hbaseFee⟩

/-! ## From the legacy model -/

/-- `set_gas_constraints_from_legacy`. -/
def setGasConstraintsFromLegacy (s : L2PricingState) : L2PricingState :=
  let target := s.speedLimitPerSecond
  let backlog := s.gasBacklog - satMul64 s.backlogTolerance target
  PricingOp.apply (PricingOp.apply s .clearGasConstraints)
    (.addGasConstraint target s.pricingInertia backlog)

theorem gasModelToUse_fromLegacy {s : L2PricingState} (hversion : 50 ≤ s.arbosVersion)
    (hlegacy : s.gasModelToUse = .legacy) :
    (setGasConstraintsFromLegacy s).gasModelToUse = .singleGasConstraints := by
  have hmulti : ¬ (60 ≤ s.arbosVersion ∧ 0 < s.multiGasConstraints.length) := by
    intro h
    rw [gasModelToUse, if_pos h] at hlegacy
    cases hlegacy
  exact (if_neg hmulti).trans (if_pos ⟨hversion, Nat.one_pos⟩)

/-- The legacy price is the price of one constraint, of what the backlog has above the
    tolerance. -/
theorem baseFeeWei_legacy (s : L2PricingState) (timePassed : Nat) :
    (s.updatePricingModelLegacy timePassed).baseFeeWei =
      calcBaseFeeFromExponent s.minBaseFeeWei
        (drain ⟨s.speedLimitPerSecond, s.pricingInertia,
          s.gasBacklog - wrap64 (s.backlogTolerance * s.speedLimitPerSecond)⟩ timePassed).exponent := by
  have hzero : calcBaseFeeFromExponent s.minBaseFeeWei 0 = s.minBaseFeeWei := if_pos rfl
  dsimp only [updatePricingModelLegacy, exponent, drain]
  generalize wrap64 (s.backlogTolerance * s.speedLimitPerSecond) = limit
  -- draining and taking off the tolerance can be done in either order
  have horder : drained (s.gasBacklog - limit) s.speedLimitPerSecond timePassed =
      drained s.gasBacklog s.speedLimitPerSecond timePassed - limit := Nat.sub_right_comm _ _ _
  rw [horder]
  by_cases hover : limit < drained s.gasBacklog s.speedLimitPerSecond timePassed
  · rw [if_pos hover, if_pos (Nat.sub_pos_of_lt hover)]
    by_cases hdivisor : saturatingCastToI64 (satMul64 s.pricingInertia s.speedLimitPerSecond) = 0
    · rw [if_pos hdivisor, if_neg (not_not.mpr hdivisor), hzero]
    · rw [if_neg hdivisor, if_pos hdivisor]
  · rw [if_neg hover, if_neg (by omega), hzero]

theorem GasConstraint.exponent_le (c : GasConstraint) : c.exponent ≤ i64Max := by
  unfold exponent
  split
  · dsimp only
    split
    · exact (Nat.div_le_self _ _).trans (Nat.min_le_right _ _)
    · exact Nat.zero_le _
  · exact Nat.zero_le _

/-- After the migration the model of the single constraints is in use, and its first update stores
    the base fee the legacy model would have stored, for every backlog, inertia, speed limit,
    minimum fee and time. -/
theorem legacy_migration_keeps_price (s : L2PricingState) (hversion : 50 ≤ s.arbosVersion)
    (hlegacy : s.gasModelToUse = .legacy)
    (hfits : s.backlogTolerance * s.speedLimitPerSecond ≤ u64Max) (timePassed : Nat) :
    (setGasConstraintsFromLegacy s).gasModelToUse = .singleGasConstraints ∧
      ((setGasConstraintsFromLegacy s).updatePricingModel timePassed).baseFeeWei =
        (s.updatePricingModel timePassed).baseFeeWei := by
  have hmodel := gasModelToUse_fromLegacy hversion hlegacy
  refine ⟨hmodel, ?_⟩
  have hsat : satMul64 s.backlogTolerance s.speedLimitPerSecond =
      s.backlogTolerance * s.speedLimitPerSecond := Nat.min_eq_left hfits
  have hwrap : wrap64 (s.backlogTolerance * s.speedLimitPerSecond) =
      s.backlogTolerance * s.speedLimitPerSecond := wrap64_of_lt (by unfold u64Max at hfits; omega)
  rw [L2PricingState.updatePricingModel, L2PricingState.updatePricingModel, hlegacy, hmodel]
  rw [baseFeeWei_legacy, hwrap, ← hsat]
  -- the sum over the one constraint saturates at nothing
  refine congrArg (calcBaseFeeFromExponent s.minBaseFeeWei) ?_
  change satAddI64 0 _ = _
  rw [satAddI64, Nat.zero_add]
  exact Nat.min_eq_left (exponent_le _)

/-- A congested chain in the legacy model. -/
def sampleLegacyState : L2PricingState :=
  { sampleSingleState with gasBacklog := 900000000, gasConstraints := [] }

theorem legacy_migration_keeps_price_sample :
    sampleLegacyState.gasModelToUse = .legacy ∧
      ((setGasConstraintsFromLegacy sampleLegacyState).gasModelToUse = .singleGasConstraints ∧
        ((setGasConstraintsFromLegacy sampleLegacyState).updatePricingModel 2).baseFeeWei =
          (sampleLegacyState.updatePricingModel 2).baseFeeWei) ∧
      100000000 < (sampleLegacyState.updatePricingModel 2).baseFeeWei :=
  ⟨by decide, legacy_migration_keeps_price sampleLegacyState (by decide) (by decide) (by decide) 2,
    by decide⟩

end Arbreth.L2Pricing
