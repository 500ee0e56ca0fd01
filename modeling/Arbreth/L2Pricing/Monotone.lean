/-
  Congestion never lowers the price.

  Each step from a backlog to the base fee is monotone, rounding and saturation included: the
  drain, the cast, the scaling, the division, the sum over the constraints, the truncated series
  and the product with the minimum fee. The product is the one place where a value could wrap,
  which a minimum fee below 2^192 rules out.
-/
import Arbreth.L2Pricing.Model
import Mathlib.Data.List.Forall2

namespace Arbreth.L2Pricing

open Arbreth.Lib L2PricingState
open Arbreth.Stylus (approxExpBasisPoints expLoop oneInBips)

/-! ## The exponential -/

theorem expLoop_mono {b b' r r' : Nat} (hb : b ≤ b') (hr : r ≤ r') (i : Nat) :
    expLoop b i r ≤ expLoop b' i r' := by
  induction i generalizing r r' with
  | zero => exact hr
  | succ i ih =>
    refine ih (satAdd64_le_satAdd64 (Nat.le_refl _) ?_)
    exact Nat.div_le_div_right (satMul64_le_satMul64 hr hb)

theorem le_expLoop {b r : Nat} (hr : oneInBips ≤ r) (i : Nat) : oneInBips ≤ expLoop b i r := by
  induction i generalizing r with
  | zero => exact hr
  | succ i ih =>
    refine ih (le_min (Nat.le_add_right _ _) ?_)
    decide

theorem expLoop_le {b r : Nat} (hr : r ≤ u64Max) (i : Nat) : expLoop b i r ≤ u64Max := by
  induction i generalizing r with
  | zero => exact hr
  | succ i ih => exact ih (Nat.min_le_right _ _)

theorem oneInBips_le_satAdd64 (n : Nat) : oneInBips ≤ satAdd64 oneInBips n :=
  le_min (Nat.le_add_right _ _) (by decide)

variable {minBaseFee : U256} (bips accuracy : Nat) {ms : List MultiGasConstraint} {a b : Nat}

theorem le_approxExp : oneInBips ≤ approxExpBasisPoints bips accuracy := by
  unfold approxExpBasisPoints
  split
  · exact Nat.le_refl _
  · exact le_expLoop (oneInBips_le_satAdd64 _) _

theorem approxExp_le : approxExpBasisPoints bips accuracy ≤ u64Max := by
  unfold approxExpBasisPoints
  split
  · decide
  · exact expLoop_le (Nat.min_le_right _ _) _

theorem approxExp_mono {bips bips' : Nat} (h : bips ≤ bips') (accuracy : Nat) :
    approxExpBasisPoints bips accuracy ≤ approxExpBasisPoints bips' accuracy := by
  by_cases hzero : bips = 0 ∨ accuracy = 0
  · rw [approxExpBasisPoints, if_pos hzero]
    exact le_approxExp _ _
  · have hzero' : ¬ (bips' = 0 ∨ accuracy = 0) := by omega
    rw [approxExpBasisPoints, if_neg hzero, approxExpBasisPoints, if_neg hzero']
    exact expLoop_mono h (satAdd64_le_satAdd64 (Nat.le_refl _) (Nat.div_le_div_right h)) _

/-! ## The fee of an exponent -/

theorem toNat_calcBaseFee (hmin : minBaseFee.toNat * 2 ^ 64 < 2 ^ 256) (exponent : Nat) :
    (calcBaseFeeFromExponent minBaseFee exponent).toNat =
      minBaseFee.toNat * approxExpBasisPoints exponent 4 / 10000 := by
  have hexp := approxExp_le exponent 4
  have hone := le_approxExp exponent 4
  unfold u64Max at hexp
  unfold oneInBips at hone
  have hge := Nat.div_le_div_right (c := 10000) (Nat.mul_le_mul_left minBaseFee.toNat hone)
  rw [Nat.mul_div_cancel _ (by decide)] at hge
  unfold calcBaseFeeFromExponent
  split
  · next hzero =>
    rw [hzero, show approxExpBasisPoints 0 4 = 10000 from rfl, Nat.mul_div_cancel _ (by decide)]
  · have hprod : minBaseFee.toNat * approxExpBasisPoints exponent 4 < 2 ^ 256 :=
      (Nat.mul_le_mul_left _ (by omega)).trans_lt hmin
    have hfee : (minBaseFee * BitVec.ofNat 256 (approxExpBasisPoints exponent 4) / 10000).toNat =
        minBaseFee.toNat * approxExpBasisPoints exponent 4 / 10000 := by
      rw [BitVec.toNat_udiv, BitVec.toNat_mul, BitVec.toNat_ofNat,
        Nat.mod_eq_of_lt (a := approxExpBasisPoints exponent 4) (by omega), Nat.mod_eq_of_lt hprod]
      rfl
    rw [if_neg, hfee]
    rw [BitVec.lt_def, hfee]
    exact Nat.not_lt_of_le hge

theorem minBaseFee_le_calcBaseFee (exponent : Nat) :
    minBaseFee ≤ calcBaseFeeFromExponent minBaseFee exponent := by
  unfold calcBaseFeeFromExponent
  split
  · exact BitVec.le_refl _
  · dsimp only
    split
    · exact BitVec.le_refl _
    · next h => exact BitVec.not_lt.mp h

theorem calcBaseFee_mono (hmin : minBaseFee.toNat * 2 ^ 64 < 2 ^ 256) {e e' : Nat} (h : e ≤ e') :
    calcBaseFeeFromExponent minBaseFee e ≤ calcBaseFeeFromExponent minBaseFee e' := by
  rw [BitVec.le_def, toNat_calcBaseFee hmin, toNat_calcBaseFee hmin]
  exact Nat.div_le_div_right (Nat.mul_le_mul_left _ (approxExp_mono h 4))

/-! ## The exponents -/

theorem saturatingCast_mono (h : a ≤ b) : saturatingCastToI64 a ≤ saturatingCastToI64 b := by
  unfold saturatingCastToI64
  omega

theorem naturalToBips_mono (h : a ≤ b) : naturalToBips a ≤ naturalToBips b := by
  unfold naturalToBips
  omega

theorem GasConstraint.exponent_mono {c : GasConstraint} {b : Nat} (h : c.backlog ≤ b) :
    c.exponent ≤ { c with backlog := b }.exponent := by
  unfold exponent
  by_cases hpos : 0 < c.backlog
  · rw [if_pos hpos, if_pos (hpos.trans_le h)]
    dsimp only
    split
    · exact Nat.div_le_div_right (naturalToBips_mono (saturatingCast_mono h))
    · exact Nat.le_refl _
  · rw [if_neg hpos]
    exact Nat.zero_le _

theorem MultiGasConstraint.exponent_mono {c : MultiGasConstraint} {b : Nat} (h : c.backlog ≤ b)
    (kind : ResourceKind) : c.exponent kind ≤ { c with backlog := b }.exponent kind := by
  unfold exponent
  by_cases hzero : c.backlog = 0
  · rw [if_pos hzero]
    exact Nat.zero_le _
  · have hzero' : ¬ b = 0 := by omega
    rw [if_neg hzero, if_neg hzero']
    dsimp only
    split
    · exact Nat.le_refl _
    split
    · exact Nat.le_refl _
    split
    · exact Nat.le_refl _
    split
    · exact Nat.le_refl _
    · refine Nat.div_le_div_right (naturalToBips_mono (saturatingCast_mono ?_))
      exact satMul64_le_satMul64 h (Nat.le_refl _)

theorem satAddI64_mono {a a' b b' : Nat} (ha : a ≤ a') (hb : b ≤ b') :
    satAddI64 a b ≤ satAddI64 a' b' := by
  unfold satAddI64
  omega

/-- A saturating sum over two lists, the second of which is above the first. -/
theorem foldl_satAddI64_mono {α : Type} {f : α → Nat} {cs ds : List α}
    (h : List.Forall₂ (fun c d => f c ≤ f d) cs ds) (hab : a ≤ b) :
    cs.foldl (fun total c => satAddI64 total (f c)) a ≤
      ds.foldl (fun total c => satAddI64 total (f c)) b := by
  induction h generalizing a b with
  | nil => exact hab
  | cons hcd _ ih => exact ih (satAddI64_mono hab hcd)

/-! ## The largest fee -/

section Largest

variable {kinds : List ResourceKind} {f g : ResourceKind → U256} {m m' : U256}

theorem le_foldl_larger (kinds : List ResourceKind) (f : ResourceKind → U256) (m : U256) :
    m ≤ kinds.foldl (fun largest kind => if largest < f kind then f kind else largest) m := by
  induction kinds generalizing m with
  | nil => exact BitVec.le_refl _
  | cons k kinds ih =>
    refine BitVec.le_trans ?_ (ih _)
    dsimp only
    split
    · next h => exact BitVec.le_of_lt h
    · exact BitVec.le_refl _

theorem fee_le_foldl_larger {k : ResourceKind} (hk : k ∈ kinds) :
    f k ≤ kinds.foldl (fun largest kind => if largest < f kind then f kind else largest) m := by
  induction kinds generalizing m with
  | nil => exact absurd hk List.not_mem_nil
  | cons k' kinds ih =>
    rcases List.mem_cons.mp hk with rfl | hk
    · refine BitVec.le_trans ?_ (le_foldl_larger kinds f _)
      dsimp only
      split
      · exact BitVec.le_refl _
      · next h => exact BitVec.not_lt.mp h
    · exact ih hk

theorem foldl_larger_le {b : U256} (hm : m ≤ b) (hf : ∀ k ∈ kinds, f k ≤ b) :
    kinds.foldl (fun largest kind => if largest < f kind then f kind else largest) m ≤ b := by
  induction kinds generalizing m with
  | nil => exact hm
  | cons k kinds ih =>
    refine ih ?_ fun k' hk' => hf k' (List.mem_cons_of_mem k hk')
    dsimp only
    split
    · exact hf k List.mem_cons_self
    · exact hm

end Largest

theorem nextFees_le_baseFee (s : L2PricingState) (timePassed : Nat) (kind : ResourceKind) :
    (s.updatePricingModelMultiConstraints timePassed).nextFees kind ≤
      (s.updatePricingModelMultiConstraints timePassed).baseFeeWei :=
  fee_le_foldl_larger kind.mem_all

/-- The base fee is the least bound of the fees from the minimum fee on. -/
theorem baseFee_le_of_nextFees_le {s : L2PricingState} {timePassed : Nat} {b : U256}
    (hmin : s.minBaseFeeWei ≤ b)
    (h : ∀ kind, (s.updatePricingModelMultiConstraints timePassed).nextFees kind ≤ b) :
    (s.updatePricingModelMultiConstraints timePassed).baseFeeWei ≤ b :=
  foldl_larger_le hmin fun kind _ => h kind

/-! ## The three models -/

/-- The second state is the first with larger backlogs, and nothing else changed. -/
def MoreBacklog (s s' : L2PricingState) : Prop :=
  ∃ backlog constraints multiConstraints,
    s' = { s with
      gasBacklog := backlog
      gasConstraints := constraints
      multiGasConstraints := multiConstraints } ∧
    s.gasBacklog ≤ backlog ∧
    List.Forall₂ (fun c d : GasConstraint => ∃ b, c.backlog ≤ b ∧ d = { c with backlog := b })
      s.gasConstraints constraints ∧
    List.Forall₂ (fun c d : MultiGasConstraint => ∃ b, c.backlog ≤ b ∧ d = { c with backlog := b })
      s.multiGasConstraints multiConstraints

variable {s s' : L2PricingState}

theorem drained_mono {b b' : Nat} (h : b ≤ b') (target timePassed : Nat) :
    drained b target timePassed ≤ drained b' target timePassed :=
  Nat.sub_le_sub_right h _

theorem minBaseFee_le_update (s : L2PricingState) (timePassed : Nat) :
    s.minBaseFeeWei ≤ (s.updatePricingModel timePassed).baseFeeWei := by
  unfold L2PricingState.updatePricingModel
  split
  · unfold updatePricingModelLegacy
    dsimp only
    split
    · split
      · exact BitVec.le_refl _
      · exact minBaseFee_le_calcBaseFee _
    · exact BitVec.le_refl _
  · exact minBaseFee_le_calcBaseFee _
  · exact le_foldl_larger _ _ _

theorem legacy_mono (hmin : s.minBaseFeeWei.toNat * 2 ^ 64 < 2 ^ 256) {backlog : Nat}
    (h : s.gasBacklog ≤ backlog) (cs : List GasConstraint) (ms : List MultiGasConstraint)
    (timePassed : Nat) :
    (s.updatePricingModelLegacy timePassed).baseFeeWei ≤
      ({ s with gasBacklog := backlog, gasConstraints := cs, multiGasConstraints := ms
         : L2PricingState }.updatePricingModelLegacy timePassed).baseFeeWei := by
  have hdrain := drained_mono h s.speedLimitPerSecond timePassed
  unfold updatePricingModelLegacy
  dsimp only
  split
  · next hlt =>
    rw [if_pos (hlt.trans_le hdrain)]
    split
    · exact BitVec.le_refl _
    · refine calcBaseFee_mono hmin (Nat.div_le_div_right (naturalToBips_mono ?_))
      exact saturatingCast_mono (Nat.sub_le_sub_right hdrain _)
  · split
    · split
      · exact BitVec.le_refl _
      · exact minBaseFee_le_calcBaseFee _
    · exact BitVec.le_refl _

theorem totalExponent_mono {cs ds : List GasConstraint}
    (h : List.Forall₂ (fun c d : GasConstraint => ∃ b, c.backlog ≤ b ∧ d = { c with backlog := b })
      cs ds) (timePassed : Nat) :
    totalExponent (cs.map (·.drain timePassed)) ≤
      totalExponent (ds.map (·.drain timePassed)) := by
  refine foldl_satAddI64_mono ?_ (Nat.le_refl 0)
  rw [List.forall₂_map_left_iff, List.forall₂_map_right_iff]
  refine h.imp ?_
  rintro c d ⟨b, hb, rfl⟩
  exact GasConstraint.exponent_mono (c := c.drain timePassed) (drained_mono hb _ _)

theorem multiExponent_mono {cs ds : List MultiGasConstraint}
    (h : List.Forall₂
      (fun c d : MultiGasConstraint => ∃ b, c.backlog ≤ b ∧ d = { c with backlog := b }) cs ds)
    (timePassed : Nat) (kind : ResourceKind) :
    calcMultiGasConstraintsExponents (cs.map (·.drain timePassed)) kind ≤
      calcMultiGasConstraintsExponents (ds.map (·.drain timePassed)) kind := by
  refine foldl_satAddI64_mono ?_ (Nat.le_refl 0)
  rw [List.forall₂_map_left_iff, List.forall₂_map_right_iff]
  refine h.imp ?_
  rintro c d ⟨b, hb, rfl⟩
  exact MultiGasConstraint.exponent_mono (c := c.drain timePassed) (drained_mono hb _ _) kind

theorem multi_mono (hmin : s.minBaseFeeWei.toNat * 2 ^ 64 < 2 ^ 256) (h : List.Forall₂
      (fun c d : MultiGasConstraint => ∃ b, c.backlog ≤ b ∧ d = { c with backlog := b })
      s.multiGasConstraints ms) (backlog : Nat) (cs : List GasConstraint) (timePassed : Nat) :
    (s.updatePricingModelMultiConstraints timePassed).baseFeeWei ≤
      ({ s with gasBacklog := backlog, gasConstraints := cs, multiGasConstraints := ms
         : L2PricingState }.updatePricingModelMultiConstraints timePassed).baseFeeWei := by
  refine baseFee_le_of_nextFees_le (le_foldl_larger _ _ _) fun kind => ?_
  refine BitVec.le_trans (calcBaseFee_mono hmin (multiExponent_mono h timePassed kind)) ?_
  exact nextFees_le_baseFee
    { s with gasBacklog := backlog, gasConstraints := cs, multiGasConstraints := ms } timePassed kind

theorem gasModelToUse_congr {cs : List GasConstraint} (hcs : s.gasConstraints.length = cs.length)
    (hms : s.multiGasConstraints.length = ms.length) (backlog : Nat) :
    { s with gasBacklog := backlog, gasConstraints := cs, multiGasConstraints := ms
      : L2PricingState }.gasModelToUse = s.gasModelToUse := by
  unfold gasModelToUse
  rw [hcs, hms]

/-- **Congestion never lowers the price.** In each of the three models, of two states that
    differ in their backlogs alone the one with more backlog gets at least the base fee of the
    other, and neither falls below the minimum. -/
theorem congestion_never_lowers_price (hmin : s.minBaseFeeWei.toNat < 2 ^ 190)
    (h : MoreBacklog s s') (timePassed : Nat) :
    (s.updatePricingModel timePassed).baseFeeWei ≤ (s'.updatePricingModel timePassed).baseFeeWei ∧
      s.minBaseFeeWei ≤ (s.updatePricingModel timePassed).baseFeeWei ∧
      s'.minBaseFeeWei ≤ (s'.updatePricingModel timePassed).baseFeeWei := by
  refine ⟨?_, minBaseFee_le_update s timePassed, minBaseFee_le_update s' timePassed⟩
  obtain ⟨backlog, cs, ms, rfl, hbacklog, hcs, hms⟩ := h
  have hmin' : s.minBaseFeeWei.toNat * 2 ^ 64 < 2 ^ 256 := by omega
  unfold L2PricingState.updatePricingModel
  rw [gasModelToUse_congr hcs.length_eq hms.length_eq]
  cases s.gasModelToUse with
  | legacy => exact legacy_mono hmin' hbacklog cs ms timePassed
  | singleGasConstraints => exact calcBaseFee_mono hmin' (totalExponent_mono hcs timePassed)
  | multiGasConstraints => exact multi_mono hmin' hms backlog cs timePassed

/-- Gas waiting above the tolerance raises the fee. -/
theorem congestion_never_lowers_price_legacy :
    let s : L2PricingState := ⟨32, 7, 0, 0, 100, 0, 102, 10, 0, [], [], fun _ => 0, fun _ => 0⟩
    MoreBacklog s { s with gasBacklog := 100000 } ∧
      (s.updatePricingModel 1).baseFeeWei ≤
        ({ s with gasBacklog := 100000 }.updatePricingModel 1).baseFeeWei ∧
      (s.updatePricingModel 1).baseFeeWei <
        ({ s with gasBacklog := 100000 }.updatePricingModel 1).baseFeeWei := by
  have hmore : MoreBacklog ⟨32, 7, 0, 0, 100, 0, 102, 10, 0, [], [], fun _ => 0, fun _ => 0⟩
      ⟨32, 7, 0, 0, 100, 100000, 102, 10, 0, [], [], fun _ => 0, fun _ => 0⟩ :=
    ⟨100000, [], [], rfl, Nat.zero_le _, .nil, .nil⟩
  exact ⟨hmore, (congestion_never_lowers_price (by decide) hmore 1).1, by decide +kernel⟩

end Arbreth.L2Pricing
