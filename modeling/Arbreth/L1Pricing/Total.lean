/-
  The kept total is the sum over the posters.

  Runs of the operations on the poster table, from an initialised one: posters are added or
  opened, what they are owed is set, spending reports arrive, failing calls included. In every
  run in which no assignment overflows, the total is the sum, no poster occurs twice and the
  list of funds due is right (`total_funds_due_is_sum`).

  The condition is needed: `set_funds_due` adds the new value to the total before it subtracts
  the old one, and the saturating addition loses what does not fit even where the true sum fits
  (`reassigned_due_loses_a_wei`).
-/
import Arbreth.Lib.Run
import Arbreth.L1Pricing.Spending

namespace Arbreth.L1Pricing

open Arbreth.Lib BatchPostersTable

inductive TableOp where
  | addPoster (poster payTo : Address)
  | openPoster (poster : Address) (create : Bool)
  | setFundsDue (poster : Address) (value : U256)
  | setPayTo (poster addr : Address)
  | update (r : SpendingReport)

namespace L1PricingState

/-- Continue with the table of a call, or as before where it fails. -/
def withTable (p : L1PricingState) : Except L1PricingError BatchPostersTable → L1PricingState
  | .ok posters => { p with posters }
  | .error _ => p

/-- An entry is reached by `open_poster`. -/
def step (p : L1PricingState) : TableOp → Option L1PricingState
  | .addPoster poster payTo => some (p.withTable (p.posters.addPoster poster payTo))
  | .openPoster poster create => some (p.withTable (p.posters.openPoster poster create))
  | .setFundsDue poster value =>
    some (p.withTable ((p.posters.openPoster poster false).map (·.setFundsDue poster value)))
  | .setPayTo poster addr =>
    some (p.withTable ((p.posters.openPoster poster false).map (·.setPayTo poster addr)))
  | .update r => some (p.updateForBatchPosterSpending r).2.1

/-- Nothing overflows: not the number of posters, not a total before the old value is
    subtracted. A report assigns twice. -/
def Fits (p : L1PricingState) : TableOp → Prop
  | .addPoster _ _ => p.posters.posterAddrs.size + 1 < 2 ^ 64
  | .openPoster _ _ => p.posters.posterAddrs.size + 1 < 2 ^ 64
  | .setFundsDue _ value => p.posters.totalFundsDue.toNat + value.toNat < 2 ^ 256
  | .setPayTo _ _ => True
  | .update r => p.posters.posterAddrs.size + 1 < 2 ^ 64 ∧
      p.posters.totalFundsDue.toNat + r.weiSpent.toNat < 2 ^ 255

instance (p : L1PricingState) (op : TableOp) : Decidable (p.Fits op) := by
  unfold Fits
  cases op <;> infer_instance

variable {p : L1PricingState} {r : SpendingReport}

variable {t t' : BatchPostersTable} {poster : Address}

theorem balanced_openPoster {create : Bool} (h : t.Balanced)
    (hfits : t.posterAddrs.size + 1 < 2 ^ 64) (hopen : t.openPoster poster create = .ok t') :
    t'.Balanced := by
  unfold openPoster at hopen
  split at hopen
  · cases hopen
    exact h
  · split at hopen
    · exact balanced_addPoster h hfits hopen
    · cases hopen

/-- Without creating, only a poster of the table is opened, and the table stays. -/
theorem openPoster_false (hopen : t.openPoster poster false = .ok t') :
    t' = t ∧ t.containsPoster poster = true := by
  unfold openPoster at hopen
  split at hopen
  · next hmem =>
    cases hopen
    exact ⟨rfl, hmem⟩
  · cases hopen

theorem toNat_cappedSpending_le (p : L1PricingState) (r : SpendingReport) (units : Nat) :
    (p.cappedSpending r units).toNat ≤ r.weiSpent.toNat := by
  unfold cappedSpending
  split
  · rw [toNat_min256]
    exact Nat.min_le_right _ _
  · exact Nat.le_refl _

theorem toNat_balanceDue_le (p : L1PricingState) (r : SpendingReport) : (p.balanceDue r).toNat ≤
    (p.posters.fundsDue r.batchPoster).toNat + r.weiSpent.toNat := by
  have := p.toNat_cappedSpending_le r (p.unitsAllocated r)
  rw [balanceDue, toNat_satAdd256]
  omega

/-- The two assignments of an accepted report. -/
theorem balanced_settled (h : p.posters.Balanced)
    (hmem : p.posters.containsPoster r.batchPoster = true)
    (hfits : p.posters.totalFundsDue.toNat + r.weiSpent.toNat < 2 ^ 255) :
    (p.settled r).1.posters.Balanced := by
  have hdue := fundsDue_le_total h hmem
  have hnew := p.toNat_balanceDue_le r
  have hrecorded : (p.rewarded r).posters.Balanced :=
    balanced_setFundsDue h hmem (by omega)
  have htotal : (p.rewarded r).posters.totalFundsDue.toNat ≤
      p.posters.totalFundsDue.toNat + r.weiSpent.toNat := by
    change (satSub256 (satAdd256 p.posters.totalFundsDue (p.balanceDue r)) _).toNat ≤ _
    rw [toNat_satSub256, toNat_satAdd256]
    omega
  rw [settled_eq]
  rcases (p.rewarded r).payPoster_cases r.batchPoster with ⟨_, hpay⟩ | hpay
  · rw [hpay]
    exact hrecorded
  · rw [hpay, rewarded_fundsDue]
    refine balanced_setFundsDue hrecorded hmem ?_
    rw [toNat_satSub256]
    omega

theorem balanced_update (h : p.posters.Balanced) (hsize : p.posters.posterAddrs.size + 1 < 2 ^ 64)
    (hfits : p.posters.totalFundsDue.toNat + r.weiSpent.toNat < 2 ^ 255) :
    (p.updateForBatchPosterSpending r).2.1.posters.Balanced := by
  have hopened : (p.opened r.batchPoster).posters.Balanced :=
    balanced_opened h hsize
  rcases p.update_cases r with hu | hu | hu
  · rwa [hu]
  · rwa [hu]
  · rw [hu]
    obtain ⟨_, _, _, hposters, _⟩ := (p.opened r.batchPoster).accepted_eq r
    rw [hposters]
    refine balanced_settled hopened (contains_opened hsize) ?_
    rwa [show (p.opened r.batchPoster).posters.totalFundsDue = p.posters.totalFundsDue from
      totalFundsDue_opened]

theorem balanced_step {p' : L1PricingState} (op : TableOp) (h : p.posters.Balanced)
    (hfits : p.Fits op) (hstep : p.step op = some p') : p'.posters.Balanced := by
  cases op with
  | addPoster poster payTo =>
    cases hstep
    cases hadd : p.posters.addPoster poster payTo with
    | error e => exact h
    | ok t => exact balanced_addPoster h hfits hadd
  | openPoster poster create =>
    cases hstep
    cases hopen : p.posters.openPoster poster create with
    | error e => exact h
    | ok t => exact balanced_openPoster h hfits hopen
  | setFundsDue poster value =>
    cases hstep
    cases hopen : p.posters.openPoster poster false with
    | error e => exact h
    | ok t =>
      obtain ⟨rfl, hmem⟩ := openPoster_false hopen
      exact balanced_setFundsDue h hmem hfits
  | setPayTo poster addr =>
    cases hstep
    cases hopen : p.posters.openPoster poster false with
    | error e => exact h
    | ok t =>
      obtain ⟨rfl, _⟩ := openPoster_false hopen
      exact balanced_setPayTo h addr
  | update r =>
    cases hstep
    exact balanced_update h hfits.1 hfits.2

/-- What the table promises. -/
structure TotalIsSum (t : BatchPostersTable) : Prop where
  total : t.totalFundsDue.toNat = (t.allPosters.map fun a => (t.fundsDue a).toNat).sum
  nodup : t.allPosters.Nodup
  list : t.getFundsDueList =
    (t.allPosters.filter fun a => t.fundsDue a ≠ 0).map fun a => ⟨a, t.fundsDue a⟩

theorem totalIsSum_of_balanced {t : BatchPostersTable} (h : t.Balanced) : TotalIsSum t := by
  have hall : t.allPosters = t.posterAddrs.members :=
    Storage.AddressSet.allMembers_u64Max h.consistent
  refine ⟨?_, ?_, getFundsDueList_eq t⟩
  · rw [h.total, sumDue, hall]
  · rw [hall]
    exact Storage.AddressSet.nodup_members h.consistent

/-- From an initialised table, in every run in which nothing overflows. -/
theorem total_funds_due_is_sum (p p' : L1PricingState) (initialPoster : Address)
    (hinit : p.posters = initializeBatchPostersTable initialPoster) (ops : List TableOp)
    (hfits : Along step Fits p ops) (hrun : exec step p ops = some p') : TotalIsSum p'.posters := by
  refine totalIsSum_of_balanced ?_
  refine exec_invariant (fun q op q' hq hok hstep => balanced_step op hq hok hstep) ?_ hfits hrun
  rw [hinit]
  exact balanced_initial initialPoster

theorem total_funds_due_is_sum_report :
    ∃ p', exec step sampleState [.addPoster 0xb0 0xb1, .setFundsDue 0xb0 9, .update sampleReport,
      .update { sampleReport with updateTime := 300 }] = some p' ∧ TotalIsSum p'.posters :=
  ⟨_, rfl, total_funds_due_is_sum sampleState _ Exec.batchPosterAddress rfl
    [.addPoster 0xb0 0xb1, .setFundsDue 0xb0 9, .update sampleReport,
      .update { sampleReport with updateTime := 300 }] (by decide +kernel) rfl⟩

/-- One poster is owed 2^255 wei and the same is assigned again: the true sum stays 2^255, the
    total loses a wei. -/
theorem reassigned_due_loses_a_wei : ∃ p',
    sampleState.posters = initializeBatchPostersTable Exec.batchPosterAddress ∧
    exec step sampleState [.setFundsDue Exec.batchPosterAddress (BitVec.twoPow 256 255),
      .setFundsDue Exec.batchPosterAddress (BitVec.twoPow 256 255)] = some p' ∧
    (p'.posters.allPosters.map fun a => (p'.posters.fundsDue a).toNat).sum = 2 ^ 255 ∧
    p'.posters.totalFundsDue.toNat = 2 ^ 255 - 1 ∧ ¬ TotalIsSum p'.posters := by
  refine ⟨_, rfl, rfl, by decide +kernel, by decide +kernel, fun h => ?_⟩
  exact absurd h.total (by decide +kernel)

end L1PricingState

end Arbreth.L1Pricing
