/-
  The table of batch posters (arbos, l1_pricing/batch_poster.rs).

  A poster's entry is what the chain owes it and the address it is paid at; the table also keeps
  the sum of what is owed. Entries lie in storage under the poster's address whether or not the
  address set has it: a poster that is added gets a fresh entry.

  `Balanced` is what the table is for: the kept sum is the sum over the posters. Every operation
  keeps it except an assignment whose saturating addition overflows.
-/
import Mathlib.Algebra.BigOperators.Group.Finset.Piecewise
import Arbreth.Storage.AddressSet

namespace Arbreth.L1Pricing

open Arbreth.Lib Arbreth.Storage Function AddressSet

inductive L1PricingError where
  | batchPosterNotFound
  | batchPosterAlreadyExists
  | invalidUpdateTime
  deriving DecidableEq

structure BatchPostersTable where
  posterAddrs : AddressSet
  fundsDue : Address → U256
  payTo : Address → Address
  totalFundsDue : U256

/-- `FundsDueItem`. -/
structure FundsDueItem where
  address : Address
  fundsDue : U256
  deriving DecidableEq

/-- `initialize_batch_posters_table` over fresh storage. -/
def initializeBatchPostersTable (initialPoster : Address) : BatchPostersTable where
  posterAddrs := AddressSet.init.add initialPoster
  fundsDue := fun _ => 0
  payTo := update (fun _ => 0) initialPoster initialPoster
  totalFundsDue := 0

namespace BatchPostersTable

def containsPoster (t : BatchPostersTable) (poster : Address) : Bool := t.posterAddrs.isMember poster

def addPoster (t : BatchPostersTable) (posterAddress payTo : Address) :
    Except L1PricingError BatchPostersTable :=
  if t.containsPoster posterAddress then .error .batchPosterAlreadyExists
  else
    .ok { t with
      fundsDue := update t.fundsDue posterAddress 0
      payTo := update t.payTo posterAddress payTo
      posterAddrs := t.posterAddrs.add posterAddress }

/-- `open_poster`: the table in which the poster's entry is then read and written. -/
def openPoster (t : BatchPostersTable) (poster : Address) (createIfNotExist : Bool) :
    Except L1PricingError BatchPostersTable :=
  if t.containsPoster poster then .ok t
  else if createIfNotExist then t.addPoster poster poster
  else .error .batchPosterNotFound

def allPosters (t : BatchPostersTable) : List Address := t.posterAddrs.allMembers u64Max

def getFundsDueList (t : BatchPostersTable) : List FundsDueItem :=
  t.allPosters.filterMap fun poster =>
    if 0 < t.fundsDue poster then some ⟨poster, t.fundsDue poster⟩ else none

/-- `set_funds_due` on a poster's entry and the table's sum. -/
def setFundsDue (t : BatchPostersTable) (poster : Address) (value : U256) : BatchPostersTable :=
  { t with
    totalFundsDue := satSub256 (satAdd256 t.totalFundsDue value) (t.fundsDue poster)
    fundsDue := update t.fundsDue poster value }

def setPayTo (t : BatchPostersTable) (poster addr : Address) : BatchPostersTable :=
  { t with payTo := update t.payTo poster addr }

/-! ## The sum over the posters -/

/-- What is owed to all posters. -/
def sumDue (t : BatchPostersTable) : Nat :=
  (t.posterAddrs.members.map fun a => (t.fundsDue a).toNat).sum

structure Balanced (t : BatchPostersTable) : Prop where
  consistent : t.posterAddrs.Consistent
  total : t.totalFundsDue.toNat = t.sumDue

variable {t : BatchPostersTable} {a : Address}

theorem containsPoster_iff (h : t.Balanced) : t.containsPoster a = true ↔ a ∈ t.posterAddrs.members :=
  isMember_iff h.consistent a

/-- What one poster is owed and what all are owed, apart. -/
theorem sumDue_eq (h : t.posterAddrs.Consistent) (ha : a ∈ t.posterAddrs.members) :
    t.sumDue = (t.fundsDue a).toNat +
      ∑ b ∈ t.posterAddrs.members.toFinset \ {a}, (t.fundsDue b).toNat := by
  rw [sumDue, ← List.sum_toFinset _ (nodup_members h)]
  exact Finset.sum_eq_add_sum_sdiff_singleton_of_mem (List.mem_toFinset.mpr ha) _

theorem fundsDue_le_total (h : t.Balanced) (ha : t.containsPoster a = true) :
    (t.fundsDue a).toNat ≤ t.totalFundsDue.toNat := by
  rw [h.total, sumDue_eq h.consistent ((containsPoster_iff h).mp ha)]
  exact Nat.le_add_right _ _

theorem sumDue_setFundsDue (h : t.posterAddrs.Consistent) (ha : a ∈ t.posterAddrs.members)
    (value : U256) :
    (t.setFundsDue a value).sumDue + (t.fundsDue a).toNat = t.sumDue + value.toNat := by
  rw [sumDue_eq h ha, sumDue_eq (t := t.setFundsDue a value) h ha]
  have hrest : ∑ b ∈ t.posterAddrs.members.toFinset \ {a},
      ((t.setFundsDue a value).fundsDue b).toNat =
      ∑ b ∈ t.posterAddrs.members.toFinset \ {a}, (t.fundsDue b).toNat := by
    refine Finset.sum_congr rfl fun b hb => ?_
    have hne : b ≠ a := by simpa using (Finset.mem_sdiff.mp hb).2
    simp [setFundsDue, hne]
  have hself : (t.setFundsDue a value).fundsDue a = value := update_self ..
  rw [hself, show (t.setFundsDue a value).posterAddrs = t.posterAddrs from rfl, hrest]
  omega

theorem balanced_setFundsDue (h : t.Balanced) (ha : t.containsPoster a = true) {value : U256}
    (hfits : t.totalFundsDue.toNat + value.toNat < 2 ^ 256) : (t.setFundsDue a value).Balanced := by
  refine ⟨h.consistent, ?_⟩
  have hsum := sumDue_setFundsDue h.consistent ((containsPoster_iff h).mp ha) value
  have htotal := h.total
  rw [setFundsDue, toNat_satSub256, toNat_satAdd256]
  unfold u256Max
  change _ = (t.setFundsDue a value).sumDue
  omega

theorem balanced_setPayTo (h : t.Balanced) (addr : Address) : (t.setPayTo a addr).Balanced :=
  ⟨h.consistent, h.total⟩

theorem balanced_addPoster {payTo : Address} {t' : BatchPostersTable} (h : t.Balanced)
    (hfits : t.posterAddrs.size + 1 < 2 ^ 64) (hadd : t.addPoster a payTo = .ok t') :
    t'.Balanced := by
  unfold addPoster at hadd
  cases hmem : t.containsPoster a with
  | true => rw [if_pos hmem] at hadd; cases hadd
  | false =>
    rw [if_neg (by rw [hmem]; exact Bool.false_ne_true)] at hadd
    cases hadd
    refine ⟨consistent_add h.consistent hfits, ?_⟩
    have hnew : a ∉ t.posterAddrs.members := by
      rw [← containsPoster_iff h, hmem]
      exact Bool.false_ne_true
    dsimp only [sumDue]
    rw [members_add hmem hfits, List.map_append, List.sum_append, h.total, sumDue]
    have hold : t.posterAddrs.members.map (fun b => (update t.fundsDue a 0 b).toNat) =
        t.posterAddrs.members.map fun b => (t.fundsDue b).toNat := by
      refine List.map_congr_left fun b hb => ?_
      have hne : b ≠ a := fun he => hnew (he ▸ hb)
      rw [update_of_ne hne]
    rw [hold]
    simp

theorem balanced_initial (a : Address) : (initializeBatchPostersTable a).Balanced := by
  have hsize : AddressSet.init.size + 1 < 2 ^ 64 := by decide
  refine ⟨consistent_add consistent_init hsize, ?_⟩
  rw [sumDue, initializeBatchPostersTable]
  rw [members_add rfl hsize]
  rfl

/-! ## Opening a poster -/

/-- What the update of the pricing state opens: it never fails. -/
def opened (t : BatchPostersTable) (poster : Address) : BatchPostersTable :=
  if t.containsPoster poster then t
  else
    { t with
      fundsDue := update t.fundsDue poster 0
      payTo := update t.payTo poster poster
      posterAddrs := t.posterAddrs.add poster }

theorem openPoster_true (t : BatchPostersTable) (a : Address) :
    t.openPoster a true = .ok (t.opened a) := by
  unfold openPoster opened addPoster
  split
  · rfl
  · rfl

theorem balanced_opened (h : t.Balanced) (hfits : t.posterAddrs.size + 1 < 2 ^ 64) :
    (t.opened a).Balanced := by
  cases ha : t.containsPoster a with
  | true => rwa [opened, if_pos ha]
  | false =>
    have hopen := openPoster_true t a
    rw [openPoster, ha] at hopen
    exact balanced_addPoster h hfits hopen

theorem contains_opened (hfits : t.posterAddrs.size + 1 < 2 ^ 64) :
    (t.opened a).containsPoster a = true := by
  unfold opened
  split
  · assumption
  · exact isMember_add a hfits

theorem totalFundsDue_opened : (t.opened a).totalFundsDue = t.totalFundsDue := by
  unfold opened
  split
  · rfl
  · rfl

theorem fundsDue_opened_self :
    (t.opened a).fundsDue a = if t.containsPoster a then t.fundsDue a else 0 := by
  unfold opened
  split
  · rfl
  · exact update_self ..

theorem fundsDue_opened_of_ne {b : Address} (hb : b ≠ a) :
    (t.opened a).fundsDue b = t.fundsDue b := by
  unfold opened
  split
  · rfl
  · exact update_of_ne hb ..

theorem payTo_opened_self :
    (t.opened a).payTo a = if t.containsPoster a then t.payTo a else a := by
  unfold opened
  split
  · rfl
  · exact update_self ..

/-! ## The list of funds due -/

/-- The list has an item for each poster that is owed something, with what it is owed. -/
theorem getFundsDueList_eq (t : BatchPostersTable) : t.getFundsDueList =
    (t.allPosters.filter fun a => t.fundsDue a ≠ 0).map fun a => ⟨a, t.fundsDue a⟩ := by
  have hpos : ∀ v : U256, 0 < v ↔ v ≠ 0 := BitVec.pos_iff_ne_zero
  unfold getFundsDueList
  induction t.allPosters with
  | nil => rfl
  | cons a as ih =>
    rw [List.filterMap_cons, List.filter_cons, ih]
    by_cases hdue : t.fundsDue a = 0
    · have hkept : ¬ decide (t.fundsDue a ≠ 0) = true := by simp [hdue]
      rw [if_neg fun h => (hpos _).mp h hdue, if_neg hkept]
    · rw [if_pos ((hpos _).mpr hdue), if_pos (decide_eq_true hdue)]
      rfl

end BatchPostersTable

end Arbreth.L1Pricing
