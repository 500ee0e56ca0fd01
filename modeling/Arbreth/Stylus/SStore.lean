/-
  What a storage write costs and gives back (arb-stylus, evm_api_impl.rs: sstore_gas_cost,
  sstore_refund; multi_gas.rs: state_store).

  The host functions of Stylus price a write as revm prices SSTORE. `sstoreRefund` follows the
  source, `eip3529Refund` the clauses of EIP-2200 with the amounts of EIP-3529. Refunds are
  integers and amounts of gas are naturals: the `i64` and `u64` of the source hold all sums that
  the gas of a transaction can buy.
-/
import Arbreth.L2Pricing.Model
import Mathlib.Algebra.Group.Hom.Defs
import Mathlib.Algebra.Group.Nat.Defs
import Mathlib.Algebra.Group.Pi.Basic

namespace Arbreth.Stylus

open Arbreth.Lib
open Arbreth.L2Pricing (MultiGas ResourceKind)

/-! ## Gas of several kinds -/

/-- `MultiGas::saturating_add`. -/
def addMultiGas (a b : MultiGas) : MultiGas := ⟨a.gas + b.gas⟩

/-- Gas of one kind. -/
def oneKind (k : ResourceKind) (gas : Nat) : MultiGas := ⟨fun j => if j = k then gas else 0⟩

/-- The total of the gas of all kinds. -/
def kindsSum : (ResourceKind → ℕ) →+ ℕ where
  toFun g := (ResourceKind.all.map g).sum
  map_zero' := rfl
  map_add' a b := by
    simp only [ResourceKind.all, List.map_cons, List.map_nil, List.sum_cons, List.sum_nil,
      Pi.add_apply]
    omega

theorem addMultiGas_gas (a b : MultiGas) : (addMultiGas a b).gas = a.gas + b.gas := rfl

theorem sum_addMultiGas (a b : MultiGas) : (addMultiGas a b).sum = a.sum + b.sum :=
  kindsSum.map_add a.gas b.gas

theorem sum_oneKind (k : ResourceKind) (gas : Nat) : (oneKind k gas).sum = gas := by
  cases k <;> simp [MultiGas.sum, ResourceKind.all, oneKind]

theorem multiGas_ext {a b : MultiGas} (h : a.gas = b.gas) : a = b := by
  cases a
  cases b
  exact congrArg MultiGas.mk h

/-- `SStoreInfo`. -/
structure SStoreInfo where
  isCold : Bool
  original : U256
  present : U256
  new : U256
  deriving DecidableEq

/-! ## Refunds -/

/-- `sstore_refund`. -/
def sstoreRefund (info : SStoreInfo) : Int :=
  if info.new = info.present then 0
  else if info.original = info.present ∧ info.new = 0 then 4800
  else
    (if info.original ≠ 0 then
        if info.present = 0 then -4800 else if info.new = 0 then 4800 else 0
      else 0) +
    (if info.original = info.new then
        if info.original = 0 then 19900 else 2800
      else 0)

/-- The refund of a write by the clauses of EIP-2200: nothing for a write that changes nothing;
    for a slot not yet changed the refund for clearing it; for a changed slot the refund for
    clearing it, taken back or given, and the refund for restoring it. -/
def eip3529Refund (info : SStoreInfo) : Int :=
  if info.present = info.new then 0
  else if info.original = info.present then
    if info.original ≠ 0 ∧ info.new = 0 then 4800 else 0
  else
    (if info.original ≠ 0 ∧ info.present = 0 then -4800 else 0) +
    (if info.original ≠ 0 ∧ info.new = 0 then 4800 else 0) +
    (if info.original = info.new ∧ info.original = 0 then 19900 else 0) +
    (if info.original = info.new ∧ info.original ≠ 0 then 2800 else 0)

variable (info : SStoreInfo)

theorem sstoreRefund_eq : sstoreRefund info = eip3529Refund info := by
  obtain ⟨cold, original, present, new⟩ := info
  unfold sstoreRefund eip3529Refund
  -- nothing depends on which value zero is
  generalize (0 : U256) = zero
  by_cases hnoop : new = present
  · simp [hnoop]
  by_cases hclean : original = present
  · by_cases hclear : new = zero
    · have hset : ¬ present = zero := fun h => hnoop (hclear.trans h.symm)
      simp [hclean, hclear, hset, Ne.symm hset]
    · simp [hclean, hclear, hnoop, Ne.symm hnoop]
  · by_cases hcleared : present = zero
    · have hset : ¬ original = zero := fun h => hclean (h.trans hcleared.symm)
      have hnew : ¬ new = zero := fun h => hnoop (h.trans hcleared.symm)
      simp [hcleared, hset, hnew, Ne.symm hnew]
    · by_cases hset : original = zero
      · simp [hnoop, Ne.symm hnoop, hcleared, hset, Ne.symm hcleared]
      · simp [hnoop, Ne.symm hnoop, hclean, hcleared, hset]

/-! ## Costs -/

/-- `sstore_gas_cost`. -/
def sstoreGasCost (info : SStoreInfo) : Nat :=
  (if info.original = info.new then 100
    else if info.original = info.present then if info.original = 0 then 20000 else 2900
    else 100) + if info.isCold then 2100 else 0

/-- `multi_gas::state_store`. -/
def stateStore (info : SStoreInfo) : MultiGas where
  gas
    | .storageAccessRead => if info.isCold then 2100 else 0
    | .computation =>
      if info.present = info.new ∨ info.original ≠ info.present then 100 else 0
    | .storageGrowth =>
      if info.present ≠ info.new ∧ info.original = info.present ∧ info.original = 0 then 20000
      else 0
    | .storageAccessWrite =>
      if info.present ≠ info.new ∧ info.original = info.present ∧ info.original ≠ 0 then 2900
      else 0
    | _ => 0

theorem sum_stateStore : (stateStore info).sum = sstoreGasCost info := by
  obtain ⟨cold, original, present, new⟩ := info
  simp only [MultiGas.sum, ResourceKind.all, stateStore, sstoreGasCost, List.map_cons, List.map_nil,
    List.sum_cons, List.sum_nil]
  generalize (0 : U256) = zero
  by_cases hclean : original = present
  · subst hclean
    by_cases hnoop : original = new
    · simp [hnoop]
    · by_cases hzero : original = zero
      · simp only [hzero]
        simp [hzero ▸ hnoop, Nat.add_comm]
      · simp [hnoop, hzero, Nat.add_comm]
  · simp [hclean]

theorem sstoreGasCost_pos : 0 < sstoreGasCost info := by
  unfold sstoreGasCost
  split
  · omega
  · split
    · split <;> omega
    · omega

theorem stateStore_wasmComputation : (stateStore info).gas .wasmComputation = 0 := rfl

end Arbreth.Stylus
