/-
  Totals over a finite set of accounts.

  A ledger is a function from accounts to amounts. What a change of one account does to the
  sum over all of them is `total_update`; the rest are bounds by the sum.
-/
import Mathlib.Algebra.BigOperators.Group.Finset.Piecewise
import Mathlib.Algebra.Order.BigOperators.Group.Finset

namespace Arbreth.Lib

open Function

/-- Bit vectors of a width are finitely many. -/
instance bitVecFintype (w : Nat) : Fintype (BitVec w) :=
  Fintype.ofEquiv (Fin (2 ^ w)) ⟨BitVec.ofFin, BitVec.toFin, fun _ => rfl, fun _ => rfl⟩

variable {α : Type} [Fintype α] [DecidableEq α]

/-- The sum of all amounts. -/
def total (b : α → Nat) : Nat := ∑ a, b a

theorem total_update (b : α → Nat) (a : α) (v : Nat) :
    total (update b a v) + b a = total b + v := by
  have hrest : ∑ x ∈ Finset.univ.erase a, update b a v x =
      ∑ x ∈ Finset.univ.erase a, b x :=
    Finset.sum_congr rfl fun x hx => update_of_ne (Finset.ne_of_mem_erase hx) v b
  unfold total
  rw [← Finset.add_sum_erase _ _ (Finset.mem_univ a), hrest, update_self,
    ← Finset.add_sum_erase _ b (Finset.mem_univ a)]
  omega

omit [DecidableEq α] in
theorem le_total (b : α → Nat) (a : α) : b a ≤ total b :=
  Finset.single_le_sum (fun _ _ => Nat.zero_le _) (Finset.mem_univ a)

end Arbreth.Lib
