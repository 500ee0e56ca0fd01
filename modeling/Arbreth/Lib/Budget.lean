/-
  Buying in order from a budget, up to the first thing that cannot be paid.

  The things are elements of a commutative monoid and a price is additive. When everything can be
  paid the order does not matter. When it cannot, the sum of what is bought depends on the order,
  except in two cases: nothing at all can be paid, or all things are the same
  (`orderFree_iff`). The reason is an exchange of the first thing that is too expensive with one
  that was bought before it.
-/
import Mathlib.Algebra.BigOperators.Group.List.Basic
import Mathlib.Algebra.Group.Nat.Hom
import Mathlib.Tactic.Abel

namespace Arbreth.Lib

variable {M : Type} [AddCommMonoid M] {price : M →+ ℕ}

/-- What is bought, up to the first thing that cannot be paid. -/
def bought (price : M →+ ℕ) : ℕ → List M → List M
  | _, [] => []
  | budget, v :: vs =>
    if budget < price v then [] else v :: bought price (budget - price v) vs

/-- The sum of what is bought is the same in every order. -/
def OrderFree (price : M →+ ℕ) (budget : ℕ) (l : List M) : Prop :=
  ∀ l', l'.Perm l → (bought price budget l').sum = (bought price budget l).sum

theorem bought_append {budget : ℕ} {p : List M} (q : List M) (h : price p.sum ≤ budget) :
    bought price budget (p ++ q) = p ++ bought price (budget - price p.sum) q := by
  induction p generalizing budget with
  | nil => simp
  | cons v p ih =>
    rw [List.sum_cons, map_add] at h
    have hpaid : ¬ budget < price v := by omega
    have hrest : price p.sum ≤ budget - price v := by omega
    rw [List.cons_append, bought, if_neg hpaid, ih hrest, List.sum_cons, map_add, Nat.sub_sub,
      List.cons_append]

variable {l : List M}

theorem bought_all {budget : ℕ} (h : price l.sum ≤ budget) : bought price budget l = l := by
  have hall := bought_append [] h
  rwa [List.append_nil, bought, List.append_nil] at hall

theorem bought_short {budget : ℕ} {p : List M} {x : M} (q : List M) (hfits : price p.sum ≤ budget)
    (hshort : budget < price p.sum + price x) : bought price budget (p ++ x :: q) = p := by
  have hstop : budget - price p.sum < price x := by omega
  rw [bought_append _ hfits, bought, if_pos hstop, List.append_nil]

/-- Where not everything can be paid, there is a first thing that cannot. -/
theorem exists_short {budget : ℕ} (h : budget < price l.sum) :
    ∃ p x q, l = p ++ x :: q ∧ price p.sum ≤ budget ∧ budget < price p.sum + price x := by
  induction l generalizing budget with
  | nil => simp at h
  | cons v l ih =>
    by_cases hpaid : budget < price v
    · exact ⟨[], v, l, rfl, by simp, by simpa using hpaid⟩
    · rw [List.sum_cons, map_add] at h
      have hrest : budget - price v < price l.sum := by omega
      obtain ⟨p, x, q, rfl, hfits, hshort⟩ := ih hrest
      refine ⟨v :: p, x, q, rfl, ?_, ?_⟩
      · rw [List.sum_cons, map_add]
        omega
      · rw [List.sum_cons, map_add]
        omega

/-- An order of the values is an order of the things that have them. -/
theorem exists_perm_map_eq {α β : Type} {f : α → β} {l : List α} {l' : List β}
    (h : l'.Perm (l.map f)) : ∃ k : List α, k.Perm l ∧ k.map f = l' := by
  induction l generalizing l' with
  | nil => exact ⟨[], List.Perm.refl _, h.eq_nil.symm⟩
  | cons a l ih =>
    have hmem : f a ∈ l' := h.mem_iff.mpr List.mem_cons_self
    obtain ⟨s, t, rfl⟩ := List.append_of_mem hmem
    obtain ⟨k, hk, hmap⟩ := ih ((List.perm_middle.symm.trans h).cons_inv)
    obtain ⟨k₁, k₂, rfl, rfl, rfl⟩ := List.map_eq_append_iff.mp hmap
    exact ⟨k₁ ++ a :: k₂, List.perm_middle.trans (hk.cons a), by simp⟩

theorem OrderFree.of_perm {budget : ℕ} {l l' : List M} (h : OrderFree price budget l)
    (hperm : l'.Perm l) : OrderFree price budget l' := by
  intro l'' hl''
  rw [h _ (hl''.trans hperm), h _ hperm]

section Exchange

variable [IsLeftCancelAdd M] {budget : ℕ} {p q : List M} {x : M}

/-- Exchanging the first thing that cannot be paid with one bought before it shows that the two
    are the same. -/
theorem OrderFree.bought_eq_short (h : OrderFree price budget (p ++ x :: q))
    (hpos : ∀ v ∈ p, 0 < price v) (hfits : price p.sum ≤ budget)
    (hshort : budget < price p.sum + price x) {w : M} (hw : w ∈ p) : w = x := by
  obtain ⟨s, t, rfl⟩ := List.append_of_mem hw
  have hsum : (s ++ w :: t).sum = (s ++ t).sum + w := by
    simp only [List.sum_append, List.sum_cons]
    abel
  have hperm : ((s ++ t) ++ x :: w :: q).Perm ((s ++ w :: t) ++ x :: q) := by
    have hinner : (s ++ w :: t).Perm (s ++ t ++ [w]) :=
      List.perm_middle.trans (List.perm_append_singleton w (s ++ t)).symm
    have houter := (hinner.append_right (x :: q)).symm
    refine List.Perm.trans ?_ houter
    rw [List.append_assoc _ [w]]
    exact (List.Perm.swap w x q).append_left _
  have heq := h _ hperm
  rw [bought_short q hfits hshort, hsum] at heq
  rw [hsum, map_add] at hfits hshort
  by_cases hearly : budget < price (s ++ t).sum + price x
  · -- the exchanged thing stops the run at once, so the one it replaced was free
    rw [bought_short (w :: q) (by omega) hearly] at heq
    have hzero : w = 0 := by
      have hcancel : (s ++ t).sum + 0 = (s ++ t).sum + w := by rwa [add_zero]
      exact (add_left_cancel hcancel).symm
    have := hpos w hw
    rw [hzero, map_zero] at this
    omega
  · have hsum' : ((s ++ t) ++ [x]).sum = (s ++ t).sum + x := by
      rw [List.sum_append, List.sum_singleton]
    have hlist : (s ++ t) ++ x :: w :: q = ((s ++ t) ++ [x]) ++ w :: q := by simp
    rw [hlist, bought_short q (by rw [hsum', map_add]; omega) (by rw [hsum', map_add]; omega),
      hsum'] at heq
    exact (add_left_cancel heq).symm

/-- Something that comes after the first thing that cannot be paid is the same as it, since it
    cannot be paid in its place either. -/
theorem OrderFree.later_eq_short (h : OrderFree price budget (p ++ x :: q)) (hne : p ≠ [])
    (hpos : ∀ v ∈ p ++ x :: q, 0 < price v) (hfits : price p.sum ≤ budget)
    (hshort : budget < price p.sum + price x) {z : M} (hz : z ∈ q) : z = x := by
  obtain ⟨s, t, rfl⟩ := List.append_of_mem hz
  have hperm : (p ++ z :: x :: (s ++ t)).Perm (p ++ x :: (s ++ z :: t)) :=
    ((List.Perm.swap x z (s ++ t)).trans (List.perm_middle.symm.cons x)).append_left p
  have hposp : ∀ v ∈ p, 0 < price v := fun v hv => hpos v (List.mem_append_left _ hv)
  by_cases hlater : budget < price p.sum + price z
  · obtain ⟨w, hw⟩ := List.exists_mem_of_ne_nil p hne
    have hwx := h.bought_eq_short hposp hfits hshort hw
    have hwz := (h.of_perm hperm).bought_eq_short hposp hfits hlater hw
    exact hwz.symm.trans hwx
  · have heq := h _ hperm
    rw [bought_short _ hfits hshort, bought_append _ hfits, bought, if_neg (by omega),
      List.sum_append, List.sum_cons] at heq
    have hprice := congrArg price heq
    simp only [map_add] at hprice
    have := hpos z (by simp)
    omega

end Exchange

/-- Not everything can be paid: the order does not matter exactly where nothing can be paid or all
    things are the same. -/
theorem orderFree_iff [IsLeftCancelAdd M] {budget : ℕ} (hpos : ∀ v ∈ l, 0 < price v)
    (hover : budget < price l.sum) :
    OrderFree price budget l ↔
      (∀ v ∈ l, budget < price v) ∨ ∀ v ∈ l, ∀ w ∈ l, v = w := by
  constructor
  · intro h
    by_cases hall : ∀ v ∈ l, budget < price v
    · exact Or.inl hall
    · push Not at hall
      obtain ⟨y, hy, hpaid⟩ := hall
      obtain ⟨s, t, rfl⟩ := List.append_of_mem hy
      -- with a thing that can be paid in front, the first one that cannot is a later one
      have hperm : (y :: (s ++ t)).Perm (s ++ y :: t) := List.perm_middle.symm
      rw [← hperm.sum_eq] at hover
      obtain ⟨p, x, q, hsplit, hfits, hshort⟩ := exists_short hover
      rw [hsplit] at hperm
      have hne : p ≠ [] := by
        rintro rfl
        rw [List.nil_append, List.cons.injEq] at hsplit
        rw [List.sum_nil, map_zero, ← hsplit.1] at hshort
        omega
      have hfree := h.of_perm hperm
      have hpos' : ∀ v ∈ p ++ x :: q, 0 < price v := fun v hv => hpos v (hperm.mem_iff.mp hv)
      have hsame : ∀ v ∈ s ++ y :: t, v = x := by
        intro v hv
        rcases List.mem_append.mp (hperm.mem_iff.mpr hv) with hbefore | hafter
        · exact hfree.bought_eq_short (fun w hw => hpos' w (List.mem_append_left _ hw)) hfits
            hshort hbefore
        · rcases List.mem_cons.mp hafter with rfl | hlater
          · rfl
          · exact hfree.later_eq_short hne hpos' hfits hshort hlater
      exact Or.inr fun v hv w hw => (hsame v hv).trans (hsame w hw).symm
  · rintro (hall | hsame) l' hperm
    · have hnone : ∀ k : List M, (∀ v ∈ k, budget < price v) → bought price budget k = [] := by
        intro k hk
        cases k with
        | nil => rfl
        | cons v k => rw [bought, if_pos (hk v List.mem_cons_self)]
      rw [hnone l hall, hnone l' fun v hv => hall v (hperm.mem_iff.mp hv)]
    · cases l with
      | nil => rw [hperm.eq_nil]
      | cons v l =>
        have hl := List.eq_replicate_of_mem fun w hw => hsame w hw v List.mem_cons_self
        rw [hl] at hperm ⊢
        rw [List.perm_replicate.mp hperm]

end Arbreth.Lib
