/-
  Append-only Merkle trees kept as a frontier.

  A tree over `n` leaves is kept as one subtree root per set bit of `n`, the way a
  binary counter keeps its digits. `treeHash h s` is the root of the complete tree
  over the `2 ^ h` leaves from position `s`; `paddedHash n h s` is the tree over the
  same positions when only the first `n` leaves exist, where a subtree with no leaf
  at all is `zero` whatever its height. `frontierAt n l` is what level `l` holds.

  The increment of the counter is `frontierAt_succ_below`, `_at` and `_above`: what the
  carry has to write. `rebuild` folds the levels, lowest first, back into one root and
  `rebuild_frontier` says which: the padded tree of the least height that holds every
  leaf.
-/
import Mathlib.Data.Nat.Log
import Mathlib.Data.Nat.Bitwise
import Mathlib.Tactic.Ring

namespace Arbreth.Lib

/-! ## Digits of a counter around a carry -/

theorem testBit_true_iff (n l : Nat) : n.testBit l = true ↔ n / 2 ^ l % 2 = 1 := by
  rw [Nat.testBit_eq_decide_div_mod_eq, decide_eq_true_iff]

theorem testBit_false_iff (n l : Nat) : n.testBit l = false ↔ n / 2 ^ l % 2 = 0 := by
  rw [Nat.testBit_eq_decide_div_mod_eq, decide_eq_false_iff_not]
  omega

theorem even_div_of_dvd {n j l : Nat} (hj : j < l) (hd : 2 ^ l ∣ n) : n / 2 ^ j % 2 = 0 := by
  obtain ⟨k, hk⟩ := (Nat.pow_dvd_pow 2 hj).trans hd
  rw [hk, pow_succ, Nat.mul_assoc, Nat.mul_div_cancel_left _ (Nat.two_pow_pos j)]
  exact Nat.mul_mod_right 2 k

theorem div_above_carry {n j l : Nat} (hodd : (n + 1) / 2 ^ l % 2 = 1) (hj : l < j) :
    (n + 1) / 2 ^ j = n / 2 ^ j := by
  have hnd : ¬ 2 ^ j ∣ n + 1 := fun hd => by
    have := even_div_of_dvd hj hd
    omega
  rw [Nat.succ_div, if_neg hnd, Nat.add_zero]

theorem succ_div_of_dvd {n l : Nat} (hd : 2 ^ l ∣ n + 1) :
    (n + 1) / 2 ^ l = n / 2 ^ l + 1 := by
  rw [Nat.succ_div, if_pos hd]

theorem dvd_carry {n l : Nat} (hd : 2 ^ l ∣ n + 1) (hbit : n.testBit l = true) :
    2 ^ (l + 1) ∣ n + 1 := by
  rw [testBit_true_iff] at hbit
  have hq := succ_div_of_dvd hd
  have heven : (n + 1) / 2 ^ l = (n + 1) / 2 ^ l / 2 * 2 := by omega
  refine ⟨(n + 1) / 2 ^ l / 2, ?_⟩
  rw [pow_succ, Nat.mul_assoc, Nat.mul_comm 2, ← heven, Nat.mul_comm, Nat.div_mul_cancel hd]

/-! ## Trees over leaf positions -/

section Trees

variable {α : Type} (node : α → α → α) (zero : α) (leaf : Nat → α)

/-- Root of the complete tree over the leaves `s, …, s + 2 ^ h - 1`. -/
def treeHash : Nat → Nat → α
  | 0, s => leaf s
  | h + 1, s => node (treeHash h s) (treeHash h (s + 2 ^ h))

/-- Root of the tree over the positions `s, …, s + 2 ^ h - 1` of which only those
    below `n` hold a leaf. A subtree without a leaf is `zero`. -/
def paddedHash (n : Nat) : Nat → Nat → α
  | 0, s => if s < n then leaf s else zero
  | h + 1, s =>
    if s < n then node (paddedHash n h s) (paddedHash n h (s + 2 ^ h)) else zero

theorem paddedHash_empty {n s : Nat} (h : Nat) (hs : n ≤ s) :
    paddedHash node zero leaf n h s = zero := by
  cases h <;> simp [paddedHash, Nat.not_lt.mpr hs]

variable {n s h : Nat}

theorem paddedHash_full (hs : s + 2 ^ h ≤ n) :
    paddedHash node zero leaf n h s = treeHash node leaf h s := by
  induction h generalizing s with
  | zero => simp only [paddedHash, treeHash, if_pos (show s < n by omega)]
  | succ h ih =>
    have hpow : 2 ^ (h + 1) = 2 ^ h + 2 ^ h := by ring
    have hpos := Nat.two_pow_pos h
    rw [paddedHash, treeHash, if_pos (by omega), ih (by omega), ih (by omega)]

/-- One more level above a tree that already holds every leaf. -/
theorem paddedHash_grow (hs : s < n) (hn : n ≤ s + 2 ^ h) :
    paddedHash node zero leaf n (h + 1) s = node (paddedHash node zero leaf n h s) zero := by
  rw [paddedHash, if_pos hs, paddedHash_empty node zero leaf h hn]

/-- A complete left half beside a partly filled right half. -/
theorem paddedHash_split (hs : s + 2 ^ h ≤ n) :
    paddedHash node zero leaf n (h + 1) s =
      node (treeHash node leaf h s) (paddedHash node zero leaf n h (s + 2 ^ h)) := by
  have hpos := Nat.two_pow_pos h
  rw [paddedHash, if_pos (by omega), paddedHash_full node zero leaf hs]

/-- The pairs of children a padded tree joins. -/
def paddedPairs (n : Nat) : Nat → Nat → List (α × α)
  | 0, _ => []
  | h + 1, s =>
    if s < n then
      (paddedHash node zero leaf n h s, paddedHash node zero leaf n h (s + 2 ^ h)) ::
        (paddedPairs n h s ++ paddedPairs n h (s + 2 ^ h))
    else []

/-- Two padded trees of one size have the same root only over the same leaves, if `node` takes
    no pair of the one and pair of the other to one value. -/
theorem paddedHash_inj {leaf' : Nat → α}
    (hnode : ∀ p ∈ paddedPairs node zero leaf n h s, ∀ q ∈ paddedPairs node zero leaf' n h s,
      node p.1 p.2 = node q.1 q.2 → p = q)
    (hroot : paddedHash node zero leaf n h s = paddedHash node zero leaf' n h s) {i : Nat}
    (hs : s ≤ i) (hi : i < s + 2 ^ h) (hn : i < n) : leaf i = leaf' i := by
  induction h generalizing s with
  | zero =>
    obtain rfl : s = i := by omega
    rwa [paddedHash, if_pos hn, paddedHash, if_pos hn] at hroot
  | succ h ih =>
    have hsn := hs.trans_lt hn
    rw [paddedHash, if_pos hsn, paddedHash, if_pos hsn] at hroot
    rw [paddedPairs, if_pos hsn, paddedPairs, if_pos hsn] at hnode
    have hpair := Prod.mk.inj (hnode _ List.mem_cons_self _ List.mem_cons_self hroot)
    rcases Nat.lt_or_ge i (s + 2 ^ h) with hleft | hright
    · refine ih (fun p hp q hq => hnode p ?_ q ?_) hpair.1 hs hleft
      · exact List.mem_cons_of_mem _ (List.mem_append_left _ hp)
      · exact List.mem_cons_of_mem _ (List.mem_append_left _ hq)
    · refine ih (fun p hp q hq => hnode p ?_ q ?_) hpair.2 hright (by rw [pow_succ] at hi; omega)
      · exact List.mem_cons_of_mem _ (List.mem_append_right _ hp)
      · exact List.mem_cons_of_mem _ (List.mem_append_right _ hq)

end Trees

/-! ## The frontier -/

section Frontier

variable {α : Type} (node : α → α → α) (zero : α) (leaf : Nat → α)

/-- What level `l` holds after `n` leaves: the complete subtree that ends at `n` with its
    bits below `l` cleared when bit `l` of `n` is set, and `zero` otherwise. -/
def frontierAt (n l : Nat) : α :=
  if n.testBit l then treeHash node leaf l (n / 2 ^ l * 2 ^ l - 2 ^ l) else zero

@[simp] theorem frontierAt_zero (l : Nat) : frontierAt node zero leaf 0 l = zero := by
  simp [frontierAt]

theorem frontierAt_congr {leaf' : Nat → α} {n : Nat} (h : ∀ i, i < n → leaf i = leaf' i) (l : Nat) :
    frontierAt node zero leaf n l = frontierAt node zero leaf' n l := by
  have htree : ∀ k s, s + 2 ^ k ≤ n → treeHash node leaf k s = treeHash node leaf' k s := by
    intro k
    induction k with
    | zero => exact fun s hs => h s hs
    | succ k ih =>
      intro s hs
      have hpow : 2 ^ (k + 1) = 2 ^ k + 2 ^ k := by ring
      have hpos := Nat.two_pow_pos k
      rw [treeHash, treeHash, ih s (by omega), ih (s + 2 ^ k) (by omega)]
  unfold frontierAt
  split
  · next hbit =>
      have hle : 2 ^ l ≤ n := Nat.ge_two_pow_of_testBit hbit
      have hpos : 1 ≤ n / 2 ^ l := Nat.div_pos hle (Nat.two_pow_pos l)
      have hmul := Nat.mul_le_mul_right (2 ^ l) hpos
      have hdiv := Nat.div_mul_le_self n (2 ^ l)
      exact htree l _ (by omega)
  · rfl

variable {n l : Nat}

/-- Two neighbouring complete subtrees joined: the carry of a full level. -/
theorem frontierAt_join (hd : 2 ^ l ∣ n + 1) (hbit : n.testBit l = true) :
    node (frontierAt node zero leaf n l) (treeHash node leaf l (n + 1 - 2 ^ l)) =
      treeHash node leaf (l + 1) (n + 1 - 2 ^ (l + 1)) := by
  obtain ⟨q, hq⟩ := hd
  have hdiv : n / 2 ^ l = q - 1 := by
    have h : (n + 1) / 2 ^ l = q := by rw [hq, Nat.mul_div_cancel_left _ (Nat.two_pow_pos l)]
    rw [succ_div_of_dvd ⟨q, hq⟩] at h
    exact Nat.eq_sub_of_add_eq h
  rw [testBit_true_iff, hdiv] at hbit
  obtain ⟨r, rfl⟩ : ∃ r, q = 2 * r + 2 := ⟨(q - 2) / 2, by omega⟩
  have hn : n + 1 = 2 * r * 2 ^ l + 2 ^ l + 2 ^ l := by rw [hq]; ring
  have hp : 2 ^ (l + 1) = 2 ^ l + 2 ^ l := by ring
  have hs : (2 * r + 2 - 1) * 2 ^ l - 2 ^ l = 2 * r * 2 ^ l := by
    rw [show 2 * r + 2 - 1 = 2 * r + 1 by omega, Nat.add_mul]
    omega
  have hb : n.testBit l = true := by rw [testBit_true_iff, hdiv]; omega
  rw [frontierAt, if_pos hb, hdiv, hs, treeHash,
    show n + 1 - 2 ^ (l + 1) = 2 * r * 2 ^ l by omega,
    show n + 1 - 2 ^ l = 2 * r * 2 ^ l + 2 ^ l by omega]

theorem frontierAt_succ_below {n l j : Nat} (hd : 2 ^ l ∣ n + 1) (hj : j < l) :
    frontierAt node zero leaf (n + 1) j = zero := by
  have : (n + 1).testBit j = false := (testBit_false_iff _ _).mpr (even_div_of_dvd hj hd)
  simp [frontierAt, this]

theorem odd_succ_div (hd : 2 ^ l ∣ n + 1) (hbit : n.testBit l = false) :
    (n + 1) / 2 ^ l % 2 = 1 := by
  rw [testBit_false_iff] at hbit
  rw [succ_div_of_dvd hd]
  omega

theorem frontierAt_succ_at (hd : 2 ^ l ∣ n + 1) (hbit : n.testBit l = false) :
    frontierAt node zero leaf (n + 1) l = treeHash node leaf l (n + 1 - 2 ^ l) := by
  have hb := (testBit_true_iff (n + 1) l).mpr (odd_succ_div hd hbit)
  rw [frontierAt, if_pos hb, Nat.div_mul_cancel hd]

theorem frontierAt_succ_above {n l j : Nat} (hd : 2 ^ l ∣ n + 1) (hbit : n.testBit l = false)
    (hj : l < j) : frontierAt node zero leaf (n + 1) j = frontierAt node zero leaf n j := by
  have h := div_above_carry (odd_succ_div hd hbit) hj
  have hb : (n + 1).testBit j = n.testBit j := by
    rw [Nat.testBit_eq_decide_div_mod_eq, Nat.testBit_eq_decide_div_mod_eq, h]
  rw [frontierAt, frontierAt, hb, h]

theorem treeHash_ne_zero (hnode : ∀ x y, node x y ≠ zero) {h s : Nat}
    (hleaf : leaf s ≠ zero) : treeHash node leaf h s ≠ zero := by
  cases h with
  | zero => exact hleaf
  | succ h => exact hnode _ _

end Frontier

/-! ## Rebuilding the root -/

section Rebuild

variable {α : Type} (node : α → α → α) (zero : α) (leaf : Nat → α)

/-- Pad a tree with `d` empty right siblings, one per level. -/
def padUp : Nat → α → α
  | 0, c => c
  | d + 1, c => padUp d (node c zero)

theorem padUp_paddedHash {n s k d : Nat} (hs : s < n) (hn : n ≤ s + 2 ^ k) :
    padUp node zero d (paddedHash node zero leaf n k s) =
      paddedHash node zero leaf n (k + d) s := by
  induction d generalizing k with
  | zero => rfl
  | succ d ih =>
    have hle : 2 ^ k ≤ 2 ^ (k + 1) := Nat.pow_le_pow_right (by omega) (by omega)
    rw [padUp, ← paddedHash_grow node zero leaf hs hn, ih (by omega)]
    congr 1
    omega

/-- The tree `rebuild` has folded from the levels below `l`: none if those bits of `n` are
    all zero, else the padded tree over the leaves they stand for. -/
def lowTree (n l : Nat) : Option (α × Nat) :=
  if n % 2 ^ l = 0 then none
  else some (paddedHash node zero leaf n (Nat.clog 2 (n % 2 ^ l)) (n / 2 ^ l * 2 ^ l),
    Nat.clog 2 (n % 2 ^ l))

/-- One digit more of the low part, which the high part loses. -/
theorem low_succ (n l : Nat) :
    n % 2 ^ (l + 1) = 2 ^ l * (n / 2 ^ l % 2) + n % 2 ^ l ∧
      n / 2 ^ (l + 1) * 2 ^ (l + 1) + 2 ^ l * (n / 2 ^ l % 2) = n / 2 ^ l * 2 ^ l := by
  have hp : 2 ^ (l + 1) = 2 ^ l * 2 := pow_succ 2 l
  have hlow : n % 2 ^ (l + 1) = 2 ^ l * (n / 2 ^ l % 2) + n % 2 ^ l := by
    rw [hp, Nat.mod_mul, Nat.add_comm]
  have hn := Nat.div_add_mod' n (2 ^ l)
  have hn' := Nat.div_add_mod' n (2 ^ (l + 1))
  exact ⟨hlow, by omega⟩

theorem low_split (n l : Nat) (hbit : n.testBit l = true) :
    n % 2 ^ (l + 1) = 2 ^ l + n % 2 ^ l ∧
      n / 2 ^ (l + 1) * 2 ^ (l + 1) + 2 ^ l = n / 2 ^ l * 2 ^ l := by
  have h := low_succ n l
  rwa [(testBit_true_iff n l).mp hbit, Nat.mul_one] at h

theorem low_same (n l : Nat) (hbit : n.testBit l = false) :
    n % 2 ^ (l + 1) = n % 2 ^ l ∧
      n / 2 ^ (l + 1) * 2 ^ (l + 1) = n / 2 ^ l * 2 ^ l := by
  have h := low_succ n l
  rwa [(testBit_false_iff n l).mp hbit, Nat.mul_zero, Nat.zero_add] at h

variable {n l : Nat}

/-- A level of the frontier reads as zero exactly when its bit is clear. -/
theorem frontierAt_ne_zero_iff (hnode : ∀ x y, node x y ≠ zero)
    (hleaf : ∀ i, i < n → leaf i ≠ zero) (l : Nat) :
    frontierAt node zero leaf n l ≠ zero ↔ n.testBit l = true := by
  cases hbit : n.testBit l with
  | false => simp [frontierAt, hbit]
  | true =>
    have hpos := Nat.two_pow_pos l
    have hle : n / 2 ^ l * 2 ^ l ≤ n := Nat.div_mul_le_self n (2 ^ l)
    have hs := (low_split n l hbit).2
    simp only [frontierAt, hbit, if_true, iff_true]
    exact treeHash_ne_zero _ _ _ hnode (hleaf _ (by omega))

theorem lowTree_clear (hbit : n.testBit l = false) :
    lowTree node zero leaf n (l + 1) = lowTree node zero leaf n l := by
  obtain ⟨hm, hs⟩ := low_same n l hbit
  rw [lowTree, lowTree, hm, hs]

/-- The first full level is the tree so far. -/
theorem lowTree_first (hbit : n.testBit l = true) (h0 : n % 2 ^ l = 0) :
    lowTree node zero leaf n (l + 1) = some (frontierAt node zero leaf n l, l) := by
  obtain ⟨hm, hs⟩ := low_split n l hbit
  have hpos := Nat.two_pow_pos l
  have hle : n / 2 ^ l * 2 ^ l ≤ n := Nat.div_mul_le_self n (2 ^ l)
  rw [lowTree, hm, h0, Nat.add_zero, if_neg (by omega), Nat.clog_pow 2 l (by omega),
    frontierAt, if_pos hbit, ← hs, Nat.add_sub_cancel, paddedHash_full]
  omega

/-- A full level above a tree that is already there: pad the tree, put the level on its
    left. -/
theorem lowTree_next (hbit : n.testBit l = true) (h0 : n % 2 ^ l ≠ 0) :
    lowTree node zero leaf n (l + 1) =
      some (node (frontierAt node zero leaf n l)
        (padUp node zero (l - Nat.clog 2 (n % 2 ^ l))
          (paddedHash node zero leaf n (Nat.clog 2 (n % 2 ^ l)) (n / 2 ^ l * 2 ^ l))), l + 1) := by
  obtain ⟨hm, hs⟩ := low_split n l hbit
  have hpos := Nat.two_pow_pos l
  have hlt : n % 2 ^ l < 2 ^ l := Nat.mod_lt n hpos
  have hn : n / 2 ^ l * 2 ^ l + n % 2 ^ l = n := Nat.div_add_mod' n (2 ^ l)
  have hk : Nat.clog 2 (n % 2 ^ l) ≤ l := Nat.clog_le_of_le_pow hlt.le
  have hfit : n % 2 ^ l ≤ 2 ^ Nat.clog 2 (n % 2 ^ l) := Nat.le_pow_clog (by omega) _
  have hclog : Nat.clog 2 (2 ^ l + n % 2 ^ l) = l + 1 := by
    apply le_antisymm
    · exact Nat.clog_le_of_le_pow (by rw [pow_succ]; omega)
    · exact (Nat.lt_clog_iff_pow_lt (by omega)).mpr (by omega)
  rw [lowTree, hm, if_neg (by omega), hclog,
    padUp_paddedHash node zero leaf (by omega) (by omega), Nat.add_sub_of_le hk,
    frontierAt, if_pos hbit, ← hs, Nat.add_sub_cancel,
    paddedHash_split node zero leaf (by omega)]

variable [DecidableEq α]

/-- One step of `rebuild`: level `l` holds `p`, and `acc` is the tree over the levels below
    with its height. -/
def rebuildStep (l : Nat) (acc : Option (α × Nat)) (p : α) : Option (α × Nat) :=
  if p = zero then acc
  else match acc with
    | none => some (p, l)
    | some (c, k) => some (node p (padUp node zero (l - k) c), l + 1)

/-- Fold the levels `l, l + 1, …` of a frontier into one root. -/
def rebuild : Nat → Option (α × Nat) → List α → Option (α × Nat)
  | _, acc, [] => acc
  | l, acc, p :: ps => rebuild (l + 1) (rebuildStep node zero l acc p) ps

variable (hnode : ∀ x y, node x y ≠ zero)
include hnode

theorem rebuildStep_frontier {n : Nat} (hleaf : ∀ i, i < n → leaf i ≠ zero) (l : Nat) :
    rebuildStep node zero l (lowTree node zero leaf n l) (frontierAt node zero leaf n l) =
      lowTree node zero leaf n (l + 1) := by
  unfold rebuildStep
  cases hbit : n.testBit l with
  | false =>
    have h0 : frontierAt node zero leaf n l = zero := by simp [frontierAt, hbit]
    rw [if_pos h0, lowTree_clear node zero leaf hbit]
  | true =>
    rw [if_neg ((frontierAt_ne_zero_iff node zero leaf hnode hleaf l).mpr hbit)]
    by_cases h0 : n % 2 ^ l = 0
    · rw [lowTree_first node zero leaf hbit h0, lowTree, if_pos h0]
    · rw [lowTree_next node zero leaf hbit h0, lowTree, if_neg h0]

/-- `rebuild` over `m` levels of a frontier, from any level on. -/
theorem rebuild_levels {n : Nat} (hleaf : ∀ i, i < n → leaf i ≠ zero) (l m : Nat) :
    rebuild node zero l (lowTree node zero leaf n l)
        ((List.range' l m).map (frontierAt node zero leaf n)) =
      lowTree node zero leaf n (l + m) := by
  induction m generalizing l with
  | zero => rfl
  | succ m ih =>
    rw [List.range'_succ, List.map_cons, rebuild,
      rebuildStep_frontier node zero leaf hnode hleaf, ih, Nat.add_assoc, Nat.add_comm 1 m]

/-- **The root of a frontier.** Folding every level of a non-empty frontier gives the padded
    tree of the least height that holds all `n` leaves. -/
theorem rebuild_frontier {n L : Nat} (hleaf : ∀ i, i < n → leaf i ≠ zero)
    (hn : 0 < n) (hL : n < 2 ^ L) :
    rebuild node zero 0 none ((List.range L).map (frontierAt node zero leaf n)) =
      some (paddedHash node zero leaf n (Nat.clog 2 n) 0, Nat.clog 2 n) := by
  have h := rebuild_levels node zero leaf hnode hleaf 0 L
  rw [show lowTree node zero leaf n 0 = none by simp [lowTree, Nat.mod_one]] at h
  rw [List.range_eq_range', h, Nat.zero_add, lowTree, Nat.mod_eq_of_lt hL, if_neg (by omega),
    Nat.div_eq_of_lt hL, Nat.zero_mul]

end Rebuild

end Arbreth.Lib
