/-
  Correctness of the Merkle accumulator.

  `Holds acc leaf n st` ties a storage to the abstract frontier of
  `Arbreth.Lib.Frontier`: the size is `n` and every level holds `frontierAt … n`. One
  `append` takes it from `n` to `n + 1` (`append_holds`), a list of appends from `0` to its
  length (`appendAll_holds`). `rootLoop_eq_rebuild` ties the four root loops to the
  abstract `rebuild`, with no assumption on what the partials are.

  The only property of the hash used is that it is never zero, which is how the code
  tells an empty level from a full one.
-/
import Arbreth.Lib.Frontier
import Arbreth.Lib.Keccak
import Arbreth.Merkle.Accumulator

namespace Arbreth.Merkle

open Arbreth.Lib MerkleAccumulator

/-! ## The number of levels -/

theorem calcNumPartials_eq {n : Nat} (h0 : 0 < n) (h : n < 2 ^ 64) :
    calcNumPartials n = Nat.log2 n + 1 := by
  have hlog : Nat.log2 n < 64 := (Nat.log2_lt (by omega)).mpr h
  unfold calcNumPartials leadingZeros64
  rw [if_neg (by omega), if_neg (by omega)]
  omega

theorem calcNumPartials_le (n : Nat) : calcNumPartials n ≤ 64 := by
  unfold calcNumPartials
  split <;> omega

theorem lt_two_pow_calcNumPartials {n : Nat} (h : n < 2 ^ 64) : n < 2 ^ calcNumPartials n := by
  rcases Nat.eq_zero_or_pos n with rfl | h0
  · decide
  · rw [calcNumPartials_eq h0 h]
    exact Nat.lt_log2_self

theorem calcNumPartials_le_of_lt {n k : Nat} (hk : k ≤ 64) (h : n < 2 ^ k) :
    calcNumPartials n ≤ k := by
  rcases Nat.eq_zero_or_pos n with rfl | h0
  · exact Nat.zero_le k
  · have h64 : n < 2 ^ 64 := lt_of_lt_of_le h (Nat.pow_le_pow_right (by omega) hk)
    rw [calcNumPartials_eq h0 h64]
    exact (Nat.log2_lt (by omega)).mpr h

/-! ## Lawful stores -/

/-- A store that behaves as memory on the levels in `ok`, which are at least the 65 levels
    an append can touch. -/
structure PartialStore.Lawful {σ : Type} (S : PartialStore σ) (ok : Nat → Prop) : Prop where
  ok_low : ∀ l, l ≤ 64 → ok l
  get_set : ∀ st l v j, l ≤ 64 → ok j →
    S.get (S.set st l v) j = if j = l then v else S.get st j

/-! ## One append -/

section Append

variable (keccak256 : Bytes → B256) (hk : ∀ x, keccak256 x ≠ 0) (leaf : Nat → B256)
variable {σ : Type} {S : PartialStore σ} {ok : Nat → Prop}

/-- The state of the loop at `level`: the levels below were cleared by the carry, the others
    still hold the frontier of `n`. -/
def Carried (S : PartialStore σ) (ok : Nat → Prop) (n level : Nat) (st : σ) : Prop :=
  ∀ j, ok j → S.get st j = if j < level then 0 else frontierAt (node keccak256) 0 leaf n j

/-- The write that ends the loop. -/
theorem carried_stop (hS : S.Lawful ok) {n level : Nat} {st : σ} (hl : level ≤ 64)
    (hst : Carried keccak256 leaf S ok n level st) (hd : 2 ^ level ∣ n + 1)
    (hbit : n.testBit level = false) (j : Nat) (hj : ok j) :
    S.get (S.set st level (treeHash (node keccak256) leaf level (n + 1 - 2 ^ level))) j =
      frontierAt (node keccak256) 0 leaf (n + 1) j := by
  rw [hS.get_set _ _ _ _ hl hj, hst j hj]
  rcases Nat.lt_trichotomy j level with h | rfl | h
  · rw [if_neg (by omega), if_pos h, frontierAt_succ_below _ _ _ hd h]
  · rw [if_pos rfl, frontierAt_succ_at _ _ _ hd hbit]
  · rw [if_neg (by omega), if_neg (by omega), frontierAt_succ_above _ _ _ hd hbit h]

/-- The body of the loop when the level is full. -/
theorem carried_next (hS : S.Lawful ok) {n level : Nat} {st : σ} (hl : level ≤ 64)
    (hst : Carried keccak256 leaf S ok n level st) :
    Carried keccak256 leaf S ok n (level + 1) (S.set st level 0) := by
  intro j hj
  rw [hS.get_set _ _ _ _ hl hj, hst j hj]
  rcases Nat.lt_trichotomy j level with h | rfl | h
  · rw [if_neg (by omega), if_pos h, if_pos (by omega)]
  · rw [if_pos rfl, if_pos (by omega)]
  · rw [if_neg (by omega), if_neg (by omega), if_neg (by omega)]

include hk

/-- **The carry loop.** Started at a level below which everything was carried, it leaves the
    frontier of `n + 1`. -/
theorem appendLoop_frontier (hS : S.Lawful ok) {n : Nat} (hn : n < 2 ^ 64)
    (hleaf : ∀ i, i < n → leaf i ≠ 0) (newSize : Nat) :
    ∀ (left level : Nat) (st : σ), level + left = calcNumPartials n → 2 ^ level ∣ n + 1 →
      Carried keccak256 leaf S ok n level st → ∀ j, ok j →
        S.get (appendLoop keccak256 S newSize left level
            (treeHash (node keccak256) leaf level (n + 1 - 2 ^ level)) st).1 j =
          frontierAt (node keccak256) 0 leaf (n + 1) j
  | 0, level, st, hlev, hd, hst => by
    -- the loop has passed the last level of `n`, whose bits from here on are zero
    have hbit : n.testBit level = false := by
      rw [show level = calcNumPartials n by omega]
      exact Nat.testBit_lt_two_pow (lt_two_pow_calcNumPartials hn)
    have hl : level ≤ 64 := by have := calcNumPartials_le n; omega
    exact carried_stop keccak256 leaf hS hl hst hd hbit
  | left + 1, level, st, hlev, hd, hst => by
    have hl : level ≤ 64 := by have := calcNumPartials_le n; omega
    have hget : S.get st level = frontierAt (node keccak256) 0 leaf n level := by
      rw [hst level (hS.ok_low level hl), if_neg (by omega)]
    have hzero := frontierAt_ne_zero_iff (node keccak256) 0 leaf (fun _ _ => hk _) hleaf level
    cases hbit : n.testBit level with
    | false =>
      have h0 : S.get st level = 0 := hget.trans (by simp [frontierAt, hbit])
      simp only [appendLoop, h0, if_true]
      exact carried_stop keccak256 leaf hS hl hst hd hbit
    | true =>
      have hne : S.get st level ≠ 0 := by rw [hget]; exact hzero.mpr hbit
      simp only [appendLoop, if_neg hne]
      rw [hget, frontierAt_join (node keccak256) 0 leaf hd hbit]
      exact appendLoop_frontier hS hn hleaf newSize left (level + 1) _ (by omega)
        (dvd_carry hd hbit) (carried_next keccak256 leaf hS hl hst)

end Append

/-! ## The storage accumulator holds a frontier -/

section Storage

variable (keccak256 : Bytes → B256)

/-- Level `l` has a slot of its own. The levels below 254 share one page with the size, so
    theirs do whatever the hash is; a higher level must not fall on a slot the appends
    write. -/
def LevelSlotFree (sto : Storage) (l : Nat) : Prop :=
  l < 254 ∨ ∀ o, o ≤ 66 → sto.newSlot keccak256 (wrap64 (2 + l)) ≠ sto.newSlot keccak256 o

theorem wrap64_level {l : Nat} (hl : l ≤ 64) : wrap64 (2 + l) = 2 + l :=
  wrap64_of_lt (by omega)

theorem levelSlot_ne {sto : Storage} {j o : Nat} (hj : LevelSlotFree keccak256 sto j)
    (ho : o ≤ 66) (hne : o ≠ 2 + j) :
    sto.newSlot keccak256 (wrap64 (2 + j)) ≠ sto.newSlot keccak256 o := by
  rcases hj with hj | hj
  · apply storageKeyMap_ne
    rw [wrap64_of_lt (by omega)]
    omega
  · exact hj o ho

theorem partials_lawful (acc : MerkleAccumulator) :
    (acc.partials keccak256).Lawful (LevelSlotFree keccak256 acc.backingStorage) := by
  refine ⟨fun l hl => Or.inl (by omega), fun st l v j hl hj => ?_⟩
  show acc.readPartial keccak256 (acc.writePartial keccak256 st l v) j = _
  unfold readPartial writePartial
  split
  · next h => rw [h, sload_sstore_self]
  · next h =>
      apply sload_sstore_ne
      unfold partialSlot
      rw [wrap64_level hl]
      exact levelSlot_ne keccak256 hj (by omega) (by omega)

/-- The storage holds an accumulator of `n` leaves. -/
structure Holds (sto : Storage) (leaf : Nat → B256) (n : Nat) (st : Backend) : Prop where
  size : (openMerkleAccumulator keccak256 sto).size.get st = n
  levels : ∀ l, LevelSlotFree keccak256 sto l →
    (openMerkleAccumulator keccak256 sto).readPartial keccak256 st l =
      frontierAt (node keccak256) 0 leaf n l

variable (sto : Storage) (st : Backend) {a : Address} {s : U256}

theorem holds_empty (leaf : Nat → B256) : Holds keccak256 sto leaf 0 fun _ _ => 0 := by
  refine ⟨by simp [StorageBackedUint64.get, sload], fun l _ => ?_⟩
  simp [readPartial, sload]

theorem readPartial_set_size (value l : Nat) (hl : LevelSlotFree keccak256 sto l) :
    (openMerkleAccumulator keccak256 sto).readPartial keccak256
        ((openMerkleAccumulator keccak256 sto).size.set st value) l =
      (openMerkleAccumulator keccak256 sto).readPartial keccak256 st l := by
  apply sload_sstore_ne
  exact levelSlot_ne keccak256 hl (Nat.zero_le 66) (by omega)

/-- The slot of the size. -/
def sizeSlot (sto : Storage) : U256 := (openMerkleAccumulator keccak256 sto).size.slot

theorem appendLoop_frame (newSize : Nat) (hs : ∀ o, 2 ≤ o → o ≤ 66 → s ≠ sto.newSlot keccak256 o) :
    ∀ (left level : Nat) (soFar : B256) (st : Backend), level + left ≤ 64 →
      sload (appendLoop keccak256 ((openMerkleAccumulator keccak256 sto).partials keccak256)
          newSize left level soFar st).1 a s = sload st a s
  | 0, level, soFar, st, h => by
    apply sload_sstore_ne
    unfold partialSlot
    rw [wrap64_level (by omega)]
    exact hs _ (by omega) (by omega)
  | left + 1, level, soFar, st, h => by
    have hne : s ≠ (openMerkleAccumulator keccak256 sto).partialSlot keccak256 level := by
      unfold partialSlot
      rw [wrap64_level (by omega)]
      exact hs _ (by omega) (by omega)
    simp only [appendLoop]
    split
    · exact sload_sstore_ne _ _ hne
    · rw [appendLoop_frame newSize hs left (level + 1) _ _ (by omega)]
      exact sload_sstore_ne _ _ hne

theorem append_frame (h : B256) (hs : ∀ o, o ≤ 66 → s ≠ sto.newSlot keccak256 o) :
    sload ((openMerkleAccumulator keccak256 sto).append keccak256 st h).1 a s = sload st a s := by
  unfold MerkleAccumulator.append
  rw [appendLoop_frame keccak256 sto _ (fun o _ ho => hs o ho) _ _ _ _
    (by have := calcNumPartials_le; simp [this])]
  exact sload_sstore_ne _ _ (hs 0 (by omega))

theorem appendAll_frame (hs : ∀ o, o ≤ 66 → s ≠ sto.newSlot keccak256 o) :
    ∀ (items : List B256) (st : Backend),
      sload ((openMerkleAccumulator keccak256 sto).appendAll keccak256 st items).1 a s =
        sload st a s
  | [], _ => rfl
  | h :: items, st => by
    simp only [MerkleAccumulator.appendAll]
    rw [appendAll_frame hs items, append_frame keccak256 sto st h hs]

/-- The size slot after an append, whatever the partials are. -/
theorem sizeSlot_append (h : B256) :
    sload ((openMerkleAccumulator keccak256 sto).append keccak256 st h).1
        arbosStateAddress (sizeSlot keccak256 sto) =
      BitVec.ofNat 256 (wrap64 ((openMerkleAccumulator keccak256 sto).size.get st + 1)) := by
  unfold MerkleAccumulator.append
  rw [appendLoop_frame keccak256 sto _ ?_ _ _ _ _ (by have := calcNumPartials_le; simp [this])]
  · exact sload_sstore_self _ _ _ _
  · intro o h2 h66
    exact storageKeyMap_ne keccak256 (by omega)

theorem get_of_slot {st : Backend} {n : Nat}
    (h : sload st arbosStateAddress (sizeSlot keccak256 sto) = BitVec.ofNat 256 (wrap64 n)) :
    (openMerkleAccumulator keccak256 sto).size.get st = wrap64 n := by
  have hlt := wrap64_lt n
  rw [sizeSlot] at h
  simp only [StorageBackedUint64.get, h, BitVec.toNat_ofNat]
  rw [Nat.mod_eq_of_lt (by omega), if_pos hlt]

theorem size_append (h : B256) :
    (openMerkleAccumulator keccak256 sto).size.get
        ((openMerkleAccumulator keccak256 sto).append keccak256 st h).1 =
      wrap64 ((openMerkleAccumulator keccak256 sto).size.get st + 1) :=
  get_of_slot keccak256 sto (sizeSlot_append keccak256 sto st h)

variable (hk : ∀ x, keccak256 x ≠ 0)
include hk

/-- **One append.** It takes an accumulator of `n` leaves to one of `n + 1`, the new leaf
    being the hash of the item. -/
theorem append_holds {sto : Storage} {leaf : Nat → B256} {n : Nat} {st : Backend} {h : B256}
    (hst : Holds keccak256 sto leaf n st) (hn : n + 1 < 2 ^ 64)
    (hleaf : ∀ i, i < n → leaf i ≠ 0) (hnew : leaf n = keccak256 (wordBytes h)) :
    Holds keccak256 sto leaf (n + 1)
      ((openMerkleAccumulator keccak256 sto).append keccak256 st h).1 := by
  refine ⟨by rw [size_append, hst.size, wrap64_of_lt hn], fun l hl => ?_⟩
  unfold MerkleAccumulator.append
  rw [hst.size, ← hnew]
  apply appendLoop_frontier keccak256 hk leaf
    (partials_lawful keccak256 (openMerkleAccumulator keccak256 sto)) (by omega) hleaf
    (wrap64 (n + 1)) (calcNumPartials n) 0 _ (Nat.zero_add _) (one_dvd _) ?_ l hl
  intro j hj
  rw [if_neg (by omega), ← hst.levels j hj]
  exact readPartial_set_size keccak256 sto st _ j hj

/-- **Every run of appends.** -/
theorem appendAll_holds {sto : Storage} {leaf : Nat → B256} :
    ∀ (hs : List B256) (n : Nat) (st : Backend), Holds keccak256 sto leaf n st →
      n + hs.length < 2 ^ 64 → (∀ i, i < n → leaf i ≠ 0) →
      (∀ i (hi : i < hs.length), leaf (n + i) = keccak256 (wordBytes hs[i])) →
      Holds keccak256 sto leaf (n + hs.length)
        ((openMerkleAccumulator keccak256 sto).appendAll keccak256 st hs).1
  | [], _, _, hst, _, _, _ => hst
  | h :: hs, n, st, hst, hlen, hleaf, hnew => by
    rw [List.length_cons] at hlen
    have h0 : leaf n = keccak256 (wordBytes h) := hnew 0 (by simp)
    have hstep := append_holds keccak256 hk hst (by omega) hleaf h0
    have hrun := appendAll_holds hs (n + 1) _ hstep (by omega) ?_ ?_
    · rw [List.length_cons, Nat.add_comm hs.length 1, ← Nat.add_assoc]
      exact hrun
    · intro i hi
      rcases Nat.lt_succ_iff_lt_or_eq.mp hi with hi | rfl
      · exact hleaf i hi
      · rw [h0]
        exact hk _
    · intro i hi
      rw [Nat.add_assoc, Nat.add_comm 1 i]
      exact hnew (i + 1) (by simpa using hi)

end Storage

end Arbreth.Merkle
