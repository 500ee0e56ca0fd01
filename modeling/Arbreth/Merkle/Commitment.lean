/-
  What the accumulator tells the parent chain: its root, and the nodes its appends announce.

  The root stands for the list of items, unless two strings that were hashed for it collide.
  An append announces the subtrees its item completes, each with the hash it has in the tree,
  lowest first, and no others; proofs are put together from these logs.
-/
import Arbreth.Merkle.Root

namespace Arbreth.Merkle

open Arbreth.Lib

variable (keccak256 : Bytes → B256)

/-- The strings hashed in the tree over the items. -/
def hashedStrings (hs : List B256) : List Bytes :=
  hs.map wordBytes ++
    (paddedPairs (node keccak256) 0 (leafOf keccak256 hs) hs.length (Nat.clog 2 hs.length) 0).map
      fun p => pairBytes p.1 p.2

/-- The storage after the items are appended to an empty accumulator. -/
def stateOf (sto : Storage) (hs : List B256) : Backend :=
  ((openMerkleAccumulator keccak256 sto).appendAll keccak256 (fun _ _ => 0) hs).1

def rootAfter (sto : Storage) (hs : List B256) : Option B256 :=
  (openMerkleAccumulator keccak256 sto).root keccak256 (stateOf keccak256 sto hs)

/-- The events of one more append name the subtrees that end with it: one of level `l + 1` for
    each bit `l` of the size below its lowest clear bit. -/
def AnnouncesCompleted (sto : Storage) (hs : List B256) (item : B256) : Prop :=
  ((openMerkleAccumulator keccak256 sto).append keccak256 (stateOf keccak256 sto hs) item).2 =
    ((List.range (calcNumPartials hs.length)).takeWhile hs.length.testBit).map fun l =>
      ⟨l + 1, hs.length, treeHash (node keccak256) (leafOf keccak256 (hs ++ [item])) (l + 1)
        (hs.length + 1 - 2 ^ (l + 1))⟩

variable {keccak256}

/-- **The root commits to the items.** -/
theorem root_commits_to_items (hk : ∀ x, keccak256 x ≠ 0) (sto : Storage) {hs hs' : List B256}
    (hn : hs.length < 2 ^ 64) (hlen : hs.length = hs'.length)
    (hfree : ∀ x ∈ hashedStrings keccak256 hs, ∀ y ∈ hashedStrings keccak256 hs',
      keccak256 x = keccak256 y → x = y)
    (hroot : rootAfter keccak256 sto hs = rootAfter keccak256 sto hs') : hs = hs' := by
  have hne : ∀ (xs : List B256) i, i < xs.length → leafOf keccak256 xs i ≠ 0 :=
    fun xs i _ => leafOf_ne_zero keccak256 hk xs i
  have hn' : hs'.length < 2 ^ 64 := hlen ▸ hn
  rw [rootAfter, stateOf, rootAfter, stateOf,
    (holds_appendAll_empty keccak256 hk sto hs hn).root_eq keccak256 hk hn (hne hs),
    (holds_appendAll_empty keccak256 hk sto hs' hn').root_eq keccak256 hk hn' (hne hs'),
    ← hlen] at hroot
  unfold hashedStrings at hfree
  rw [← hlen] at hfree
  refine List.ext_getElem hlen fun i hi hi' => ?_
  have hleaf : leafOf keccak256 hs i = leafOf keccak256 hs' i := by
    refine paddedHash_inj (node keccak256) 0 _ (fun p hp q hq heq => ?_) (Option.some.inj hroot)
      (Nat.zero_le i) ?_ hi
    · refine Prod.ext_iff.mpr (pairBytes_inj (hfree _ ?_ _ ?_ heq))
      · exact List.mem_append_right _ (List.mem_map_of_mem hp)
      · exact List.mem_append_right _ (List.mem_map_of_mem hq)
    · rw [Nat.zero_add]
      exact hi.trans_le (Nat.le_pow_clog (by decide) _)
  rw [leafOf, leafOf, List.getD_eq_getElem _ _ hi, List.getD_eq_getElem _ _ hi'] at hleaf
  refine wordBytes_inj (hfree _ ?_ _ ?_ hleaf)
  · exact List.mem_append_left _ (List.mem_map_of_mem (List.getElem_mem hi))
  · exact List.mem_append_left _ (List.mem_map_of_mem (List.getElem_mem hi'))

theorem root_commits_to_items_pair :
    rootAfter Keccak.keccak256Nz .root [7, 8] ≠ rootAfter Keccak.keccak256Nz .root [7, 9] := by
  have hfree : ∀ x ∈ hashedStrings Keccak.keccak256Nz [7, 8],
      ∀ y ∈ hashedStrings Keccak.keccak256Nz [7, 9],
        Keccak.keccak256Nz x = Keccak.keccak256Nz y → x = y := by decide +kernel
  intro h
  have heq := root_commits_to_items Keccak.keccak256Nz_ne_zero .root (by decide) (by rfl) hfree h
  exact absurd heq (by decide)

/-- The carry loop announces one subtree for each full level it passes. -/
theorem appendLoop_events (hk : ∀ x, keccak256 x ≠ 0) {σ : Type} {S : PartialStore σ}
    {ok : Nat → Prop} (hS : S.Lawful ok) {leaf : Nat → B256} {n : Nat} (hn : n < 2 ^ 64)
    (hleaf : ∀ i, i < n → leaf i ≠ 0) :
    ∀ (left level : Nat) (st : σ), level + left ≤ 64 → 2 ^ level ∣ n + 1 →
      Carried keccak256 leaf S ok n level st →
      (appendLoop keccak256 S (wrap64 (n + 1)) left level
          (treeHash (node keccak256) leaf level (n + 1 - 2 ^ level)) st).2 =
        ((List.range' level left).takeWhile n.testBit).map fun l =>
          ⟨l + 1, n, treeHash (node keccak256) leaf (l + 1) (n + 1 - 2 ^ (l + 1))⟩
  | 0, _, _, _, _, _ => rfl
  | left + 1, level, st, hlev, hd, hst => by
    have hl : level ≤ 64 := by omega
    have hget : S.get st level = frontierAt (node keccak256) 0 leaf n level := by
      rw [hst level (hS.ok_low level hl), if_neg (Nat.lt_irrefl _)]
    have hzero := frontierAt_ne_zero_iff (node keccak256) 0 leaf (fun _ _ => hk _) hleaf level
    rw [appendLoop, hget, List.range'_succ, List.takeWhile_cons]
    by_cases hbit : n.testBit level = true
    · have hnum : wrap64 (wrap64 (n + 1) + u64Max) = n := by
        unfold wrap64 u64Max
        omega
      rw [if_neg (hzero.mpr hbit), if_pos hbit, List.map_cons, hnum,
        frontierAt_join (node keccak256) 0 leaf hd hbit,
        ← appendLoop_events hk hS hn hleaf left (level + 1) _ (by omega) (dvd_carry hd hbit)
          (carried_next keccak256 leaf hS hl hst)]
    · rw [if_pos (not_not.mp (mt hzero.mp hbit)), if_neg hbit]
      rfl

/-- **Appends announce what they complete.** -/
theorem append_announces_completed (hk : ∀ x, keccak256 x ≠ 0) (sto : Storage) (hs : List B256)
    (item : B256) (hn : hs.length < 2 ^ 64) : AnnouncesCompleted keccak256 sto hs item := by
  have hnew : leafOf keccak256 (hs ++ [item]) hs.length = keccak256 (wordBytes item) := by
    simp [leafOf]
  have h := appendAll_holds keccak256 hk hs 0 _
    (holds_empty keccak256 sto (leafOf keccak256 (hs ++ [item]))) (by omega)
    (fun i hi => absurd hi (Nat.not_lt_zero i))
    fun i hi => by simp [leafOf, List.getElem?_append_left hi, List.getElem?_eq_getElem hi]
  rw [Nat.zero_add] at h
  unfold AnnouncesCompleted MerkleAccumulator.append
  rw [stateOf, h.size, ← hnew, List.range_eq_range']
  refine appendLoop_events hk (partials_lawful keccak256 _) hn
    (fun i _ => leafOf_ne_zero keccak256 hk _ i) _ 0 _ ?_ (one_dvd _) fun j hj => ?_
  · rw [Nat.zero_add]
    exact calcNumPartials_le _
  · rw [if_neg (Nat.not_lt_zero j), ← h.levels j hj]
    exact readPartial_set_size keccak256 sto _ _ j hj

theorem append_announces_completed_pair :
    AnnouncesCompleted Keccak.keccak256Nz Storage.root [7] 8 :=
  append_announces_completed Keccak.keccak256Nz_ne_zero Storage.root [7] 8 (by decide)

end Arbreth.Merkle
