/-
  The root of the Merkle accumulator.

  The four root loops of the code base are one loop (`rootLoop`) over a list of partials.
  On at most 64 levels it always ends and computes the abstract `rebuild`
  (`rootLoop_eq_rebuild`), whatever the partials are and whether `capacity` is doubled by
  wrapping or by saturating: the doubled value of the last level is never read. With the
  frontier of `Correct` this gives the root of every run of appends.
-/
import Arbreth.Merkle.Correct

namespace Arbreth.Merkle

open Arbreth.Lib InMemoryMerkleAccumulator

/-! ## The loop computes `rebuild` -/

section Loop

variable (keccak256 : Bytes → B256)

/-- What doubling has to do below the last level. -/
def Doubles (double : Nat → Nat) : Prop := ∀ l, l < 63 → double (2 ^ l) = 2 ^ (l + 1)

theorem doubleWrap_doubles : Doubles doubleWrap := fun l hl => by
  rw [doubleWrap, ← pow_succ]
  exact wrap64_of_lt (Nat.pow_lt_pow_right (by omega) (by omega))

/-- The `while` ends after one step for each missing level. -/
theorem padLoop_eq : ∀ (d fuel k : Nat) (c : B256), d ≤ fuel → k + d ≤ 63 →
    padLoop keccak256 fuel c (2 ^ k) (2 ^ (k + d)) = some (padUp (node keccak256) 0 d c)
  | 0, fuel, k, c, _, _ => by
    unfold padLoop
    rw [if_neg (by simp), padUp]
  | d + 1, 0, _, _, h, _ => by omega
  | d + 1, fuel + 1, k, c, hf, hk => by
    have hlt : 2 ^ k < 2 ^ (k + (d + 1)) := Nat.pow_lt_pow_right (by omega) (by omega)
    have hw : wrap64 (2 ^ k * 2) = 2 ^ (k + 1) := doubleWrap_doubles k (by omega)
    unfold padLoop
    rw [if_pos hlt, hw, show k + (d + 1) = k + 1 + d by omega, padUp]
    exact padLoop_eq d fuel (k + 1) _ (by omega) (by omega)

/-- The machine variables of the loop at level `l`, read as the abstract accumulator. -/
structure RootVars.Reads (v : RootVars) (l : Nat) (acc : Option (B256 × Nat)) : Prop where
  hash : v.hashSoFar = acc.map Prod.fst
  capacity : v.capacity = 2 ^ l
  inHash : ∀ c k, acc = some (c, k) → v.capacityInHash = 2 ^ k ∧ k ≤ l

theorem rootInit_reads : rootInit.Reads 0 none :=
  ⟨rfl, rfl, fun _ _ h => by simp at h⟩

variable {double : Nat → Nat}

/-- One level. The hash is right up to level 63; the capacities are too, except after
    level 63, where they no longer fit. -/
theorem rootStep_reads (hdouble : Doubles double) {v : RootVars} {l : Nat}
    {acc : Option (B256 × Nat)} (hl : l ≤ 63) (hv : v.Reads l acc) (p : B256) :
    ∃ v', rootStep keccak256 double v p = some v' ∧
      v'.hashSoFar = (rebuildStep (node keccak256) 0 l acc p).map Prod.fst ∧
      (l < 63 → v'.Reads (l + 1) (rebuildStep (node keccak256) 0 l acc p)) := by
  obtain ⟨hhash, hcap, hin⟩ := hv
  have hcap' : l < 63 → double v.capacity = 2 ^ (l + 1) := fun h => by rw [hcap, hdouble l h]
  unfold rootStep rebuildStep
  by_cases hp : p = 0
  · rw [if_pos hp, if_pos hp]
    refine ⟨_, rfl, hhash, fun h => ⟨hhash, hcap' h, fun c k hk => ?_⟩⟩
    obtain ⟨h1, h2⟩ := hin c k hk
    exact ⟨h1, by omega⟩
  · rw [if_neg hp, if_neg hp]
    cases acc with
    | none =>
      rw [show v.hashSoFar = none from hhash]
      refine ⟨_, rfl, rfl, fun h => ⟨rfl, hcap' h, fun c k hk => ?_⟩⟩
      obtain ⟨rfl, rfl⟩ := Prod.mk.inj (Option.some.inj hk)
      exact ⟨hcap, by omega⟩
    | some acc =>
      obtain ⟨c, k⟩ := acc
      obtain ⟨hck, hkl⟩ := hin c k rfl
      have hpad := padLoop_eq keccak256 (l - k) 64 k c (by omega) (by omega)
      rw [Nat.add_sub_of_le hkl] at hpad
      rw [show v.hashSoFar = some c from hhash]
      simp only [hck, hcap, hpad, Option.bind_eq_bind, Option.bind_some]
      refine ⟨_, rfl, rfl, fun h => ⟨rfl, hdouble l h, fun c' k' hk => ?_⟩⟩
      obtain ⟨-, rfl⟩ := Prod.mk.inj (Option.some.inj hk)
      refine ⟨?_, le_refl _⟩
      rw [Nat.mul_comm]
      exact doubleWrap_doubles l h

/-- **The root loop computes `rebuild`.** It ends on every list of at most 64 partials. -/
theorem rootLoop_eq_rebuild (hdouble : Doubles double) :
    ∀ (ps : List B256) (v : RootVars) (l : Nat) (acc : Option (B256 × Nat)),
      l + ps.length ≤ 64 → v.hashSoFar = acc.map Prod.fst → (ps ≠ [] → v.Reads l acc) →
      rootLoop keccak256 double v ps = some ((rebuild (node keccak256) 0 l acc ps).map Prod.fst)
  | [], v, l, acc, _, hhash, _ => by rw [rootLoop, rebuild, hhash]
  | p :: ps, v, l, acc, hlen, _, hv => by
    rw [List.length_cons] at hlen
    obtain ⟨v', hstep, hhash', hnext⟩ :=
      rootStep_reads keccak256 hdouble (by omega) (hv (by simp)) p
    rw [rootLoop, hstep, rebuild]
    refine rootLoop_eq_rebuild hdouble ps v' (l + 1) _ (by omega) hhash' fun hne => ?_
    have := List.length_pos_iff.mpr hne
    exact hnext (by omega)

theorem rootLoop_init (hdouble : Doubles double) {ps : List B256} (h : ps.length ≤ 64) :
    rootLoop keccak256 double rootInit ps =
      some ((rebuild (node keccak256) 0 0 none ps).map Prod.fst) :=
  rootLoop_eq_rebuild keccak256 hdouble ps rootInit 0 none (by omega) rfl fun _ => rootInit_reads

end Loop

/-! ## The root of the accumulators -/

section Roots

variable (keccak256 : Bytes → B256)

/-- The root the loops compute from a size and the partials it needs. -/
def rootOf (size : Nat) (ps : List B256) : B256 :=
  if size = 0 then 0 else ((rebuild (node keccak256) 0 0 none ps).map Prod.fst).getD 0

variable {sto : Storage} (acc : MerkleAccumulator) {leaf : Nat → B256} {n : Nat} {st : Backend}

/-- The loop over the partials of a size, which both accumulators run. -/
theorem rootLoop_eq_rootOf (size : Nat) (read : Nat → B256) :
    (if size = 0 then some 0
      else do
        let hashSoFar ← rootLoop keccak256 doubleWrap rootInit
          ((List.range (calcNumPartials size)).map read)
        some (hashSoFar.getD 0)) =
      some (rootOf keccak256 size ((List.range (calcNumPartials size)).map read)) := by
  unfold rootOf
  by_cases h : size = 0
  · simp only [h, if_true]
  · simp only [h, if_false]
    rw [rootLoop_init keccak256 doubleWrap_doubles (by simpa using calcNumPartials_le _)]
    rfl

theorem root_eq_rootOf (st : Backend) :
    acc.root keccak256 st =
      some (rootOf keccak256 (acc.size.get st) (acc.getPartials keccak256 st)) :=
  rootLoop_eq_rootOf keccak256 _ _

theorem inMemory_root_eq_rootOf (acc : InMemoryMerkleAccumulator) :
    acc.root keccak256 =
      some (rootOf keccak256 acc.size ((List.range (calcNumPartials acc.size)).map
        (getPartial acc.partials))) :=
  rootLoop_eq_rootOf keccak256 _ _

theorem map_getPartial_self (ps : List B256) :
    (List.range ps.length).map (getPartial ps) = ps := by
  apply List.ext_getElem
  · simp
  · intro i h1 h2
    simp [getPartial, h2]

theorem getPartials_length (st : Backend) :
    (acc.getPartials keccak256 st).length = calcNumPartials (acc.size.get st) := by
  simp [MerkleAccumulator.getPartials]

/-- The loop of `from_partials`, from level `l` of a frontier on. -/
theorem sizeLoop_frontier (hk : ∀ x, keccak256 x ≠ 0) (hleaf : ∀ i, i < n → leaf i ≠ 0) :
    ∀ (m l : Nat), l + m ≤ 63 →
      sizeLoop (n % 2 ^ l) (2 ^ l)
          ((List.range' l m).map (frontierAt (node keccak256) 0 leaf n)) = n % 2 ^ (l + m)
  | 0, _, _ => rfl
  | m + 1, l, h => by
    have hw : wrap64 (2 ^ l * 2) = 2 ^ (l + 1) := doubleWrap_doubles l (by omega)
    have hstep : (if frontierAt (node keccak256) 0 leaf n l = 0 then n % 2 ^ l
        else wrap64 (n % 2 ^ l + 2 ^ l)) = n % 2 ^ (l + 1) := by
      have hne := frontierAt_ne_zero_iff (node keccak256) 0 leaf (fun _ _ => hk _) hleaf l
      cases hbit : n.testBit l with
      | false =>
        have h0 : frontierAt (node keccak256) 0 leaf n l = 0 := by simp [frontierAt, hbit]
        rw [if_pos h0, (low_same n l hbit).1]
      | true =>
        have hm := (low_split n l hbit).1
        have hlt : n % 2 ^ (l + 1) < 2 ^ 64 :=
          lt_of_lt_of_le (Nat.mod_lt n (Nat.two_pow_pos _))
            (Nat.pow_le_pow_right (by omega) (by omega))
        rw [if_neg (hne.mpr hbit), Nat.add_comm, ← hm, wrap64_of_lt hlt]
    rw [List.range'_succ, List.map_cons, sizeLoop, hw, hstep,
      sizeLoop_frontier hk hleaf m (l + 1) (by omega), Nat.add_assoc, Nat.add_comm 1 m]

/-- The leaves of a list of appended hashes. -/
def leafOf (hs : List B256) (i : Nat) : B256 := keccak256 (wordBytes (hs.getD i 0))

/-- The partials of an accumulator that holds a frontier. -/
theorem Holds.getPartials_eq (h : Holds keccak256 sto leaf n st) :
    (openMerkleAccumulator keccak256 sto).getPartials keccak256 st =
      (List.range (calcNumPartials n)).map (frontierAt (node keccak256) 0 leaf n) := by
  unfold MerkleAccumulator.getPartials
  rw [h.size]
  apply List.map_congr_left
  intro l hl
  have hle := calcNumPartials_le n
  have := List.mem_range.mp hl
  exact h.levels l (Or.inl (by omega))

variable (hk : ∀ x, keccak256 x ≠ 0)
include hk

theorem leafOf_ne_zero (hs : List B256) (i : Nat) : leafOf keccak256 hs i ≠ 0 := hk _

/-- After any appends from empty storage the accumulator is the frontier of their leaves. -/
theorem holds_appendAll_empty (sto : Storage) (hs : List B256) (hn : hs.length < 2 ^ 64) :
    Holds keccak256 sto (leafOf keccak256 hs) hs.length
      ((openMerkleAccumulator keccak256 sto).appendAll keccak256 (fun _ _ => 0) hs).1 := by
  have h := appendAll_holds keccak256 hk hs 0 _
    (holds_empty keccak256 sto (leafOf keccak256 hs)) (by omega)
    (fun i hi => absurd hi (Nat.not_lt_zero i)) ?_
  · rwa [Nat.zero_add] at h
  · intro i hi
    rw [Nat.zero_add, leafOf, List.getD_eq_getElem _ _ hi]

/-- The root of an accumulator that holds a frontier is the padded tree. -/
theorem Holds.root_eq (h : Holds keccak256 sto leaf n st) (hn : n < 2 ^ 64)
    (hleaf : ∀ i, i < n → leaf i ≠ 0) :
    (openMerkleAccumulator keccak256 sto).root keccak256 st =
      some (paddedHash (node keccak256) 0 leaf n (Nat.clog 2 n) 0) := by
  rw [root_eq_rootOf, h.size, h.getPartials_eq keccak256, rootOf]
  rcases Nat.eq_zero_or_pos n with rfl | h0
  · simp [paddedHash]
  · rw [if_neg (by omega), rebuild_frontier (node keccak256) 0 leaf (fun x y => hk _) hleaf h0
      (lt_two_pow_calcNumPartials hn)]
    rfl

theorem Holds.fromPartials_size (h : Holds keccak256 sto leaf n st) (hn : n < 2 ^ 63)
    (hleaf : ∀ i, i < n → leaf i ≠ 0) :
    (fromPartials
      ((openMerkleAccumulator keccak256 sto).getPartials keccak256 st)).size = n := by
  have hle : calcNumPartials n ≤ 63 := calcNumPartials_le_of_lt (by omega) hn
  have hlt : n < 2 ^ calcNumPartials n := lt_two_pow_calcNumPartials (by omega)
  have hloop := sizeLoop_frontier keccak256 hk hleaf (calcNumPartials n) 0 (by omega)
  rw [Nat.pow_zero, Nat.mod_one, Nat.zero_add, Nat.mod_eq_of_lt hlt,
    ← List.range_eq_range'] at hloop
  rw [h.getPartials_eq keccak256]
  exact hloop

/-- **Merkle accumulator correctness.** From empty storage, after any fewer than `2 ^ 63`
    appends: the size is their number; the partial of level `l` is non-zero exactly when bit
    `l` of the size is set, and is then the complete tree over the `2 ^ l` leaves that end at
    the size with its lower bits cleared; the root is the tree padded on the right with zero
    nodes to the next power of two; and importing the exported partials gives the same size
    and root. -/
theorem accumulator_correct (sto : Storage) (hs : List B256) (hn : hs.length < 2 ^ 63) :
    let acc := openMerkleAccumulator keccak256 sto
    let st := (acc.appendAll keccak256 (fun _ _ => 0) hs).1
    let n := hs.length
    let leaf := leafOf keccak256 hs
    let imported := fromPartials (acc.getPartials keccak256 st)
    acc.size.get st = n ∧
    (∀ l, LevelSlotFree keccak256 sto l →
      (acc.readPartial keccak256 st l ≠ 0 ↔ n.testBit l = true) ∧
      (n.testBit l = true → acc.readPartial keccak256 st l =
        treeHash (node keccak256) leaf l (n / 2 ^ l * 2 ^ l - 2 ^ l))) ∧
    acc.root keccak256 st = some (paddedHash (node keccak256) 0 leaf n (Nat.clog 2 n) 0) ∧
    imported.size = n ∧ imported.root keccak256 = acc.root keccak256 st := by
  intro acc st n leaf imported
  have h := holds_appendAll_empty keccak256 hk sto hs (by omega)
  have hleaf : ∀ i, i < n → leaf i ≠ 0 := fun i _ => leafOf_ne_zero keccak256 hk hs i
  have hsize : imported.size = n := h.fromPartials_size keccak256 hk hn hleaf
  refine ⟨h.size, fun l hl => ⟨?_, fun hbit => ?_⟩, ?_, hsize, ?_⟩
  · rw [h.levels l hl]
    exact frontierAt_ne_zero_iff (node keccak256) 0 leaf (fun _ _ => hk _) hleaf l
  · rw [h.levels l hl, frontierAt, if_pos hbit]
  · exact h.root_eq keccak256 hk (by omega) hleaf
  · rw [inMemory_root_eq_rootOf, root_eq_rootOf, hsize, h.size]
    have hlen := getPartials_length keccak256 acc st
    rw [h.size] at hlen
    rw [← hlen]
    exact congrArg (fun ps => some (rootOf keccak256 n ps)) (map_getPartial_self _)

end Roots

/-- Three appends to the root space, with the hash the code calls. -/
theorem accumulator_correct_three :
    let acc := openMerkleAccumulator Keccak.keccak256Nz Storage.root
    let st := (acc.appendAll Keccak.keccak256Nz (fun _ _ => 0) [1, 2, 3]).1
    acc.size.get st = 3 ∧ acc.root Keccak.keccak256Nz st =
      some (paddedHash (node Keccak.keccak256Nz) 0 (leafOf Keccak.keccak256Nz [1, 2, 3]) 3 2 0) := by
  have h := accumulator_correct Keccak.keccak256Nz Keccak.keccak256Nz_ne_zero Storage.root
    [1, 2, 3] (by decide)
  exact ⟨h.1, h.2.2.1⟩

end Arbreth.Merkle
