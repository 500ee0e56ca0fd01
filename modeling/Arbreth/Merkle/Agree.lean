/-
  All send-root computations agree.

  The storage accumulator and the in-memory one are run on the same hashes. `Agrees` says
  that they have the same size and the same partials at every level an append can reach;
  one append keeps it and returns the same events on both sides (`append_agrees`). No
  property of the hash is needed for this and the number of appends is not bounded: past
  `2 ^ 64` both sizes wrap alike.

  The header and the precompile read the storage side. The one place where the hash
  matters is the key of the send subspace: a zero key would stand for the root space in
  the storage layer and for 32 zero bytes in the header.
-/
import Arbreth.Merkle.Header
import Arbreth.Outbox.ArbSys
import Arbreth.Lib.Outcome

namespace Arbreth.Merkle

open Arbreth.Lib Arbreth.Header Arbreth.ArbSys InMemoryMerkleAccumulator

/-! ## Two stores in step -/

theorem store_lawful : InMemoryMerkleAccumulator.store.Lawful fun _ => True := by
  refine ⟨fun _ _ => trivial, fun ps l v j _ _ => ?_⟩
  show getPartial (setPartial ps l v) j =
    if j = l then v else getPartial ps j
  unfold getPartial setPartial
  grind

section Sim

variable (keccak256 : Bytes → B256) {σ τ : Type} {S : PartialStore σ} {T : PartialStore τ}
variable {okS okT : Nat → Prop}

/-- The two stores hold the same partials on the levels an append can reach. -/
def SamePartials (S : PartialStore σ) (T : PartialStore τ) (s : σ) (t : τ) : Prop :=
  ∀ l, l ≤ 64 → S.get s l = T.get t l

theorem samePartials_set (hS : S.Lawful okS) (hT : T.Lawful okT) {s : σ} {t : τ}
    (h : SamePartials S T s t) {l : Nat} (hl : l ≤ 64) (v : B256) :
    SamePartials S T (S.set s l v) (T.set t l v) := by
  intro j hj
  rw [hS.get_set _ _ _ _ hl (hS.ok_low j hj), hT.get_set _ _ _ _ hl (hT.ok_low j hj), h j hj]

/-- The carry loops go in step. -/
theorem appendLoop_same (hS : S.Lawful okS) (hT : T.Lawful okT) (newSize : Nat) :
    ∀ (left level : Nat) (soFar : B256) (s : σ) (t : τ), level + left ≤ 64 →
      SamePartials S T s t →
      (appendLoop keccak256 S newSize left level soFar s).2 =
          (appendLoop keccak256 T newSize left level soFar t).2 ∧
        SamePartials S T (appendLoop keccak256 S newSize left level soFar s).1
          (appendLoop keccak256 T newSize left level soFar t).1
  | 0, level, soFar, s, t, hl, h => ⟨rfl, samePartials_set hS hT h (by omega) soFar⟩
  | left + 1, level, soFar, s, t, hl, h => by
    have hget := h level (by omega)
    simp only [appendLoop, hget]
    split
    · exact ⟨rfl, samePartials_set hS hT h (by omega) soFar⟩
    · have hrest := appendLoop_same hS hT newSize left (level + 1)
        (node keccak256 (T.get t level) soFar) _ _ (by omega)
        (samePartials_set hS hT h (l := level) (by omega) 0)
      exact ⟨by rw [hrest.1], hrest.2⟩

end Sim

/-! ## Storage and memory -/

section Agree

variable (keccak256 : Bytes → B256) (sto : Storage)

/-- The storage accumulator and the in-memory one have the same size and partials. -/
structure Agrees (st : Backend) (mem : InMemoryMerkleAccumulator) : Prop where
  size : (openMerkleAccumulator keccak256 sto).size.get st = mem.size
  partials : SamePartials ((openMerkleAccumulator keccak256 sto).partials keccak256)
    InMemoryMerkleAccumulator.store st mem.partials

/-- The slots of the accumulator are all zero. -/
structure FreshAccumulator (st : Backend) : Prop where
  size : sload st arbosStateAddress (sizeSlot keccak256 sto) = 0
  partials : ∀ l, l ≤ 64 → (openMerkleAccumulator keccak256 sto).readPartial keccak256 st l = 0

variable {st : Backend} {mem : InMemoryMerkleAccumulator}

theorem FreshAccumulator.size_get (h : FreshAccumulator keccak256 sto st) :
    (openMerkleAccumulator keccak256 sto).size.get st = 0 := by
  have h0 : sload st arbosStateAddress (openMerkleAccumulator keccak256 sto).size.slot = 0 := h.size
  simp [StorageBackedUint64.get, h0]

theorem FreshAccumulator.agrees (h : FreshAccumulator keccak256 sto st) :
    Agrees keccak256 sto st InMemoryMerkleAccumulator.new := by
  refine ⟨h.size_get, fun l hl => ?_⟩
  exact h.partials l hl

/-- One append on both sides: the same events, and they still agree. -/
theorem append_agrees (h : Agrees keccak256 sto st mem) (item : B256) :
    ((openMerkleAccumulator keccak256 sto).append keccak256 st item).2 =
        (mem.append keccak256 item).2 ∧
      Agrees keccak256 sto ((openMerkleAccumulator keccak256 sto).append keccak256 st item).1
        (mem.append keccak256 item).1 := by
  have hsame : SamePartials ((openMerkleAccumulator keccak256 sto).partials keccak256)
      InMemoryMerkleAccumulator.store
      ((openMerkleAccumulator keccak256 sto).size.set st (wrap64 (mem.size + 1))) mem.partials := by
    intro l hl
    rw [← h.partials l hl]
    exact readPartial_set_size keccak256 sto st _ l (Or.inl (by omega))
  have hloop := appendLoop_same keccak256
    (partials_lawful keccak256 (openMerkleAccumulator keccak256 sto)) store_lawful
    (wrap64 (mem.size + 1)) (calcNumPartials mem.size) 0 (keccak256 (wordBytes item)) _ _
    (by have := calcNumPartials_le mem.size; omega) hsame
  have hsize := size_append keccak256 sto st item
  rw [h.size] at hsize
  unfold MerkleAccumulator.append at hsize ⊢
  rw [h.size] at hsize ⊢
  exact ⟨hloop.1, hsize, hloop.2⟩

theorem appendAll_agrees : ∀ (hs : List B256) (st : Backend) (mem : InMemoryMerkleAccumulator),
    Agrees keccak256 sto st mem →
      ((openMerkleAccumulator keccak256 sto).appendAll keccak256 st hs).2 =
          (mem.appendAll keccak256 hs).2 ∧
        Agrees keccak256 sto ((openMerkleAccumulator keccak256 sto).appendAll keccak256 st hs).1
          (mem.appendAll keccak256 hs).1
  | [], _, _, h => ⟨rfl, h⟩
  | item :: hs, st, mem, h => by
    obtain ⟨hev, hag⟩ := append_agrees keccak256 sto h item
    obtain ⟨hevs, hags⟩ := appendAll_agrees hs _ _ hag
    simp only [MerkleAccumulator.appendAll, InMemoryMerkleAccumulator.appendAll]
    exact ⟨by rw [hev, hevs], hags⟩

theorem Agrees.root_eq (h : Agrees keccak256 sto st mem) :
    mem.root keccak256 = (openMerkleAccumulator keccak256 sto).root keccak256 st := by
  rw [inMemory_root_eq_rootOf, root_eq_rootOf, MerkleAccumulator.getPartials, h.size]
  congr 2
  apply List.map_congr_left
  intro l hl
  have hle := calcNumPartials_le mem.size
  have := List.mem_range.mp hl
  exact (h.partials l (by omega)).symm

/-- The size slot after any appends to a fresh accumulator. -/
theorem sizeSlot_appendAll : ∀ (hs : List B256) (st : Backend) (n : Nat),
    sload st arbosStateAddress (sizeSlot keccak256 sto) = BitVec.ofNat 256 (wrap64 n) →
      sload ((openMerkleAccumulator keccak256 sto).appendAll keccak256 st hs).1 arbosStateAddress
          (sizeSlot keccak256 sto) = BitVec.ofNat 256 (wrap64 (n + hs.length))
  | [], _, _, h => h
  | item :: hs, st, n, h => by
    have hget : (openMerkleAccumulator keccak256 sto).size.get st = wrap64 n :=
      get_of_slot keccak256 sto h
    have hstep := sizeSlot_append keccak256 sto st item
    rw [hget, show wrap64 (wrap64 n + 1) = wrap64 (n + 1) by unfold wrap64; omega] at hstep
    have hrest := sizeSlot_appendAll hs _ (n + 1) hstep
    simp only [MerkleAccumulator.appendAll, List.length_cons]
    rw [show n + (hs.length + 1) = n + 1 + hs.length by omega]
    exact hrest

end Agree

/-! ## The header and the precompile -/

section Readers

variable (keccak256 : Bytes → B256)

theorem sendStorage_baseKey : (sendStorage keccak256).baseKey = keccak256 [5] := by
  simp [sendStorage, Storage.openSubStorage, Storage.root, deriveSubKey, keyBytesOf]

/-- The header names the send subspace by the same bytes as the storage layer. -/
theorem subspace_eq_keyBytesOf (h5 : keccak256 [5] ≠ 0) :
    subspace keccak256 [] [5] = keyBytesOf (sendStorage keccak256).baseKey := by
  rw [sendStorage_baseKey, keyBytesOf, if_neg h5, subspace, List.nil_append]

theorem readStorageU64Be_ofNat {ε : Type} {st : Backend} {slot : U256} {n : Nat}
    (h : sload st arbosStateAddress slot = BitVec.ofNat 256 (wrap64 n)) :
    (readStorageU64Be (slotsOf st : ReadSlot ε) arbosStateAddress slot).map (·.getD 0) =
      .ok (wrap64 n) := by
  have hlt := wrap64_lt n
  rw [readStorageU64Be_slotsOf, h]
  by_cases h0 : BitVec.ofNat 256 (wrap64 n) = 0
  · have hz : wrap64 n = 0 := by
      have := congrArg BitVec.toNat h0
      rw [BitVec.toNat_ofNat, Nat.mod_eq_of_lt (by omega)] at this
      exact this
    rw [if_pos h0, hz]
    rfl
  · rw [if_neg h0, BitVec.toNat_ofNat, Nat.mod_eq_of_lt (show wrap64 n < 2 ^ 256 by omega),
      Nat.mod_eq_of_lt hlt]
    rfl

/-- What the header says about the sends, on a storage whose version slot is set. -/
theorem deriveArbHeaderInfo_sends {ε : Type} (h5 : keccak256 [5] ≠ 0) {st : Backend} {n : Nat}
    (hsize : sload st arbosStateAddress (sizeSlot keccak256 (sendStorage keccak256)) =
      BitVec.ofNat 256 (wrap64 n))
    (hversion : sload st arbosStateAddress (Arbreth.storageKeyMap keccak256 [] 0) ≠ 0)
    (coinbase : Address) :
    ∃ info, deriveArbHeaderInfo keccak256 (slotsOf st : ReadSlot ε) coinbase = .ok (some info) ∧
      info.sendCount = wrap64 n ∧
      info.sendRoot = rootOf keccak256 (wrap64 n) ((List.range (calcNumPartials (wrap64 n))).map
        ((sendMerkleAccumulator keccak256).readPartial keccak256 st)) := by
  have hver : readStorageU64Be (slotsOf st : ReadSlot ε) arbosStateAddress
      (Arbreth.storageKeyMap keccak256 [] 0) = _ := readStorageU64Be_slotsOf st _ _
  rw [if_neg hversion] at hver
  have hcount : (readStorageU64Be (slotsOf st : ReadSlot ε) arbosStateAddress
      (sizeSlot keccak256 (sendStorage keccak256))).map (·.getD 0) = _ :=
    readStorageU64Be_ofNat hsize
  have hroot : (merkleRootFromPartials keccak256 (slotsOf st : ReadSlot ε) arbosStateAddress
      (keyBytesOf (sendStorage keccak256).baseKey) (wrap64 n)).map (·.getD 0) = _ :=
    merkleRootFromPartials_eq keccak256 (sendStorage keccak256) rfl st (wrap64 n)
  have hslot : Header.storageKeyMap keccak256 (subspace keccak256 [] [5]) (uintToHashU64Be 0) =
      sizeSlot keccak256 (sendStorage keccak256) := by
    rw [storageKeyMap_eq keccak256 _ (by decide), subspace_eq_keyBytesOf keccak256 h5]
    rfl
  unfold deriveArbHeaderInfo
  dsimp only
  rw [storageKeyMap_eq keccak256 [] (show 0 < 2 ^ 64 by decide), hslot,
    subspace_eq_keyBytesOf keccak256 h5, hver]
  obtain ⟨c, hc, hcn⟩ := map_eq_ok hcount
  obtain ⟨r, hr, hrn⟩ := map_eq_ok hroot
  simp only [bind, Except.bind, hc, hcn, hr, readStorageU64Be_slotsOf]
  exact ⟨_, rfl, rfl, hrn⟩

/-- **All send-root computations agree.** On the storage written by any appends to a fresh
    send accumulator, the storage root, the in-memory root after the same appends, the send
    root of the header and the root exported by ArbSys are one word; the send count of the
    header is the number of appends (as the `u64` it is kept in); and the two accumulators
    returned the same events. The header exists when its version slot is set. -/
theorem send_roots_agree {ε : Type} (hk : ∀ x, keccak256 x ≠ 0) {st₀ : Backend}
    (hfresh : FreshAccumulator keccak256 (sendStorage keccak256) st₀) (hs : List B256)
    (coinbase : Address) :
    let acc := sendMerkleAccumulator keccak256
    let st := (acc.appendAll keccak256 st₀ hs).1
    let mem := (InMemoryMerkleAccumulator.new.appendAll keccak256 hs).1
    ∃ root, acc.root keccak256 st = some root ∧ mem.root keccak256 = some root ∧
      (sload st arbosStateAddress (Arbreth.storageKeyMap keccak256 [] 0) ≠ 0 →
        ∃ info, deriveArbHeaderInfo keccak256 (slotsOf st : ReadSlot ε) coinbase =
            .ok (some info) ∧
          info.sendRoot = root ∧ info.sendCount = wrap64 hs.length ∧
          (hs.length < 2 ^ 64 → info.sendCount = hs.length)) ∧
      (∃ exported, sendMerkleTreeState keccak256 0 st = some (some exported) ∧
        exported.root = root) ∧
      (acc.appendAll keccak256 st₀ hs).2 =
        (InMemoryMerkleAccumulator.new.appendAll keccak256 hs).2 := by
  intro acc st mem
  obtain ⟨hevents, hag⟩ := appendAll_agrees keccak256 (sendStorage keccak256) hs st₀ _
    (hfresh.agrees keccak256 _)
  have hsize : sload st arbosStateAddress (sizeSlot keccak256 (sendStorage keccak256)) =
      BitVec.ofNat 256 (wrap64 hs.length) := by
    have h := sizeSlot_appendAll keccak256 (sendStorage keccak256) hs st₀ 0 hfresh.size
    rwa [Nat.zero_add] at h
  have hget : acc.size.get st = wrap64 hs.length := get_of_slot keccak256 _ hsize
  have hroot := root_eq_rootOf keccak256 acc st
  refine ⟨_, hroot, by rw [← hroot]; exact hag.root_eq keccak256 _, fun hversion => ?_, ?_, hevents⟩
  · obtain ⟨info, hinfo, hcount, hr⟩ :=
      deriveArbHeaderInfo_sends keccak256 (hk [5]) hsize hversion coinbase
    refine ⟨info, hinfo, ?_, hcount, fun h => by rw [hcount, wrap64_of_lt h]⟩
    rw [hr, hget, MerkleAccumulator.getPartials, hget]
  · exact ⟨_, sendMerkleTreeState_eq keccak256 st, rfl⟩

end Readers

/-- A storage in which only the ArbOS version is set. -/
def versionOnly (version : U256) : Backend :=
  sstore (fun _ _ => 0) arbosStateAddress
    (Arbreth.storageKeyMap Keccak.keccak256Nz [] 0) version

/-- With the hash the code calls, the version slot is not a slot of the send accumulator. -/
theorem versionSlot_ne (o : Nat) (ho : o ≤ 66) :
    Arbreth.storageKeyMap Keccak.keccak256Nz [] 0 ≠
      (sendStorage Keccak.keccak256Nz).newSlot Keccak.keccak256Nz o := by
  rcases Nat.eq_zero_or_pos o with rfl | hpos
  · decide +kernel
  · exact storageKeyMap_ne _ (by omega)

theorem versionOnly_fresh (version : U256) :
    FreshAccumulator Keccak.keccak256Nz (sendStorage Keccak.keccak256Nz) (versionOnly version) := by
  refine ⟨sload_sstore_ne _ _ (versionSlot_ne 0 (by omega)).symm, fun l hl => ?_⟩
  apply sload_sstore_ne
  unfold MerkleAccumulator.partialSlot
  rw [wrap64_level hl]
  exact (versionSlot_ne (2 + l) (by omega)).symm

/-- Three send hashes appended under ArbOS version 30: the header counts them. -/
theorem send_roots_agree_three :
    ∃ info, deriveArbHeaderInfo Keccak.keccak256Nz
        (slotsOf ((sendMerkleAccumulator Keccak.keccak256Nz).appendAll Keccak.keccak256Nz
          (versionOnly 30) [7, 8, 9]).1 : ReadSlot Empty) 0 = .ok (some info) ∧
      info.sendCount = 3 := by
  obtain ⟨_, _, _, hheader, _⟩ := send_roots_agree Keccak.keccak256Nz
    Keccak.keccak256Nz_ne_zero (versionOnly_fresh 30) [7, 8, 9] 0
  obtain ⟨info, hinfo, _, _, hcount⟩ := hheader (by
    unfold sendMerkleAccumulator
    rw [appendAll_frame _ _ versionSlot_ne, versionOnly, sload_sstore_self]
    decide)
  exact ⟨info, hinfo, hcount (by decide)⟩

end Arbreth.Merkle
