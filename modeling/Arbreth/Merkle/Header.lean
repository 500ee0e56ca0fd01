/-
  The ArbOS fields of a block header (arbos, header.rs).

  A header carries the send root, the send count, the L1 block number and the ArbOS
  version, read from raw storage slots. The file derives slots by its own
  `storage_key_map` over a 32-byte key and folds the partials by its own loop; both are
  tied to the ones of the storage layer here (`storageKeyMap_eq`,
  `merkleRootFromPartials_eq`).

  `read_slot` may fail. A run of the model also fails when the `while` of the root loop
  does not end, so that a result is one the code returns.
-/
import Arbreth.Merkle.Root

namespace Arbreth.Header

open Arbreth.Lib Arbreth.Merkle

/-- Why a derivation gives no result. -/
inductive Fault (ε : Type) where
  | store (e : ε)
  | diverge

/-- `read_slot`: `ok none` for an absent slot, `error` for a store failure. -/
abbrev ReadSlot (ε : Type) := Address → B256 → Except (Fault ε) (Option U256)

/-- `BATCH_POSTER_ADDRESS`. -/
def batchPosterAddress : Address := 0xa4b000000000000000000073657175656e636572#160

/-- `ArbHeaderInfo`. -/
structure ArbHeaderInfo where
  sendRoot : B256
  sendCount : Nat
  l1BlockNumber : Nat
  arbosFormatVersion : Nat
  collectTips : Bool

/-! ## Slots -/

/-- `uint_to_hash_u64_be`. -/
def uintToHashU64Be (k : Nat) : B256 := wordOfBytes (List.replicate 24 0 ++ beBytes 8 k)

section Slots

variable (keccak256 : Bytes → B256)

/-- `storage_key_map` of header.rs, over a 32-byte key. -/
def storageKeyMap (storageKey : Bytes) (key : B256) : B256 :=
  let h := keccak256 (storageKey ++ (wordBytes key).take 31)
  wordOfBytes ((wordBytes h).take 31 ++ (wordBytes key).drop 31)

/-- `subspace`. -/
def subspace (parent id : Bytes) : Bytes := wordBytes (keccak256 (parent ++ id))

theorem wordBytes_uintToHash {k : Nat} (hk : k < 2 ^ 64) :
    wordBytes (uintToHashU64Be k) = offsetBytes k := by
  rw [uintToHashU64Be, wordBytes_wordOfBytes (by simp), offsetBytes, wrap64_of_lt hk]
  exact (beBytes_of_lt (by simpa using hk) 24).symm

theorem storageKeyMap_eq (key : Bytes) {k : Nat} (hk : k < 2 ^ 64) :
    storageKeyMap keccak256 key (uintToHashU64Be k) = Arbreth.storageKeyMap keccak256 key k := by
  unfold storageKeyMap Arbreth.storageKeyMap
  rw [wordBytes_uintToHash hk]

end Slots

/-! ## Reads -/

section Reads

variable {ε : Type}

/-- `read_storage_u64_be`: the last eight bytes of the slot. -/
def readStorageU64Be (readSlot : ReadSlot ε) (addr : Address) (slot : B256) :
    Except (Fault ε) (Option Nat) := do
  match ← readSlot addr slot with
  | none => pure none
  | some val => pure (some (beNat ((wordBytes val).drop 24)))

/-- `read_storage_hash`. -/
def readStorageHash (readSlot : ReadSlot ε) (addr : Address) (slot : B256) :
    Except (Fault ε) (Option B256) := readSlot addr slot

variable (keccak256 : Bytes → B256)

/-- `capacity.saturating_mul(2)`. -/
def doubleSaturating (capacity : Nat) : Nat := satMul64 capacity 2

/-- `merkle_root_from_partials`. The reads are done before the hashing; the loop of the
    code interleaves them, and no read depends on a hash. -/
def merkleRootFromPartials (readSlot : ReadSlot ε) (addr : Address) (sendMerkleKey : Bytes)
    (size : Nat) : Except (Fault ε) (Option B256) :=
  if size = 0 then pure (some 0)
  else do
    let partials ← (List.range (calcNumPartials size)).mapM fun level => do
      let slot := storageKeyMap keccak256 sendMerkleKey (uintToHashU64Be (wrap64 (2 + level)))
      pure ((← readStorageHash readSlot addr slot).getD 0)
    match rootLoop keccak256 doubleSaturating rootInit partials with
    | some hashSoFar => pure hashSoFar
    | none => throw Fault.diverge

/-- `derive_arb_header_info`: `ok none` when the ArbOS version slot is absent. -/
def deriveArbHeaderInfo (readSlot : ReadSlot ε) (coinbase : Address) :
    Except (Fault ε) (Option ArbHeaderInfo) := do
  let addr := arbosStateAddress
  let versionSlot := storageKeyMap keccak256 [] (uintToHashU64Be 0)
  match ← readStorageU64Be readSlot addr versionSlot with
  | none => pure none
  | some arbosVersion =>
    let sendMerkleSub := subspace keccak256 [] [5]
    let blockhashesSub := subspace keccak256 [] [6]
    let sendCountSlot := storageKeyMap keccak256 sendMerkleSub (uintToHashU64Be 0)
    let sendCount := (← readStorageU64Be readSlot addr sendCountSlot).getD 0
    let sendRoot :=
      (← merkleRootFromPartials keccak256 readSlot addr sendMerkleSub sendCount).getD 0
    let l1BlockNumSlot := storageKeyMap keccak256 blockhashesSub (uintToHashU64Be 0)
    let l1BlockNumber := (← readStorageU64Be readSlot addr l1BlockNumSlot).getD 0
    let collectTipsSlot := storageKeyMap keccak256 [] (uintToHashU64Be 11)
    let collectTipsFlag := (← readStorageU64Be readSlot addr collectTipsSlot).getD 0
    let collectTips := collectTipsFlag ≠ 0 ∧ coinbase = batchPosterAddress
    pure (some ⟨sendRoot, sendCount, l1BlockNumber, arbosVersion, collectTips⟩)

end Reads

/-! ## Reading a storage -/

section Backed

variable {ε : Type} (keccak256 : Bytes → B256)

/-- `read_slot` over a storage: a zero slot is absent. -/
def slotsOf (st : Backend) : ReadSlot ε := fun addr slot =>
  .ok (if sload st addr slot = 0 then none else some (sload st addr slot))

theorem readStorageHash_slotsOf (st : Backend) (addr : Address) (slot : B256) :
    (readStorageHash (slotsOf st : ReadSlot ε) addr slot).map (·.getD 0) =
      .ok (sload st addr slot) := by
  unfold readStorageHash slotsOf
  by_cases h : sload st addr slot = 0
  · rw [if_pos h, h]
    rfl
  · rw [if_neg h]
    rfl

theorem readStorageU64Be_slotsOf (st : Backend) (addr : Address) (slot : B256) :
    readStorageU64Be (slotsOf st : ReadSlot ε) addr slot =
      .ok (if sload st addr slot = 0 then none
        else some ((sload st addr slot).toNat % 2 ^ 64)) := by
  have hb : beNat ((wordBytes (sload st addr slot)).drop 24) =
      (sload st addr slot).toNat % 2 ^ 64 := beNat_drop 8 24 _
  unfold readStorageU64Be slotsOf
  by_cases h : sload st addr slot = 0
  · rw [if_pos h, if_pos h]
    rfl
  · rw [if_neg h, if_neg h, ← hb]
    rfl

theorem doubleSaturating_doubles : Doubles doubleSaturating := fun l hl => by
  rw [doubleSaturating, satMul64_of_lt, ← pow_succ]
  rw [← pow_succ]
  exact Nat.pow_lt_pow_right (by omega) (by omega)

theorem mapM_ok {α β δ : Type} {f : α → Except δ β} {g : α → β} (h : ∀ x, f x = .ok (g x)) :
    ∀ xs : List α, xs.mapM f = .ok (xs.map g)
  | [] => rfl
  | x :: xs => by
    rw [List.mapM_cons, h x, mapM_ok h xs]
    rfl

/-- On the storage of an accumulator the raw reads fold the same partials as `root`. -/
theorem merkleRootFromPartials_eq (sto : Storage) (hacc : sto.account = arbosStateAddress)
    (st : Backend) (size : Nat) :
    (merkleRootFromPartials keccak256 (slotsOf st : ReadSlot ε) arbosStateAddress
        (keyBytesOf sto.baseKey) size).map (·.getD 0) =
      .ok (rootOf keccak256 size ((List.range (calcNumPartials size)).map
        ((openMerkleAccumulator keccak256 sto).readPartial keccak256 st))) := by
  have hread : ∀ level, (do
      let slot := storageKeyMap keccak256 (keyBytesOf sto.baseKey)
        (uintToHashU64Be (wrap64 (2 + level)))
      pure ((← readStorageHash (slotsOf st : ReadSlot ε) arbosStateAddress slot).getD 0)) =
        (.ok ((openMerkleAccumulator keccak256 sto).readPartial keccak256 st level) :
          Except (Fault ε) B256) := by
    intro level
    rw [storageKeyMap_eq keccak256 _ (wrap64_lt _), MerkleAccumulator.readPartial, ← hacc]
    exact readStorageHash_slotsOf st _ _
  unfold merkleRootFromPartials rootOf
  by_cases h0 : size = 0
  · rw [if_pos h0, if_pos h0]
    rfl
  · rw [if_neg h0, if_neg h0, mapM_ok hread]
    have hlen : ((List.range (calcNumPartials size)).map
        ((openMerkleAccumulator keccak256 sto).readPartial keccak256 st)).length ≤ 64 := by
      simpa using calcNumPartials_le size
    simp only [bind, Except.bind, rootLoop_init keccak256 doubleSaturating_doubles hlen]
    rfl

end Backed

end Arbreth.Header
