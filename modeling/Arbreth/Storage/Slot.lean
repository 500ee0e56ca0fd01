/-
  ArbOS storage: subspaces and slots.

  ArbOS keeps its state in the storage of one account. A subspace is named by a key
  (`deriveSubKey`), and a field of it lives at the slot `storageKeyMap` computes from
  the subspace key and the field's offset: the hash of the key and of the first 31
  offset bytes, with the last offset byte kept as it is (arb-storage, slot.rs).

  The 256 slots of one page therefore differ in their last byte whatever the hash
  does (`storageKeyMap_ne`), which is all that the models built on this file need.

  `keccak256` is a parameter here and in every file above. Backend failures (a store
  that cannot be read, gas running out in a precompile) are not modelled: a `Backend`
  answers every load and takes every store.
-/
import Arbreth.Lib.Machine

namespace Arbreth

open Arbreth.Lib

/-- The storage of every account. An absent slot reads as zero. -/
abbrev Backend := Address → U256 → U256

/-- `StorageBackend::sload`. -/
def sload (st : Backend) (account : Address) (slot : U256) : U256 := st account slot

/-- `StorageBackend::sstore`. -/
def sstore (st : Backend) (account : Address) (slot value : U256) : Backend :=
  fun a s => if a = account ∧ s = slot then value else st a s

variable (st : Backend)

@[simp] theorem sload_sstore_self (a : Address) (s v : U256) : sload (sstore st a s v) a s = v := by
  simp [sload, sstore]

theorem sload_sstore_ne {a a' : Address} {s s' : U256} (v : U256) (h : s' ≠ s) :
    sload (sstore st a s v) a' s' = sload st a' s' := by
  simp [sload, sstore, h]

theorem sload_sstore_account_ne {a a' : Address} (s v s' : U256) (h : a' ≠ a) :
    sload (sstore st a s v) a' s' = sload st a' s' := by
  simp [sload, sstore, h]

/-- The account that holds the ArbOS state. -/
def arbosStateAddress : Address := 0xA4B05FFFFFFFFFFFFFFFFFFFFFFFFFFFFFFFFFFF#160

section Slots

variable (keccak256 : Bytes → B256)

/-- The 32 key bytes of a `u64` offset. -/
def offsetBytes (offset : Nat) : Bytes := beBytes 32 (wrap64 offset)

/-- `storage_key_map`: hash the key and 31 offset bytes, keep the last offset byte. -/
def storageKeyMap (storageKey : Bytes) (offset : Nat) : U256 :=
  let keyBytes := offsetBytes offset
  let h := keccak256 (storageKey ++ keyBytes.take 31)
  wordOfBytes ((wordBytes h).take 31 ++ keyBytes.drop 31)

/-- A zero base key stands for the root space, whose key is empty. -/
def keyBytesOf (baseKey : B256) : Bytes :=
  if baseKey = 0 then [] else wordBytes baseKey

/-- `derive_sub_key`: the key of a child subspace. -/
def deriveSubKey (parentKey : B256) (subKey : Bytes) : B256 :=
  keccak256 (keyBytesOf parentKey ++ subKey)

theorem offsetBytes_drop (offset : Nat) :
    (offsetBytes offset).drop 31 = [UInt8.ofNat (wrap64 offset % 256)] := by
  rw [offsetBytes, beBytes_succ, List.drop_left' (by simp)]

/-- Slots with different low bytes differ, in one subspace or in two. -/
theorem storageKeyMap_ne {key key' : Bytes} {a b : Nat} (h : a % 256 ≠ b % 256) :
    storageKeyMap keccak256 key a ≠ storageKeyMap keccak256 key' b := by
  intro heq
  have hlen : ∀ k o, ((wordBytes (keccak256 (k ++ (offsetBytes o).take 31))).take 31 ++
      (offsetBytes o).drop 31).length = 32 := fun k o => by
    rw [offsetBytes_drop]
    simp
  have hbytes := congrArg wordBytes heq
  simp only [storageKeyMap] at hbytes
  rw [wordBytes_wordOfBytes (hlen key a), wordBytes_wordOfBytes (hlen key' b)] at hbytes
  have hlast := (List.append_inj hbytes (by simp)).2
  rw [offsetBytes_drop, offsetBytes_drop] at hlast
  have hnat := congrArg UInt8.toNat (List.cons.inj hlast).1
  rw [UInt8.toNat_ofNat', UInt8.toNat_ofNat'] at hnat
  unfold wrap64 at hnat
  omega

end Slots

/-! ## Handles -/

/-- A subspace handle: its key and the account it lives in. -/
structure Storage where
  baseKey : B256
  account : Address

/-- `Storage::new_slot`. -/
def Storage.newSlot (keccak256 : Bytes → B256) (sto : Storage) (offset : Nat) : U256 :=
  storageKeyMap keccak256 (keyBytesOf sto.baseKey) offset

/-- `Storage::open_sub_storage`. -/
def Storage.openSubStorage (keccak256 : Bytes → B256) (sto : Storage) (subKey : Bytes) : Storage :=
  ⟨deriveSubKey keccak256 sto.baseKey subKey, sto.account⟩

/-- The root of the ArbOS state. -/
def Storage.root : Storage := ⟨0, arbosStateAddress⟩

/-- `StorageBackedUint64`: a `u64` field, kept by its slot. -/
structure StorageBackedUint64 where
  slot : U256

def StorageBackedUint64.new (keccak256 : Bytes → B256) (baseKey : B256) (offset : Nat) :
    StorageBackedUint64 :=
  ⟨storageKeyMap keccak256 (keyBytesOf baseKey) offset⟩

/-- `get`: a value that does not fit 64 bits reads as zero. -/
def StorageBackedUint64.get (f : StorageBackedUint64) (st : Backend) : Nat :=
  let value := (sload st arbosStateAddress f.slot).toNat
  if value < 2 ^ 64 then value else 0

def StorageBackedUint64.set (f : StorageBackedUint64) (st : Backend) (value : Nat) : Backend :=
  sstore st arbosStateAddress f.slot (BitVec.ofNat 256 value)

end Arbreth
