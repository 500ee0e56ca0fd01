/-
  Typed fields of the ArbOS storage (arb-storage, backed_types.rs and bytes_storage.rs).

  An address lies in the low 20 bytes of its word; an optional one has the word 1 << 255 for
  none. A byte string has its length at offset 0 and its 32-byte chunks from offset 1 on. A
  trailing partial chunk is right-aligned in its word, so that every chunk's word is the
  number its bytes spell (`chunkWord`).

  The loops over chunks run once for each full chunk and are written by that count.
-/
import Arbreth.Storage.Layout

namespace Arbreth

open Arbreth.Lib

/-! ## Words -/

/-- `StorageBackedAddress`. -/
structure StorageBackedAddress where
  slot : U256

namespace StorageBackedAddress

def new (keccak256 : Bytes → B256) (baseKey : B256) (offset : Nat) : StorageBackedAddress :=
  ⟨storageKeyMap keccak256 (keyBytesOf baseKey) offset⟩

/-- `decode_address` takes the low 20 bytes and does not fail. -/
def get (f : StorageBackedAddress) (st : Backend) : Address :=
  (sload st arbosStateAddress f.slot).setWidth 160

def set (f : StorageBackedAddress) (st : Backend) (value : Address) : Backend :=
  sstore st arbosStateAddress f.slot (value.setWidth 256)

end StorageBackedAddress

/-- `nil_address_representation`. -/
def nilAddressRepresentation : U256 := 1#256 <<< 255

/-- `StorageBackedAddressOrNil`. -/
structure StorageBackedAddressOrNil where
  slot : U256

namespace StorageBackedAddressOrNil

def new (keccak256 : Bytes → B256) (baseKey : B256) (offset : Nat) : StorageBackedAddressOrNil :=
  ⟨storageKeyMap keccak256 (keyBytesOf baseKey) offset⟩

def get (f : StorageBackedAddressOrNil) (st : Backend) : Option Address :=
  let value := sload st arbosStateAddress f.slot
  if value = nilAddressRepresentation then none else some (value.setWidth 160)

def set (f : StorageBackedAddressOrNil) (st : Backend) (value : Option Address) : Backend :=
  sstore st arbosStateAddress f.slot
    (match value with
    | none => nilAddressRepresentation
    | some addr => addr.setWidth 256)

/-- The low 20 bytes of the word for none are zero. -/
theorem getD_get (f : StorageBackedAddressOrNil) (st : Backend) :
    (f.get st).getD 0 = (sload st arbosStateAddress f.slot).setWidth 160 := by
  dsimp only [get]
  split
  · next h => rw [h]; decide
  · rfl

end StorageBackedAddressOrNil

/-- `StorageBackedBigUint`. -/
structure StorageBackedBigUint where
  slot : U256

namespace StorageBackedBigUint

def new (keccak256 : Bytes → B256) (baseKey : B256) (offset : Nat) : StorageBackedBigUint :=
  ⟨storageKeyMap keccak256 (keyBytesOf baseKey) offset⟩

def get (f : StorageBackedBigUint) (st : Backend) : U256 := sload st arbosStateAddress f.slot

def set (f : StorageBackedBigUint) (st : Backend) (value : U256) : Backend :=
  sstore st arbosStateAddress f.slot value

end StorageBackedBigUint

/-! ## Byte strings -/

/-- `StorageBackedBytes`. -/
structure StorageBackedBytes where
  baseKey : B256
  account : Address

namespace StorageBackedBytes

section Hash

variable (keccak256 : Bytes → B256)

def new (baseKey : B256) : StorageBackedBytes := ⟨baseKey, arbosStateAddress⟩

def slot (b : StorageBackedBytes) (offset : Nat) : U256 :=
  storageKeyMap keccak256 (keyBytesOf b.baseKey) offset

def loadWord (b : StorageBackedBytes) (st : Backend) (offset : Nat) : U256 :=
  sload st b.account (b.slot keccak256 offset)

def storeWord (b : StorageBackedBytes) (st : Backend) (offset : Nat) (word : U256) : Backend :=
  sstore st b.account (b.slot keccak256 offset) word

/-- `load_u64`: a value that does not fit reads as zero. -/
def loadU64 (b : StorageBackedBytes) (st : Backend) (offset : Nat) : Nat :=
  let value := (b.loadWord keccak256 st offset).toNat
  if value < 2 ^ 64 then value else 0

def storeU64 (b : StorageBackedBytes) (st : Backend) (offset value : Nat) : Backend :=
  b.storeWord keccak256 st offset (BitVec.ofNat 256 value)

/-- `size`. -/
def size (b : StorageBackedBytes) (st : Backend) : Nat := b.loadU64 keccak256 st 0

/-- The first loop of `get`, for a number of full chunks. -/
def readChunks (b : StorageBackedBytes) (st : Backend) : Nat → Nat → Bytes
  | 0, _ => []
  | n + 1, offset =>
    wordBytes (b.loadWord keccak256 st offset) ++ b.readChunks st n (offset + 1)

def get (b : StorageBackedBytes) (st : Backend) : Bytes :=
  let bytes := b.loadU64 keccak256 st 0
  let full := bytes / 32
  b.readChunks keccak256 st full 1 ++
    if 0 < bytes % 32 then
      (wordBytes (b.loadWord keccak256 st (1 + full))).drop (32 - bytes % 32)
    else []

/-- The loop of `clear`, for a number of chunks. -/
def clearChunks (b : StorageBackedBytes) : Nat → Backend → Nat → Backend
  | 0, st, _ => st
  | n + 1, st, offset => b.clearChunks n (b.storeWord keccak256 st offset 0) (offset + 1)

def clear (b : StorageBackedBytes) (st : Backend) : Backend :=
  let chunks := (b.loadU64 keccak256 st 0 + 31) / 32
  b.storeU64 keccak256 (b.clearChunks keccak256 chunks st 1) 0 0

/-- The loop of `set` for a number of full chunks, and what it leaves after them. -/
def storeChunks (b : StorageBackedBytes) : Nat → Backend → Bytes → Nat → Backend
  | 0, st, remaining, offset =>
    if remaining = [] then st
    else b.storeWord keccak256 st offset
      (wordOfBytes (List.replicate (32 - remaining.length) 0 ++ remaining))
  | n + 1, st, remaining, offset =>
    b.storeChunks n (b.storeWord keccak256 st offset (wordOfBytes (remaining.take 32)))
      (remaining.drop 32) (offset + 1)

def set (b : StorageBackedBytes) (st : Backend) (data : Bytes) : Backend :=
  b.storeChunks keccak256 (data.length / 32)
    (b.storeU64 keccak256 (b.clear keccak256 st) 0 data.length) data 1

end Hash

/-! ## What `set` stores -/

/-- The number of words a byte string takes. -/
def wordCount (data : Bytes) : Nat := (data.length + 31) / 32

/-- The word of a chunk: the number its bytes spell. -/
def chunkWord (data : Bytes) (i : Nat) : U256 := BitVec.ofNat 256 (beNat ((data.drop (32 * i)).take 32))

theorem chunkWord_succ (data : Bytes) (i : Nat) :
    chunkWord (data.drop 32) i = chunkWord data (i + 1) := by
  rw [chunkWord, chunkWord, List.drop_drop, show 32 + 32 * i = 32 * (i + 1) by omega]

theorem wordOfBytes_zeros (k : Nat) (bs : Bytes) :
    wordOfBytes (List.replicate k 0 ++ bs) = BitVec.ofNat 256 (beNat bs) := by
  rw [wordOfBytes, beNat_append, ← beBytes_zero, beNat_beBytes]
  simp

variable {st : Backend} {data : Bytes} {remaining : Bytes} {i : Nat}

theorem wordCount_drop (h : 32 ≤ data.length) : wordCount data = wordCount (data.drop 32) + 1 := by
  rw [wordCount, wordCount, List.length_drop]
  omega

variable {keccak256 : Bytes → B256} {b : StorageBackedBytes}

theorem sload_storeChunks_of_ne (n : Nat) {offset : Nat} {s : U256}
    (hn : n = remaining.length / 32)
    (hs : ∀ i, i < wordCount remaining → s ≠ b.slot keccak256 (offset + i)) (a : Address) :
    sload (b.storeChunks keccak256 n st remaining offset) a s = sload st a s := by
  induction n generalizing st remaining offset with
  | zero =>
    rw [storeChunks]
    split
    · rfl
    · next hne =>
      have hpos := List.length_pos_of_ne_nil hne
      exact sload_sstore_ne _ _ (hs 0 (by rw [wordCount]; omega))
  | succ n ih =>
    have hlen : 32 ≤ remaining.length := by omega
    have hcount := wordCount_drop hlen
    rw [storeChunks, ih (by rw [List.length_drop]; omega)]
    · exact sload_sstore_ne _ _ (hs 0 (by omega))
    · intro i hi
      have h := hs (i + 1) (by omega)
      rwa [show offset + 1 + i = offset + (i + 1) by omega]

/-- After the loop every chunk's slot holds its word, where the chunks have slots of their
    own. -/
theorem sload_storeChunks (n : Nat) {offset : Nat} (hn : n = remaining.length / 32)
    (hinj : ∀ i j, i < j → j < wordCount remaining →
      b.slot keccak256 (offset + i) ≠ b.slot keccak256 (offset + j)) (hi : i < wordCount remaining) :
    sload (b.storeChunks keccak256 n st remaining offset) b.account (b.slot keccak256 (offset + i)) =
      chunkWord remaining i := by
  induction n generalizing st remaining offset i with
  | zero =>
    have hlen : remaining.length < 32 := by omega
    have hone : wordCount remaining ≤ 1 := by rw [wordCount]; omega
    have hzero : i = 0 := by omega
    have hne : remaining ≠ [] := by
      rintro rfl
      simp [wordCount] at hi
    subst hzero
    rw [storeChunks, if_neg hne, storeWord, Nat.add_zero, sload_sstore_self, wordOfBytes_zeros,
      chunkWord, Nat.mul_zero, List.drop_zero, List.take_of_length_le (by omega)]
  | succ n ih =>
    have hlen : 32 ≤ remaining.length := by omega
    have hcount := wordCount_drop hlen
    have hn' : n = (remaining.drop 32).length / 32 := by rw [List.length_drop]; omega
    rw [storeChunks]
    cases i with
    | zero =>
      rw [sload_storeChunks_of_ne n hn' (fun j hj => ?_), storeWord, Nat.add_zero, sload_sstore_self]
      · rw [chunkWord, Nat.mul_zero, List.drop_zero, wordOfBytes]
      · rw [show offset + 1 + j = offset + (j + 1) by omega]
        exact hinj 0 (j + 1) (by omega) (by omega)
    | succ i =>
      rw [show offset + (i + 1) = offset + 1 + i by omega, ih hn' ?_ (by omega), chunkWord_succ]
      intro j k hjk hk
      rw [show offset + 1 + j = offset + (j + 1) by omega,
        show offset + 1 + k = offset + (k + 1) by omega]
      exact hinj (j + 1) (k + 1) (by omega) (by omega)

/-- The slots of a byte string hold this one. -/
structure Holds (keccak256 : Bytes → B256) (b : StorageBackedBytes) (st : Backend) (data : Bytes) :
    Prop where
  size : b.loadU64 keccak256 st 0 = data.length
  chunks : ∀ i, i < wordCount data → b.loadWord keccak256 st (1 + i) = chunkWord data i

/-- The slots hold a string as long as their words stay. -/
theorem Holds.of_loadWord_eq {st st' : Backend} (h : Holds keccak256 b st data)
    (heq : ∀ i, i ≤ wordCount data → b.loadWord keccak256 st' i = b.loadWord keccak256 st i) :
    Holds keccak256 b st' data where
  size := by
    have hsize := h.size
    rwa [loadU64, ← heq 0 (Nat.zero_le _)] at hsize
  chunks i hi := by rw [heq (1 + i) (by omega), h.chunks i hi]

/-- `set` stores its argument, whatever was there before. -/
theorem holds_set (st : Backend) (hlen : data.length < 2 ^ 64)
    (hinj : ∀ i j, i < j → j ≤ wordCount data → b.slot keccak256 i ≠ b.slot keccak256 j) :
    Holds keccak256 b (b.set keccak256 st data) data where
  size := by
    have hmod : data.length % 2 ^ 256 = data.length := Nat.mod_eq_of_lt (by omega)
    have hword : b.loadWord keccak256 (b.set keccak256 st data) 0 = BitVec.ofNat 256 data.length := by
      rw [loadWord, set, sload_storeChunks_of_ne _ rfl, storeU64, storeWord, sload_sstore_self]
      intro i hi
      exact hinj 0 (1 + i) (by omega) (by omega)
    simp only [loadU64, hword, BitVec.toNat_ofNat, hmod, if_pos hlen]
  chunks i hi := by
    rw [loadWord, set]
    exact sload_storeChunks _ rfl (fun j k hjk hk => hinj (1 + j) (1 + k) (by omega) (by omega)) hi

/-! ## Reading back -/

theorem wordBytes_number {bs : Bytes} (h : bs.length ≤ 32) :
    wordBytes (BitVec.ofNat 256 (beNat bs)) = List.replicate (32 - bs.length) 0 ++ bs := by
  have hlt := beNat_lt bs
  have hle : 256 ^ bs.length ≤ 256 ^ 32 := Nat.pow_le_pow_right (by decide) h
  have hmod : beNat bs % 2 ^ 256 = beNat bs := Nat.mod_eq_of_lt (by
    rw [show (2 : Nat) ^ 256 = 256 ^ 32 by decide]
    omega)
  have hsum : 32 - bs.length + bs.length = 32 := by omega
  have hpad := beBytes_of_lt hlt (32 - bs.length)
  rw [hsum, beBytes_beNat] at hpad
  rw [wordBytes, BitVec.toNat_ofNat, hmod, hpad]

theorem wordBytes_chunkWord (h : i < data.length / 32) :
    wordBytes (chunkWord data i) = (data.drop (32 * i)).take 32 := by
  have hlen : ((data.drop (32 * i)).take 32).length = 32 := by
    rw [List.length_take, List.length_drop]
    omega
  rw [chunkWord, wordBytes_number (by omega), hlen]
  rfl

/-- The bytes after the full chunks. -/
def rest (data : Bytes) : Bytes := data.drop (32 * (data.length / 32))

theorem length_rest (data : Bytes) : (rest data).length = data.length % 32 := by
  rw [rest, List.length_drop]
  omega

/-- The trailing chunk is right-aligned. -/
theorem wordBytes_chunkWord_rest (data : Bytes) :
    wordBytes (chunkWord data (data.length / 32)) =
      List.replicate (32 - data.length % 32) 0 ++ rest data := by
  have hlen := length_rest data
  rw [chunkWord, ← rest, List.take_of_length_le (by omega), wordBytes_number (by omega), hlen]

theorem readChunks_holds (h : Holds keccak256 b st data) (n : Nat) (hi : i + n = data.length / 32) :
    b.readChunks keccak256 st n (1 + i) = (data.drop (32 * i)).take (32 * n) := by
  induction n generalizing i with
  | zero => rw [readChunks, Nat.mul_zero, List.take_zero]
  | succ n ih =>
    have hchunk : b.loadWord keccak256 st (1 + i) = chunkWord data i :=
      h.chunks i (by rw [wordCount]; omega)
    rw [readChunks, hchunk, wordBytes_chunkWord (by omega), Nat.add_assoc, ih (by omega),
      show 32 * (n + 1) = 32 + 32 * n by omega, List.take_add, List.drop_drop,
      show 32 * i + 32 = 32 * (i + 1) by omega]

theorem get_of_holds (h : Holds keccak256 b st data) : b.get keccak256 st = data := by
  have hfull := readChunks_holds h (data.length / 32) (i := 0) (by omega)
  rw [Nat.add_zero, Nat.mul_zero, List.drop_zero] at hfull
  have hsplit : data.take (32 * (data.length / 32)) ++ rest data = data := List.take_append_drop _ _
  dsimp only [get]
  rw [h.size, hfull]
  split
  · next hpos =>
    have hword := h.chunks (data.length / 32) (by rw [wordCount]; omega)
    rw [hword, wordBytes_chunkWord_rest, List.drop_left' (by rw [List.length_replicate]), hsplit]
  · next hzero =>
    have hnil : rest data = [] := List.eq_nil_of_length_eq_zero (by rw [length_rest]; omega)
    rw [← hnil, hsplit]

end StorageBackedBytes

end Arbreth
