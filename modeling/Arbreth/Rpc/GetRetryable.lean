/-
  `NodeInterfaceDebug.getRetryable` (arb-rpc, api.rs) against the ticket's own accessors.

  The RPC reads the slots of a ticket by itself, with the key functions of layout.rs. Its
  numbers and addresses are those the accessors read, in every state. Its call data is not:
  it takes the first bytes of the last word, where the storage layer keeps a partial chunk in
  the last ones. The result is right exactly when the bytes of that chunk are all zero.
-/
import Arbreth.Retryable.Stored

namespace Arbreth.Rpc

open Arbreth.Lib Arbreth.Retryable StorageBackedBytes

/-- `EthApiError`, as far as it is returned here. -/
inductive EthApiError where
  | invalidParams (text : String)
  deriving DecidableEq

/-- The tuple `(timeout, from, to, value, beneficiary, tries, data)`. -/
structure RetryableRecord where
  timeout : Nat
  fromAddr : Address
  toAddr : Address
  value : U256
  beneficiary : Address
  tries : Nat
  data : Bytes

/-- An address in its 32-byte word. -/
def addressWord (a : Address) : Bytes := List.replicate 12 0 ++ addressBytes a

/-- The seven words before the data; the last is the offset of the data. -/
def RetryableRecord.head (r : RetryableRecord) : Bytes :=
  wordBytes (BitVec.ofNat 256 r.timeout) ++ addressWord r.fromAddr ++ addressWord r.toAddr ++
    wordBytes r.value ++ addressWord r.beneficiary ++ wordBytes (BitVec.ofNat 256 r.tries) ++
    wordBytes (7 * 32)

/-- The ABI encoding of the tuple: the head, and the length and the padded bytes of the
    data. -/
def RetryableRecord.abiEncode (r : RetryableRecord) : Bytes :=
  r.head ++ (wordBytes (BitVec.ofNat 256 r.data.length) ++ (r.data ++
    List.replicate ((r.data.length + 31) / 32 * 32 - r.data.length) 0))

/-- The digits of `{:x}`. -/
def hexDigits (bs : Bytes) : String :=
  String.ofList (bs.flatMap fun b => [Nat.digitChar (b.toNat / 16), Nat.digitChar (b.toNat % 16)])

section Hash

variable (keccak256 : Bytes → B256)

/-- `derive_subspace_key`, which takes a zero key as it is. -/
def deriveSubspaceKey (parentKey subKey : Bytes) : B256 := keccak256 (parentKey ++ subKey)

/-- `map_slot`, the same function as `storage_key_map`. -/
def mapSlot (storageKey : Bytes) (offset : Nat) : U256 := storageKeyMap keccak256 storageKey offset

/-- A word as a `u64`, zero where it does not fit. -/
def asU64 (word : U256) : Nat := if word.toNat < 2 ^ 64 then word.toNat else 0

/-- The data: whole words from offset 1 on, truncated to the size. -/
def readData (st : Backend) (cdKey : B256) : Bytes :=
  let load := fun slot => sload st arbosStateAddress slot
  let size := asU64 (load (mapSlot keccak256 (wordBytes cdKey) 0))
  let chunks := (size + 31) / 32
  ((List.range chunks).flatMap fun i =>
    wordBytes (load (mapSlot keccak256 (wordBytes cdKey) (1 + i)))).take size

/-- `get_retryable_abi` on the state of a block. -/
def getRetryableAbi (st : Backend) (input : Bytes) : Except EthApiError Bytes :=
  if input.length < 4 + 32 then
    .error (.invalidParams "getRetryable: expected bytes32 ticket")
  else
    let ticket := wordOfBytes ((input.drop 4).take 32)
    let load := fun slot => sload st arbosStateAddress slot
    let retryablesKey := deriveSubspaceKey keccak256 [] [2]
    let rKey := deriveSubspaceKey keccak256 (wordBytes retryablesKey) (wordBytes ticket)
    let timeout := asU64 (load (mapSlot keccak256 (wordBytes rKey) 5))
    if timeout = 0 then
      .error (.invalidParams ("no retryable with id 0x" ++ hexDigits (wordBytes ticket)))
    else
      let cdKey := deriveSubspaceKey keccak256 (wordBytes rKey) [1]
      .ok (RetryableRecord.abiEncode
        { timeout := timeout
          fromAddr := (load (mapSlot keccak256 (wordBytes rKey) 1)).setWidth 160
          -- the low bytes of the word for none are zero
          toAddr := (load (mapSlot keccak256 (wordBytes rKey) 2)).setWidth 160
          value := load (mapSlot keccak256 (wordBytes rKey) 3)
          beneficiary := (load (mapSlot keccak256 (wordBytes rKey) 4)).setWidth 160
          tries := asU64 (load (mapSlot keccak256 (wordBytes rKey) 0))
          data := readData keccak256 st cdKey })

/-- The same tuple by the accessors of `Retryable`. -/
def storedRecord (st : Backend) (id : B256) : RetryableRecord :=
  let ret := internalOpen keccak256 id
  { timeout := ret.timeout.get st
    fromAddr := ret.fromAddr.get st
    toAddr := (ret.toAddr.get st).getD 0
    value := ret.callvalue.get st
    beneficiary := ret.beneficiary.get st
    tries := ret.numTries.get st
    data := ret.calldata.get keccak256 st }

/-- The RPC returns what the accessors read, and the data is the call data of the ticket. -/
def ReturnsStored (st : Backend) (id : B256) (input calldata : Bytes) : Prop :=
  getRetryableAbi keccak256 st input = .ok (storedRecord keccak256 st id).abiEncode ∧
    (storedRecord keccak256 st id).data = calldata

instance (st : Backend) (id : B256) (input calldata : Bytes) :
    Decidable (ReturnsStored keccak256 st id input calldata) := by
  unfold ReturnsStored
  infer_instance

end Hash

/-! ## The two key functions -/

section Keys

variable {keccak256 : Bytes → B256} {id : B256}

/-- The keys of a ticket are not zero. -/
structure KeysOk (keccak256 : Bytes → B256) (id : B256) : Prop where
  retryables : Path.retryables.baseKey keccak256 ≠ 0
  ticket : (Subspace.retryable id).path.baseKey keccak256 ≠ 0
  calldata : (Subspace.calldata id).path.baseKey keccak256 ≠ 0

theorem KeysOk.of_separates {ls : List Location} (hsep : Separates keccak256 ls) {n : Nat}
    (hl : calldataLocation id n ∈ ls) : KeysOk keccak256 id := by
  have hkeys : ∀ k ∈ (Subspace.calldata id).path.keys keccak256, k ≠ 0 := fun k hk =>
    hsep.keys_ne_zero k (List.mem_flatMap.mpr ⟨_, hl, hk⟩)
  have hpath : (Subspace.calldata id).path.keys keccak256 =
      [(Subspace.calldata id).path.baseKey keccak256, (Subspace.retryable id).path.baseKey keccak256,
        Path.retryables.baseKey keccak256] := rfl
  rw [hpath] at hkeys
  exact ⟨hkeys _ (by simp), hkeys _ (by simp), hkeys _ (by simp)⟩

theorem deriveSubspaceKey_eq {k : B256} (hk : k ≠ 0) (subKey : Bytes) :
    deriveSubspaceKey keccak256 (wordBytes k) subKey = deriveSubKey keccak256 k subKey := by
  rw [deriveSubspaceKey, deriveSubKey, keyBytesOf, if_neg hk]

theorem mapSlot_eq {k : B256} (hk : k ≠ 0) (offset : Nat) :
    mapSlot keccak256 (wordBytes k) offset = storageKeyMap keccak256 (keyBytesOf k) offset := by
  rw [mapSlot, keyBytesOf, if_neg hk]

variable (hkeys : KeysOk keccak256 id)

include hkeys

theorem rKey_eq : deriveSubspaceKey keccak256 (wordBytes (deriveSubspaceKey keccak256 [] [2]))
    (wordBytes id) = (Subspace.retryable id).path.baseKey keccak256 :=
  deriveSubspaceKey_eq hkeys.retryables (wordBytes id)

theorem cdKey_eq : deriveSubspaceKey keccak256
    (wordBytes ((Subspace.retryable id).path.baseKey keccak256)) [1] =
      (Subspace.calldata id).path.baseKey keccak256 :=
  deriveSubspaceKey_eq hkeys.ticket [1]

/-- In every state with the ticket, the RPC returns what the accessors read, but for the
    data. -/
theorem getRetryableAbi_eq (st : Backend) {selector extra : Bytes} (hsel : selector.length = 4)
    (hlive : (internalOpen keccak256 id).timeout.get st ≠ 0) :
    getRetryableAbi keccak256 st (selector ++ wordBytes id ++ extra) =
      .ok (RetryableRecord.abiEncode { storedRecord keccak256 st id with
        data := readData keccak256 st ((Subspace.calldata id).path.baseKey keccak256) }) := by
  have hticket : wordOfBytes (((selector ++ wordBytes id ++ extra).drop 4).take 32) = id := by
    rw [List.append_assoc, List.drop_left' hsel, List.take_left' (wordBytes_length id)]
    apply wordBytes_inj
    rw [wordBytes_wordOfBytes (wordBytes_length id)]
  have hlength : ¬ (selector ++ wordBytes id ++ extra).length < 4 + 32 := by
    simp only [List.length_append, wordBytes_length]
    omega
  rw [getRetryableAbi, if_neg hlength]
  dsimp only
  rw [hticket, rKey_eq hkeys, cdKey_eq hkeys]
  simp only [mapSlot_eq hkeys.ticket]
  refine (if_neg hlive).trans ?_
  dsimp only [storedRecord]
  rw [StorageBackedAddressOrNil.getD_get]
  rfl

end Keys

/-! ## The data -/

/-- Zeros moved in from the left leave a list alone only if it is zero. -/
theorem take_zeros_append {k : Nat} (hk : 0 < k) (xs : Bytes) :
    (List.replicate k 0 ++ xs).take xs.length = xs ↔ ∀ x ∈ xs, x = 0 := by
  constructor
  · intro h
    have hat : ∀ i, i < xs.length → xs[i]? = some 0 := by
      intro i
      induction i using Nat.strong_induction_on with
      | _ i ih =>
        intro hi
        rw [← h, List.getElem?_take_of_lt hi]
        by_cases hik : i < k
        · rw [List.getElem?_append_left (by simpa using hik), List.getElem?_replicate, if_pos hik]
        · rw [List.getElem?_append_right (by simpa using hik), List.length_replicate]
          exact ih (i - k) (by omega) (by omega)
    intro x hx
    obtain ⟨i, hi, rfl⟩ := List.getElem_of_mem hx
    have hget := hat i hi
    rw [List.getElem?_eq_getElem hi] at hget
    exact Option.some.inj hget
  · intro h
    have hxs : xs = List.replicate xs.length 0 := List.eq_replicate_of_mem h
    generalize xs.length = n at hxs ⊢
    subst hxs
    rw [List.replicate_append_replicate, List.take_replicate, Nat.min_eq_left (by omega)]

namespace RetryableRecord

/-- Records that differ in data of one length have different encodings. -/
theorem data_eq_of_abiEncode {r : RetryableRecord} {d : Bytes} (hlen : d.length = r.data.length)
    (h : RetryableRecord.abiEncode { r with data := d } = r.abiEncode) : d = r.data := by
  have hhead : RetryableRecord.head { r with data := d } = r.head := rfl
  rw [abiEncode, abiEncode, hhead] at h
  dsimp only at h
  rw [hlen] at h
  have htail := List.append_cancel_left (List.append_cancel_left h)
  exact (List.append_inj htail hlen).1

end RetryableRecord

open StorageBackedBytes in
theorem readChunks_eq_flatMap {keccak256 : Bytes → B256} (b : StorageBackedBytes) (st : Backend)
    (n offset : Nat) : b.readChunks keccak256 st n offset =
      (List.range n).flatMap fun i => wordBytes (b.loadWord keccak256 st (offset + i)) := by
  induction n generalizing offset with
  | zero => rfl
  | succ n ih =>
    rw [readChunks, ih, List.range_succ_eq_map, List.flatMap_cons, List.flatMap_map]
    simp only [Nat.add_zero, Nat.succ_eq_add_one, Nat.add_assoc, Nat.add_comm 1]

open StorageBackedBytes in
/-- What the RPC makes of stored call data: the full chunks, and the first bytes of the word
    of the trailing one. -/
theorem readData_of_holds {keccak256 : Bytes → B256} {id : B256} (hkeys : KeysOk keccak256 id)
    {st : Backend} {data : Bytes}
    (h : (internalOpen keccak256 id).calldata.Holds keccak256 st data) :
    readData keccak256 st ((Subspace.calldata id).path.baseKey keccak256) =
      data.take (32 * (data.length / 32)) ++
        (List.replicate (32 - data.length % 32) 0 ++ rest data).take (rest data).length := by
  have hsize : asU64 (sload st arbosStateAddress (storageKeyMap keccak256
      (keyBytesOf ((Subspace.calldata id).path.baseKey keccak256)) 0)) = data.length := h.size
  have hfull := readChunks_holds h (data.length / 32) (i := 0) (by omega)
  rw [Nat.add_zero, Nat.mul_zero, List.drop_zero, readChunks_eq_flatMap] at hfull
  have hlen : (data.take (32 * (data.length / 32))).length = 32 * (data.length / 32) := by
    rw [List.length_take]; omega
  have hsplit : data.length = 32 * (data.length / 32) + (rest data).length := by
    rw [length_rest]; omega
  rw [readData]
  simp only [mapSlot_eq hkeys.calldata]
  rw [hsize]
  by_cases hpos : 0 < data.length % 32
  · have hword := h.chunks (data.length / 32) (by rw [wordCount]; omega)
    rw [show (data.length + 31) / 32 = data.length / 32 + 1 by omega, List.range_succ,
      List.flatMap_append, List.flatMap_singleton]
    refine (congrArg (List.take _) (congrArg₂ _ hfull (congrArg wordBytes hword))).trans ?_
    rw [wordBytes_chunkWord_rest, List.take_append, hlen,
      List.take_of_length_le (show (data.take _).length ≤ _ by omega),
      show data.length - 32 * (data.length / 32) = (rest data).length by omega]
  · have hnil : (rest data).length = 0 := by rw [length_rest]; omega
    rw [show (data.length + 31) / 32 = data.length / 32 by omega, hnil, List.take_zero,
      List.append_nil]
    refine (congrArg (List.take _) hfull).trans ?_
    rw [List.take_of_length_le (by omega)]

section Main

variable {keccak256 : Bytes → B256} {id : B256}

/-- On stored call data the RPC is right exactly when the trailing chunk is zero. -/
theorem returnsStored_iff_of_holds (hkeys : KeysOk keccak256 id) {st : Backend} {calldata : Bytes}
    (h : (internalOpen keccak256 id).calldata.Holds keccak256 st calldata)
    {selector extra : Bytes} (hsel : selector.length = 4)
    (hlive : (internalOpen keccak256 id).timeout.get st ≠ 0) :
    ReturnsStored keccak256 st id (selector ++ wordBytes id ++ extra) calldata ↔
      ∀ x ∈ rest calldata, x = 0 := by
  have hstored : (storedRecord keccak256 st id).data = calldata := get_of_holds h
  have hdata := readData_of_holds hkeys h
  have hlen := length_rest calldata
  have hsplit : calldata.take (32 * (calldata.length / 32)) ++ rest calldata =
      calldata := List.take_append_drop _ _
  rw [ReturnsStored, getRetryableAbi_eq hkeys st hsel hlive, Except.ok.injEq,
    ← take_zeros_append (show 0 < 32 - calldata.length % 32 by omega)]
  constructor
  · rintro ⟨heq, -⟩
    have hsame := RetryableRecord.data_eq_of_abiEncode (by
      rw [hstored, hdata, List.length_append, List.length_take, List.length_take,
        List.length_append, List.length_replicate]
      omega) heq
    rw [hdata, hstored] at hsame
    exact List.append_cancel_left (hsame.trans hsplit.symm)
  · intro heq
    refine ⟨?_, hstored⟩
    have hsame : readData keccak256 st ((Subspace.calldata id).path.baseKey keccak256) =
        (storedRecord keccak256 st id).data := by
      rw [hdata, heq, hsplit, hstored]
    rw [hsame]

/-- After the creation of a ticket and any later steps that leave it alive, `getRetryable`
    returns what the accessors read, and the original call data, exactly when the bytes of
    the trailing partial chunk are all zero. -/
theorem get_retryable_iff (st : Backend) (timeout : Nat) (fromAddr : Address)
    (toAddr : Option Address) (callvalue : U256) (beneficiary : Address) (calldata : Bytes)
    (steps : List LaterStep) (selector extra : Bytes) (hsel : selector.length = 4)
    (hlen : calldata.length < 2 ^ 63) (hsteps : ∀ s ∈ steps, s.Elsewhere id)
    (hsep : Separates keccak256 (calldataLocations id calldata ++ writtenAfter id
      ((nextPut keccak256).get
        (writeTicket keccak256 st id timeout fromAddr toAddr callvalue beneficiary calldata)) steps))
    (hlive : (internalOpen keccak256 id).timeout.get (steps.foldl (laterStep keccak256 id)
      (createRetryable keccak256 st id timeout fromAddr toAddr callvalue beneficiary calldata)) ≠ 0) :
    ReturnsStored keccak256 (steps.foldl (laterStep keccak256 id)
        (createRetryable keccak256 st id timeout fromAddr toAddr callvalue beneficiary calldata))
        id (selector ++ wordBytes id ++ extra) calldata ↔
      ∀ x ∈ rest calldata, x = 0 := by
  have hkeys : KeysOk keccak256 id := KeysOk.of_separates hsep
    (List.mem_append_left _ (mem_calldataLocations (Nat.zero_le _)))
  have hholds := holds_calldata hsep hsteps st (by omega) rfl
  exact returnsStored_iff_of_holds hkeys hholds hsel hlive

end Main

/-- One more try, and a write to the size of the chain owner set. -/
def sampleSteps : List LaterStep := [.incrementNumTries, .write ⟨.top 4, .offset 0⟩ 1]

theorem sampleSteps_elsewhere : ∀ s ∈ sampleSteps, s.Elsewhere 7 := by
  intro s hs
  simp only [sampleSteps, List.mem_cons, List.not_mem_nil, or_false] at hs
  rcases hs with rfl | rfl
  · trivial
  · exact ⟨⟨.addressSet .chainOwners, rfl⟩, by decide, by decide⟩

theorem sample_separates : Separates hornerHash
    (calldataLocations 7 (List.replicate 32 9) ++ writtenAfter 7 0 sampleSteps) := by
  have hkeys : ((calldataLocations 7 (List.replicate 32 9) ++ writtenAfter 7 0 sampleSteps).flatMap
      (fun l => l.path.keys hornerHash)).all (· != 0) = true := by decide +kernel
  exact ⟨by decide +kernel, fun k hk => bne_iff_ne.mp (List.all_eq_true.mp hkeys k hk)⟩

/-- Call data of one full word comes back. -/
theorem get_retryable_iff_full_word :
    ReturnsStored hornerHash (sampleSteps.foldl (laterStep hornerHash 7)
        (createRetryable hornerHash (fun _ _ => 0) 7 100 1 none 0 2 (List.replicate 32 9)))
        7 ([0, 0, 0, 0] ++ wordBytes 7 ++ []) (List.replicate 32 9) ↔
      ∀ x ∈ rest (List.replicate 32 9), x = 0 := by
  have hput : (nextPut hornerHash).get
      (writeTicket hornerHash (fun _ _ => 0) 7 100 1 none 0 2 (List.replicate 32 9)) = 0 := by
    decide +kernel
  refine get_retryable_iff (fun _ _ => 0) 100 1 none 0 2 (List.replicate 32 9) sampleSteps
    [0, 0, 0, 0] [] rfl (by decide) sampleSteps_elsewhere ?_ (by decide +kernel)
  rw [hput]
  exact sample_separates

/-- Call data of the one byte 1 comes back as the byte 0, although the ticket holds it. -/
theorem get_retryable_loses_byte :
    let st := createRetryable hornerHash (fun _ _ => 0) 7 100 1 none 0 2 [1]
    (storedRecord hornerHash st 7).data = [1] ∧
      getRetryableAbi hornerHash st ([0, 0, 0, 0] ++ wordBytes 7) =
        .ok (RetryableRecord.abiEncode { storedRecord hornerHash st 7 with data := [0] }) ∧
      ¬ ReturnsStored hornerHash st 7 ([0, 0, 0, 0] ++ wordBytes 7) [1] := by
  decide +kernel

end Arbreth.Rpc
