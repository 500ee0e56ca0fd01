/-
  The address table in ArbOS storage (arbos, address_table/mod.rs).

  Slot 0 holds the number of items, the slots from 1 on the addresses, and a subspace maps an
  address to its slot. As for the address set, the slots of the two spaces are apart, so that the
  table is modelled by its cells, with the words the source stores in them.

  What the table is for is a list without repetitions: `register` appends an address that is
  new, the index of an address is its place, and `compress` writes the place of a listed address
  and the address itself otherwise. `Represents` ties a table to its list, and every function is
  a function of the list (`lookup_eq`, `lookupIndex_eq`, `register_cases`). The RLP library is a
  parameter that reads back what it has written.
-/
import Arbreth.Lib.Machine
import Arbreth.Lib.Run

namespace Arbreth.Storage

open Arbreth.Lib Function

structure AddressTable where
  numItems : Nat
  backing : Nat → B256
  byAddress : B256 → B256

/-- `address_to_hash`. -/
def addressToHash (addr : Address) : B256 := addr.setWidth 256

/-- `uint_to_hash`. -/
def uintToHash (val : Nat) : B256 := BitVec.ofNat 256 val

theorem setWidth_addressToHash (a : Address) : (addressToHash a).setWidth 160 = a := by
  simp [addressToHash]

theorem addressToHash_inj {a b : Address} (h : addressToHash a = addressToHash b) : a = b := by
  have := congrArg (BitVec.setWidth 160) h
  rwa [setWidth_addressToHash, setWidth_addressToHash] at this

theorem toNat_uintToHash {n : Nat} (h : n < 2 ^ 64) : (uintToHash n).toNat = n := by
  rw [uintToHash, BitVec.toNat_ofNat]
  exact Nat.mod_eq_of_lt (by omega)

/-- `alloy_rlp::Header`. -/
structure Header where
  list : Bool
  payloadLength : Nat

/-- alloy_rlp, as far as the table uses it. A decoder gives back what it has not read. An index has
    at most eight bytes. -/
structure Rlp where
  encodeU64 : Nat → Bytes
  encodeBytes : Bytes → Bytes
  decodeHeader : Bytes → Option (Header × Bytes)
  decodeU64 : Bytes → Option (Nat × Bytes)
  header_nil : decodeHeader [] = none
  header_length : ∀ buf header rest, decodeHeader buf = some (header, rest) → rest.length ≤ buf.length
  header_bytes : ∀ payload rest, payload.length < 56 →
    decodeHeader (encodeBytes payload ++ rest) = some (⟨false, payload.length⟩, payload ++ rest)
  header_u64 : ∀ n rest, n < 2 ^ 64 → ∃ length ≤ 8, ∃ cursor,
    decodeHeader (encodeU64 n ++ rest) = some (⟨false, length⟩, cursor)
  decode_u64 : ∀ n rest, n < 2 ^ 64 → decodeU64 (encodeU64 n ++ rest) = some (n, rest)

theorem Rlp.ne_nil (rlp : Rlp) {buf : Bytes} {found : Header × Bytes}
    (h : rlp.decodeHeader buf = some found) : buf ≠ [] := by
  rintro rfl
  rw [rlp.header_nil] at h
  cases h

namespace AddressTable

/-- `initialize_address_table` over fresh storage. -/
def init : AddressTable := ⟨0, fun _ => 0, fun _ => 0⟩

/-- The three writes of a first registration. -/
def store (t : AddressTable) (addrHash : B256) (newNumItems : Nat) : AddressTable where
  numItems := newNumItems
  backing := update t.backing newNumItems addrHash
  byAddress := update t.byAddress addrHash (uintToHash newNumItems)

/-- `register`: the table after the call, the index and whether the address was known. The count
    of items is a `u64`; a call that would take it out of range does not return. -/
def register (t : AddressTable) (addr : Address) : Option (AddressTable × Nat × Bool) :=
  let addrHash := addressToHash addr
  let rev := t.byAddress addrHash
  if rev ≠ 0 then some (t, rev.toNat - 1, true)
  else
    let newNumItems := t.numItems + 1
    if newNumItems ≤ u64Max then some (t.store addrHash newNumItems, newNumItems - 1, false)
    else none

/-- `lookup`. -/
def lookup (t : AddressTable) (addr : Address) : Nat × Bool :=
  let res := (t.byAddress (addressToHash addr)).toNat
  if res = 0 then (0, false) else (res - 1, true)

/-- `address_exists`. -/
def addressExists (t : AddressTable) (addr : Address) : Bool := (t.lookup addr).2

/-- `size`. -/
def size (t : AddressTable) : Nat := t.numItems

/-- `lookup_index`. -/
def lookupIndex (t : AddressTable) (index : Nat) : Option Address :=
  if t.numItems ≤ index then none
  else some ((t.backing (index + 1)).setWidth 160)

/-- `compress`. -/
def compress (rlp : Rlp) (t : AddressTable) (addr : Address) : Bytes :=
  let (index, exists_) := t.lookup addr
  if exists_ then rlp.encodeU64 index else rlp.encodeBytes (addressBytes addr)

/-- `AddressTableError`, without the failures of the store. -/
inductive Error where
  | invalidEncoding
  | indexOutOfRange (index : Nat)
  deriving DecidableEq, Repr

/-- `decompress`: the address, the number of bytes read and whether they held the address. -/
def decompress (rlp : Rlp) (t : AddressTable) (buf : Bytes) :
    Except Error (Address × Nat × Bool) :=
  if buf = [] then .error .invalidEncoding
  else
    match rlp.decodeHeader buf with
    | none => .error .invalidEncoding
    | some (header, cursor) =>
      if header.list then .error .invalidEncoding
      else if header.payloadLength = 20 then
        if cursor.length < 20 then .error .invalidEncoding
        else
          .ok (BitVec.ofNat 160 (beNat (cursor.take 20)), buf.length - cursor.length + 20, true)
      else
        match rlp.decodeU64 buf with
        | none => .error .invalidEncoding
        | some (index, cursor) =>
          match t.lookupIndex index with
          | none => .error (.indexOutOfRange index)
          | some addr => .ok (addr, buf.length - cursor.length, false)

/-! ## The list of a table -/

/-- The cells hold the list `xs`: its entries in order, and for each its place counted from 1. -/
structure Represents (t : AddressTable) (xs : List Address) : Prop where
  nodup : xs.Nodup
  fits : xs.length ≤ u64Max
  numItems : t.numItems = xs.length
  backing : ∀ i (h : i < xs.length), t.backing (i + 1) = addressToHash xs[i]
  byAddress : ∀ a,
    t.byAddress (addressToHash a) = if a ∈ xs then uintToHash (xs.idxOf a + 1) else 0

/-- A list with an address appended if it is new. -/
def enlist (xs : List Address) (a : Address) : List Address := if a ∈ xs then xs else xs ++ [a]

theorem mem_enlist {xs : List Address} {a b : Address} : b ∈ enlist xs a ↔ b ∈ xs ∨ b = a := by
  unfold enlist
  split
  · next h => exact ⟨Or.inl, fun hb => hb.elim id (· ▸ h)⟩
  · rw [List.mem_append, List.mem_singleton]

theorem idxOf_enlist {xs : List Address} {b : Address} (hb : b ∈ xs) (a : Address) :
    (enlist xs a).idxOf b = xs.idxOf b := by
  unfold enlist
  split
  · rfl
  · exact List.idxOf_append_of_mem hb

theorem represents_init : init.Represents [] :=
  ⟨List.nodup_nil, Nat.zero_le _, rfl, fun i h => absurd h (Nat.not_lt_zero i),
    fun _ => (if_neg List.not_mem_nil).symm⟩

variable {t t' : AddressTable} {xs : List Address}

variable {addrs : List Address} {a : Address} {i : Nat}

theorem Represents.idxOf_lt (h : t.Represents xs) (ha : a ∈ xs) : xs.idxOf a + 1 < 2 ^ 64 := by
  have hidx := List.idxOf_lt_length_of_mem ha
  have hfits := h.fits
  unfold u64Max at hfits
  omega

theorem Represents.toNat_byAddress (h : t.Represents xs) (ha : a ∈ xs) :
    (t.byAddress (addressToHash a)).toNat = xs.idxOf a + 1 := by
  rw [h.byAddress, if_pos ha, toNat_uintToHash (h.idxOf_lt ha)]

theorem Represents.lookup_eq (h : t.Represents xs) (a : Address) :
    t.lookup a = if a ∈ xs then (xs.idxOf a, true) else (0, false) := by
  unfold lookup
  by_cases ha : a ∈ xs
  · rw [h.toNat_byAddress ha, if_pos ha]
    exact if_neg (Nat.succ_ne_zero _)
  · rw [h.byAddress, if_neg ha, if_neg ha]
    rfl

theorem Represents.lookup_eq_true (h : t.Represents xs) :
    t.lookup a = (i, true) ↔ a ∈ xs ∧ xs.idxOf a = i := by
  rw [h.lookup_eq]
  by_cases ha : a ∈ xs
  · rw [if_pos ha, Prod.mk.injEq]
    exact ⟨fun heq => ⟨ha, heq.1⟩, fun heq => ⟨heq.2, rfl⟩⟩
  · rw [if_neg ha]
    exact ⟨fun heq => (nomatch congrArg Prod.snd heq), fun heq => absurd heq.1 ha⟩

theorem Represents.addressExists_eq (h : t.Represents xs) (a : Address) :
    t.addressExists a = decide (a ∈ xs) := by
  rw [addressExists, h.lookup_eq]
  by_cases ha : a ∈ xs
  · rw [if_pos ha, decide_eq_true ha]
  · rw [if_neg ha, decide_eq_false ha]

theorem Represents.lookupIndex_eq (h : t.Represents xs) (i : Nat) : t.lookupIndex i = xs[i]? := by
  unfold lookupIndex
  rw [h.numItems]
  by_cases hi : xs.length ≤ i
  · rw [if_pos hi, List.getElem?_eq_none hi]
  · have hlt : i < xs.length := Nat.not_le.mp hi
    rw [if_neg hi, h.backing i hlt, List.getElem?_eq_getElem hlt, setWidth_addressToHash]

/-- The place of an entry and the entry at a place determine each other. -/
theorem Represents.lookupIndex_eq_some (h : t.Represents xs) :
    t.lookupIndex i = some a ↔ t.lookup a = (i, true) := by
  rw [h.lookupIndex_eq, h.lookup_eq_true]
  constructor
  · intro hget
    obtain ⟨hi, rfl⟩ := List.getElem?_eq_some_iff.mp hget
    exact ⟨List.getElem_mem hi, h.nodup.idxOf_getElem i hi⟩
  · rintro ⟨ha, rfl⟩
    exact List.getElem?_idxOf ha

/-! ## Registrations -/

theorem Represents.register_known (h : t.Represents xs) (ha : a ∈ xs) :
    t.register a = some (t, xs.idxOf a, true) := by
  have hrev : t.byAddress (addressToHash a) ≠ 0 := by
    intro hzero
    have := h.toNat_byAddress ha
    rw [hzero] at this
    cases this
  unfold register
  rw [if_pos hrev, h.toNat_byAddress ha, Nat.add_sub_cancel]

theorem Represents.register_unknown (h : t.Represents xs) (ha : a ∉ xs) :
    t.register a =
      if xs.length + 1 ≤ u64Max then
        some (t.store (addressToHash a) (xs.length + 1), xs.length, false)
      else none := by
  have hrev : ¬ t.byAddress (addressToHash a) ≠ 0 := by
    rw [h.byAddress, if_neg ha]
    exact not_not.mpr rfl
  unfold register
  rw [if_neg hrev, h.numItems]
  rfl

/-- The cells `register` writes for an address that is new hold the list with it appended. -/
theorem Represents.append (h : t.Represents xs) (ha : a ∉ xs) (hroom : xs.length + 1 ≤ u64Max) :
    (t.store (addressToHash a) (xs.length + 1)).Represents (xs ++ [a]) where
  nodup := List.nodup_append.mpr ⟨h.nodup, List.nodup_singleton a,
    fun _ hb _ hc heq => ha (List.mem_singleton.mp hc ▸ heq ▸ hb)⟩
  fits := by rwa [List.length_append]
  numItems := by
    rw [List.length_append]
    rfl
  backing := by
    intro i hi
    rw [List.length_append, List.length_singleton] at hi
    dsimp only [store]
    by_cases hlast : i = xs.length
    · subst hlast
      rw [update_self, List.getElem_concat_length rfl]
    · have hlt : i < xs.length := by omega
      rw [update_of_ne (by omega), h.backing i hlt, List.getElem_append_left hlt]
  byAddress := by
    intro b
    dsimp only [store]
    by_cases hb : b = a
    · subst hb
      have hmem : b ∈ xs ++ [b] := List.mem_append_right xs (List.mem_singleton_self b)
      rw [update_self, if_pos hmem, List.idxOf_append_of_notMem ha, List.idxOf_cons_self]
    · have hhash : addressToHash b ≠ addressToHash a := fun heq => hb (addressToHash_inj heq)
      rw [update_of_ne hhash, h.byAddress]
      by_cases hmem : b ∈ xs
      · rw [if_pos hmem, if_pos (List.mem_append_left _ hmem), List.idxOf_append_of_mem hmem]
      · have hnot : b ∉ xs ++ [a] := by
          rw [List.mem_append, List.mem_singleton]
          exact not_or.mpr ⟨hmem, hb⟩
        rw [if_neg hmem, if_neg hnot]

/-- What a call that returns has done. -/
theorem Represents.register_cases (h : t.Represents xs) {known : Bool}
    (hreg : t.register a = some (t', i, known)) :
    t'.Represents (enlist xs a) ∧ (enlist xs a).idxOf a = i := by
  unfold enlist
  by_cases ha : a ∈ xs
  · rw [h.register_known ha] at hreg
    cases hreg
    rw [if_pos ha]
    exact ⟨h, rfl⟩
  · rw [h.register_unknown ha] at hreg
    rw [if_neg ha]
    by_cases hroom : xs.length + 1 ≤ u64Max
    · rw [if_pos hroom] at hreg
      cases hreg
      refine ⟨h.append ha hroom, ?_⟩
      rw [List.idxOf_append_of_notMem ha, List.idxOf_cons_self, Nat.add_zero]
    · rw [if_neg hroom] at hreg
      cases hreg

/-- One `register` call, for what it leaves. -/
def registerStep (t : AddressTable) (a : Address) : Option AddressTable :=
  (t.register a).map Prod.fst

theorem Represents.step (h : t.Represents xs) (hstep : t.registerStep a = some t') :
    t'.Represents (enlist xs a) := by
  obtain ⟨⟨t₁, i, known⟩, hreg, rfl⟩ := Option.map_eq_some_iff.mp hstep
  exact (h.register_cases hreg).1

/-- After a run the table holds the list with the run's addresses enlisted in order. -/
theorem Represents.run (h : t.Represents xs) (hrun : exec registerStep t addrs = some t') :
    t'.Represents (addrs.foldl enlist xs) := by
  induction addrs generalizing t xs with
  | nil =>
    cases hrun
    exact h
  | cons a addrs ih =>
    obtain ⟨t₁, hstep, hrest⟩ := exec_cons.mp hrun
    exact ih (h.step hstep) hrest

theorem mem_foldl_enlist : a ∈ addrs.foldl enlist xs ↔ a ∈ xs ∨ a ∈ addrs := by
  induction addrs generalizing xs with
  | nil => simp
  | cons b addrs ih => rw [List.foldl_cons, ih, mem_enlist, List.mem_cons, or_assoc]

theorem idxOf_foldl_enlist (ha : a ∈ xs) (addrs : List Address) :
    (addrs.foldl enlist xs).idxOf a = xs.idxOf a := by
  induction addrs generalizing xs with
  | nil => rfl
  | cons b addrs ih => rw [List.foldl_cons, ih (mem_enlist.mpr (.inl ha)), idxOf_enlist ha]

theorem Represents.lookup_run {more : List Address} (h : t.Represents xs)
    (hmore : exec registerStep t more = some t') (hlookup : t.lookup a = (i, true)) :
    t'.lookup a = (i, true) := by
  obtain ⟨ha, rfl⟩ := h.lookup_eq_true.mp hlookup
  exact (h.run hmore).lookup_eq_true.mpr
    ⟨mem_foldl_enlist.mpr (.inl ha), idxOf_foldl_enlist ha more⟩

theorem Represents.exists_run (h : t.Represents xs) (addrs : List Address)
    (hroom : xs.length + addrs.length ≤ u64Max) : ∃ t', exec registerStep t addrs = some t' := by
  induction addrs generalizing t xs with
  | nil => exact ⟨t, rfl⟩
  | cons a addrs ih =>
    rw [List.length_cons] at hroom
    have hstep : ∃ t₁, t.registerStep a = some t₁ := by
      by_cases ha : a ∈ xs
      · exact ⟨t, by rw [registerStep, h.register_known ha]; rfl⟩
      · rw [registerStep, h.register_unknown ha, if_pos (by omega)]
        exact ⟨_, rfl⟩
    obtain ⟨t₁, hstep⟩ := hstep
    have hlen : (enlist xs a).length ≤ xs.length + 1 := by
      unfold enlist
      split
      · exact Nat.le_succ _
      · rw [List.length_append, List.length_singleton]
    obtain ⟨t', hrun⟩ := ih (h.step hstep) (by omega)
    exact ⟨t', exec_cons.mpr ⟨t₁, hstep, hrun⟩⟩

/-! ## Compression -/

theorem length_addressBytes (a : Address) : (addressBytes a).length = 20 := beBytes_length 20 _

theorem ofNat_beNat_addressBytes (a : Address) : BitVec.ofNat 160 (beNat (addressBytes a)) = a := by
  have hlt : a.toNat < 256 ^ 20 := a.isLt
  rw [addressBytes, beNat_beBytes, Nat.mod_eq_of_lt hlt, BitVec.ofNat_toNat, BitVec.setWidth_eq]

section Compression

variable (rlp : Rlp)

theorem decompress_address (t : AddressTable) (a : Address) (suffix : Bytes) :
    t.decompress rlp (rlp.encodeBytes (addressBytes a) ++ suffix) =
      .ok (a, (rlp.encodeBytes (addressBytes a)).length, true) := by
  have hlen := length_addressBytes a
  have hheader := rlp.header_bytes (addressBytes a) suffix (by omega)
  have hle := rlp.header_length _ _ _ hheader
  have htake : (addressBytes a ++ suffix).take 20 = addressBytes a := List.take_left' hlen
  rw [decompress, if_neg (rlp.ne_nil hheader), hheader]
  rw [List.length_append, List.length_append] at hle
  dsimp only
  rw [if_neg Bool.false_ne_true, if_pos hlen, htake, ofNat_beNat_addressBytes, List.length_append,
    List.length_append, if_neg (by omega)]
  congr 3
  omega

theorem decompress_index {t : AddressTable} {index : Nat} (hindex : index < 2 ^ 64)
    (hlookup : t.lookupIndex index = some a) (suffix : Bytes) :
    t.decompress rlp (rlp.encodeU64 index ++ suffix) =
      .ok (a, (rlp.encodeU64 index).length, false) := by
  obtain ⟨length, hle, cursor, hheader⟩ := rlp.header_u64 index suffix hindex
  rw [decompress, if_neg (rlp.ne_nil hheader), hheader]
  dsimp only
  -- an index has at most eight bytes, an address twenty
  rw [if_neg Bool.false_ne_true, if_neg (by omega), rlp.decode_u64 index suffix hindex]
  dsimp only
  rw [hlookup, List.length_append, Nat.add_sub_cancel]

end Compression

/-- The table is a bijection between the places below its size and the addresses registered, a
    place once given is kept, and what `compress` writes is read back by the table as it is or
    as it is after any further registrations. -/
theorem address_table_bijection (rlp : Rlp) {addrs more : List Address} {t t' : AddressTable}
    (hrun : exec registerStep init addrs = some t) (hmore : exec registerStep t more = some t') :
    (∀ a, t.addressExists a = true ↔ a ∈ addrs) ∧
      (∀ i, i < t.size ↔ ∃ a, t.lookupIndex i = some a) ∧
      (∀ a i, t.lookupIndex i = some a ↔ t.lookup a = (i, true)) ∧
      (∀ a i, t.lookup a = (i, true) → t.register a = some (t, i, true)) ∧
      (∀ a t₁ i known, t.register a = some (t₁, i, known) →
        ∀ later t₂, exec registerStep t₁ later = some t₂ → t₂.lookup a = (i, true)) ∧
      (∀ a i, t.lookup a = (i, true) → t'.lookup a = (i, true)) ∧
      ∀ a suffix, t'.decompress rlp (t.compress rlp a ++ suffix) =
        .ok (a, (t.compress rlp a).length, !t.addressExists a) := by
  have h : t.Represents (addrs.foldl enlist []) := represents_init.run hrun
  refine ⟨?_, ?_, ?_, ?_, ?_, ?_, ?_⟩
  · intro a
    rw [h.addressExists_eq, decide_eq_true_iff, mem_foldl_enlist]
    exact ⟨fun hmem => hmem.resolve_left List.not_mem_nil, Or.inr⟩
  · intro i
    simp [size, h.numItems, h.lookupIndex_eq, List.getElem?_eq_some_iff]
  · intro a i
    exact h.lookupIndex_eq_some
  · intro a i hlookup
    obtain ⟨ha, rfl⟩ := h.lookup_eq_true.mp hlookup
    exact h.register_known ha
  · intro a t₁ i known hreg later t₂ hlater
    obtain ⟨h₁, hidx⟩ := h.register_cases hreg
    exact h₁.lookup_run hlater (h₁.lookup_eq_true.mpr ⟨mem_enlist.mpr (.inr rfl), hidx⟩)
  · intro a i hlookup
    exact h.lookup_run hmore hlookup
  · intro a suffix
    rw [compress, addressExists]
    cases hlookup : t.lookup a with
    | mk index known =>
      cases known with
      | false => exact decompress_address rlp t' a suffix
      | true =>
        have hkept := h.lookup_run hmore hlookup
        have hindex := (h.lookup_eq_true.mp hlookup)
        have hlt := h.idxOf_lt hindex.1
        exact decompress_index rlp (by omega) ((h.run hmore).lookupIndex_eq_some.mpr hkept) suffix

/-- A length in front of every string, and integers of eight bytes. -/
def sampleRlp : Rlp where
  encodeU64 n := 8 :: beBytes 8 n
  encodeBytes payload := UInt8.ofNat payload.length :: payload
  decodeHeader buf := buf.head?.map fun b => (⟨false, b.toNat⟩, buf.tail)
  decodeU64 buf := some (beNat ((buf.drop 1).take 8), buf.drop 9)
  header_nil := rfl
  header_length buf header rest h := by
    cases buf with
    | nil => cases h
    | cons b buf =>
      cases h
      exact Nat.le_succ _
  header_bytes payload rest h := by
    have hcode : (UInt8.ofNat payload.length).toNat = payload.length := by
      rw [UInt8.toNat_ofNat']
      omega
    rw [List.cons_append, List.head?_cons, Option.map_some, List.tail_cons, hcode]
  header_u64 n rest _ := ⟨8, Nat.le_refl _, _, rfl⟩
  decode_u64 n rest h := by
    have hlen := beBytes_length 8 n
    have hvalue : beNat (beBytes 8 n) = n := (beNat_beBytes 8 n).trans (Nat.mod_eq_of_lt h)
    rw [List.cons_append, List.drop_succ_cons, List.drop_zero, List.take_left' hlen, hvalue,
      List.drop_succ_cons, List.drop_left' hlen]

/-- A table of two addresses, one registered twice, and a third registered later: the second
    one's index is its encoding, and the third one's bytes are still read back. -/
theorem address_table_bijection_two :
    ∃ t t', exec registerStep init [5, 7, 5] = some t ∧ exec registerStep t [9] = some t' ∧
      t'.decompress sampleRlp (t.compress sampleRlp 7 ++ [1, 2]) =
        .ok (7, (t.compress sampleRlp 7).length, !t.addressExists 7) ∧
      t'.decompress sampleRlp (t.compress sampleRlp 9 ++ [1, 2]) =
        .ok (9, (t.compress sampleRlp 9).length, !t.addressExists 9) ∧
      t.addressExists 7 = true ∧ ¬ t.addressExists 9 = true := by
  obtain ⟨t, hrun⟩ := represents_init.exists_run [5, 7, 5] (by decide)
  obtain ⟨t', hmore⟩ := (represents_init.run hrun).exists_run [9] (by decide)
  obtain ⟨hexists, -, -, -, -, -, hround⟩ := address_table_bijection sampleRlp hrun hmore
  exact ⟨t, t', hrun, hmore, hround 7 _, hround 9 _, (hexists 7).mpr (by decide),
    fun h => absurd ((hexists 9).mp h) (by decide)⟩

end AddressTable

end Arbreth.Storage
