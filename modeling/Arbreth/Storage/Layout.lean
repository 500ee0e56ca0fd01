/-
  The layout of the ArbOS state: where every field lives, and that no two share a slot
  (arb-storage, slot.rs and layout.rs; the `open` functions of arbos).

  A subspace is reached from the root by a path of sub-keys. Its key is a hash of its
  parent's key and its sub-key, with nothing between the two; the root's key is empty, so a
  zero key, which stands for the root, must not come out of the hash. A slot keeps the last
  byte of the key and takes the other 31 from a hash of the subspace key and the rest.

  What is assumed of the hash is said about the strings that occur (`Separates`): their
  hashes differ in the first 31 bytes, and no subspace key is zero. Nothing is assumed of
  strings that are never hashed, so the assumption can hold of a real hash function.
-/
import Arbreth.Storage.Slot

namespace Arbreth

open Arbreth.Lib

/-! ## Subspaces -/

/-- The sub-keys from the root down to a subspace. -/
inductive Path where
  | root
  | sub (parent : Path) (subKey : Bytes)
  deriving DecidableEq

/-- The address sets of the ArbOS state. -/
inductive AddressSetId where
  | chainOwners
  | nativeTokenOwners
  | transactionFilterers
  | posterAddrs
  | cacheManagers

/-- Every subspace that `ArbosState::open` opens, and those its parts open below. -/
inductive Subspace where
  | root
  | l1Pricing
  | batchPosterTable
  | posterInfo
  | poster (address : Address)
  | l2Pricing
  | gasConstraints
  | gasConstraint (index : Nat)
  | multiGasConstraints
  | multiGasConstraint (index : Nat)
  | multiGasBaseFees
  | retryables
  | timeoutQueue
  | retryable (id : B256)
  | calldata (id : B256)
  | addressTable
  | addressTableByAddress
  | sendMerkle
  | blockhashes
  | chainConfig
  | programs
  | params
  | programData
  | moduleHashes
  | dataPricer
  | activationGas
  | features
  | addressSet (set : AddressSetId)
  | byAddress (set : AddressSetId)

/-- A subspace of the root. -/
def Path.top (subKey : UInt8) : Path := .sub .root [subKey]

/-- `L1_PRICING_SUBSPACE` and what the batch poster table opens below it. -/
def Path.l1Pricing : Path := .top 0

def Path.batchPosterTable : Path := l1Pricing.sub [0]

/-- `L2_PRICING_SUBSPACE`. -/
def Path.l2Pricing : Path := .top 1

/-- `RETRYABLES_SUBSPACE`. -/
def Path.retryables : Path := .top 2

/-- `ADDRESS_TABLE_SUBSPACE`. -/
def Path.addressTable : Path := .top 3

/-- `PROGRAMS_SUBSPACE`. -/
def Path.programs : Path := .top 8

def AddressSetId.path : AddressSetId → Path
  | .chainOwners => .top 4
  | .nativeTokenOwners => .top 10
  | .transactionFilterers => .top 11
  | .posterAddrs => Path.batchPosterTable.sub [0]
  | .cacheManagers => Path.programs.sub [4]

/-- The path each `open` function opens a subspace by. -/
def Subspace.path : Subspace → Path
  | .root => .root
  | .l1Pricing => .l1Pricing
  | .batchPosterTable => .batchPosterTable
  | .posterInfo => Path.batchPosterTable.sub [1]
  | .poster address => (Path.batchPosterTable.sub [1]).sub (addressBytes address)
  | .l2Pricing => .l2Pricing
  | .gasConstraints => Path.l2Pricing.sub [0]
  | .gasConstraint index => (Path.l2Pricing.sub [0]).sub (beBytes 8 index)
  | .multiGasConstraints => Path.l2Pricing.sub [1]
  | .multiGasConstraint index => (Path.l2Pricing.sub [1]).sub (beBytes 8 index)
  | .multiGasBaseFees => Path.l2Pricing.sub [2]
  | .retryables => .retryables
  | .timeoutQueue => Path.retryables.sub [0]
  | .retryable id => Path.retryables.sub (wordBytes id)
  | .calldata id => (Path.retryables.sub (wordBytes id)).sub [1]
  | .addressTable => .addressTable
  -- the only empty sub-key
  | .addressTableByAddress => Path.addressTable.sub []
  | .sendMerkle => .top 5
  | .blockhashes => .top 6
  | .chainConfig => .top 7
  | .programs => .programs
  | .params => Path.programs.sub [0]
  | .programData => Path.programs.sub [1]
  | .moduleHashes => Path.programs.sub [2]
  | .dataPricer => Path.programs.sub [3]
  | .activationGas => Path.programs.sub [5]
  | .features => .top 9
  | .addressSet set => set.path
  | .byAddress set => set.path.sub [0]

/-- A path that some part of ArbOS opens. -/
def Path.Opened (p : Path) : Prop := ∃ s : Subspace, s.path = p

/-! ## Locations -/

/-- A key of a subspace: a full word, or a `u64` offset. -/
inductive Key where
  | word (key : B256)
  | offset (n : Nat)
  deriving DecidableEq

/-- The 32 bytes of a key. -/
def Key.bytes : Key → Bytes
  | .word key => wordBytes key
  | .offset n => offsetBytes n

structure Location where
  path : Path
  key : Key
  deriving DecidableEq

open Location

section Hash

variable (keccak256 : Bytes → B256)

/-- `storage_key_map_b256`. -/
def storageKeyMapB256 (storageKey : Bytes) (key : B256) : U256 :=
  let h := keccak256 (storageKey ++ (wordBytes key).take 31)
  wordOfBytes ((wordBytes h).take 31 ++ (wordBytes key).drop 31)

/-- The key of the subspace at the end of a path. -/
def Path.baseKey : Path → B256
  | .root => 0
  | .sub parent subKey => deriveSubKey keccak256 parent.baseKey subKey

/-- The handle `open_sub_storage` returns along a path. -/
def Path.storage (p : Path) : Storage := ⟨p.baseKey keccak256, arbosStateAddress⟩

/-- The slot of a location: `storage_key_map` for an offset, `storage_key_map_b256` for a
    word. -/
def Location.slot (l : Location) : U256 :=
  match l.key with
  | .word key => storageKeyMapB256 keccak256 (keyBytesOf (l.path.baseKey keccak256)) key
  | .offset n => storageKeyMap keccak256 (keyBytesOf (l.path.baseKey keccak256)) n

/-- The strings hashed for the keys along a path. -/
def Path.inputs : Path → List Bytes
  | .root => []
  | .sub parent subKey => (keyBytesOf (parent.baseKey keccak256) ++ subKey) :: parent.inputs

/-- The keys of the subspaces along a path, the root apart. -/
def Path.keys : Path → List B256
  | .root => []
  | .sub parent subKey => (Path.sub parent subKey).baseKey keccak256 :: parent.keys

/-- The string hashed for the slot itself. -/
def Location.slotInput (l : Location) : Bytes :=
  keyBytesOf (l.path.baseKey keccak256) ++ l.key.bytes.take 31

/-- Every string hashed for a location. -/
def Location.inputs (l : Location) : List Bytes := l.slotInput keccak256 :: l.path.inputs keccak256

/-- The first 31 bytes of a word. -/
def truncated (x : B256) : Bytes := (wordBytes x).take 31

/-- The hash separates these locations: no two of the strings hashed for them agree in the
    first 31 bytes of their hashes, and none of their subspace keys is zero. -/
structure Separates (ls : List Location) : Prop where
  inj : ∀ x ∈ ls.flatMap (inputs keccak256), ∀ y ∈ ls.flatMap (inputs keccak256),
    truncated (keccak256 x) = truncated (keccak256 y) → x = y
  keys_ne_zero : ∀ k ∈ ls.flatMap (fun l => l.path.keys keccak256), k ≠ 0

/-! ## One subspace key, one path -/

/-- Paths whose first sub-key is shorter than a word. A longer one could be read as a key
    followed by a sub-key. -/
def Path.ShortFirst : Path → Prop
  | .root => True
  | .sub .root subKey => subKey.length < 32
  | .sub parent _ => parent.ShortFirst

variable {ls : List Location} {p : Path} {l l' : Location}

theorem Path.ShortFirst.of_opened (h : p.Opened) : p.ShortFirst := by
  obtain ⟨s, rfl⟩ := h
  cases s with
  | root => trivial
  | addressSet set | byAddress set => cases set <;> exact (by decide : 1 < 32)
  | _ => exact (by decide : 1 < 32)

theorem Path.ShortFirst.parent {subKey : Bytes} (h : (p.sub subKey).ShortFirst) : p.ShortFirst := by
  cases p with
  | root => trivial
  | sub parent key => exact h

theorem length_keyBytesOf {k : B256} (hk : k ≠ 0) : (keyBytesOf k).length = 32 := by
  rw [keyBytesOf, if_neg hk, wordBytes_length]

theorem keyBytesOf_inj {k k' : B256} (hk : k ≠ 0) (hk' : k' ≠ 0)
    (h : keyBytesOf k = keyBytesOf k') : k = k' := by
  rw [keyBytesOf, keyBytesOf, if_neg hk, if_neg hk'] at h
  exact wordBytes_inj h

/-- What the induction over two paths needs of the strings and keys along them. -/
structure Path.Separate (p q : Path) : Prop where
  inj : ∀ x ∈ p.inputs keccak256, ∀ y ∈ q.inputs keccak256, keccak256 x = keccak256 y → x = y
  left : ∀ k ∈ p.keys keccak256, k ≠ 0
  right : ∀ k ∈ q.keys keccak256, k ≠ 0

variable {keccak256}

theorem Path.Separate.parents {p q : Path} {s t : Bytes}
    (h : Path.Separate keccak256 (p.sub s) (q.sub t)) : Path.Separate keccak256 p q where
  inj x hx y hy := h.inj x (List.mem_cons_of_mem _ hx) y (List.mem_cons_of_mem _ hy)
  left k hk := h.left k (List.mem_cons_of_mem _ hk)
  right k hk := h.right k (List.mem_cons_of_mem _ hk)

theorem Path.baseKey_ne_zero (h : ∀ k ∈ p.keys keccak256, k ≠ 0) (hp : p ≠ .root) :
    p.baseKey keccak256 ≠ 0 := by
  cases p with
  | root => exact absurd rfl hp
  | sub parent subKey => exact h _ List.mem_cons_self

/-- A sub-key and its parent's key are read off the string hashed for a subspace. Below the
    root the string is the sub-key alone, which is shorter than any other such string. -/
theorem Path.input_inj {p q : Path} {s t : Bytes}
    (hsep : Path.Separate keccak256 (p.sub s) (q.sub t)) (hs : (p.sub s).ShortFirst)
    (ht : (q.sub t).ShortFirst)
    (h : keyBytesOf (p.baseKey keccak256) ++ s = keyBytesOf (q.baseKey keccak256) ++ t) :
    p.baseKey keccak256 = q.baseKey keccak256 ∧ s = t := by
  have hsep' := hsep.parents
  have hlen := congrArg List.length h
  rw [List.length_append, List.length_append] at hlen
  by_cases hp : p = .root
  · subst hp
    by_cases hq : q = .root
    · subst hq
      exact ⟨rfl, List.append_cancel_left h⟩
    · have hkey := length_keyBytesOf (Path.baseKey_ne_zero hsep'.right hq)
      have hshort : s.length < 32 := hs
      have hroot : (keyBytesOf (Path.root.baseKey keccak256)).length = 0 := rfl
      omega
  · have hkey := length_keyBytesOf (Path.baseKey_ne_zero hsep'.left hp)
    by_cases hq : q = .root
    · subst hq
      have hshort : t.length < 32 := ht
      have hroot : (keyBytesOf (Path.root.baseKey keccak256)).length = 0 := rfl
      omega
    · have hkey' := length_keyBytesOf (Path.baseKey_ne_zero hsep'.right hq)
      obtain ⟨hkeys, hsub⟩ := List.append_inj h (by rw [hkey, hkey'])
      exact ⟨keyBytesOf_inj (Path.baseKey_ne_zero hsep'.left hp)
        (Path.baseKey_ne_zero hsep'.right hq) hkeys, hsub⟩

/-- Subspaces with one key are reached by one path. -/
theorem Path.eq_of_baseKey_eq {p q : Path} (hsep : Path.Separate keccak256 p q)
    (hp : p.ShortFirst) (hq : q.ShortFirst) (h : p.baseKey keccak256 = q.baseKey keccak256) :
    p = q := by
  induction p generalizing q with
  | root =>
    cases q with
    | root => rfl
    | sub q t => exact absurd h.symm (hsep.right _ List.mem_cons_self)
  | sub p s ih =>
    cases q with
    | root => exact absurd h (hsep.left _ List.mem_cons_self)
    | sub q t =>
      have hinput := hsep.inj _ List.mem_cons_self _ List.mem_cons_self h
      obtain ⟨hkeys, rfl⟩ := Path.input_inj hsep hp hq hinput
      rw [ih hsep.parents hp.parent hq.parent hkeys]

/-! ## One slot, one location -/

theorem Key.length_bytes (k : Key) : k.bytes.length = 32 := by
  cases k with
  | word key => exact wordBytes_length key
  | offset n => simp [Key.bytes, offsetBytes]

theorem length_truncated (x : B256) : (truncated x).length = 31 := by
  rw [truncated, List.length_take, wordBytes_length]
  rfl

/-- Both maps: the hash without its last byte, and the last byte of the key. -/
theorem Location.wordBytes_slot (l : Location) :
    wordBytes (l.slot keccak256) =
      truncated (keccak256 (l.slotInput keccak256)) ++ l.key.bytes.drop 31 := by
  have hlen : (truncated (keccak256 (l.slotInput keccak256)) ++ l.key.bytes.drop 31).length = 32 := by
    rw [List.length_append, List.length_drop, Key.length_bytes, length_truncated]
  rw [← wordBytes_wordOfBytes hlen, Location.slot]
  cases l with
  | mk path key => cases key <;> rfl

/-- The two parts of a slot. -/
theorem Location.slot_parts (h : l.slot keccak256 = l'.slot keccak256) :
    truncated (keccak256 (l.slotInput keccak256)) = truncated (keccak256 (l'.slotInput keccak256)) ∧
      l.key.bytes.drop 31 = l'.key.bytes.drop 31 := by
  have hbytes := congrArg wordBytes h
  rw [wordBytes_slot, wordBytes_slot] at hbytes
  exact List.append_inj hbytes (by rw [length_truncated, length_truncated])

theorem Separates.paths (h : Separates keccak256 ls) (hl : l ∈ ls) (hl' : l' ∈ ls) :
    Path.Separate keccak256 l.path l'.path where
  inj x hx y hy hxy :=
    h.inj x (List.mem_flatMap.mpr ⟨l, hl, List.mem_cons_of_mem _ hx⟩) y
      (List.mem_flatMap.mpr ⟨l', hl', List.mem_cons_of_mem _ hy⟩) (by rw [hxy])
  left k hk := h.keys_ne_zero k (List.mem_flatMap.mpr ⟨l, hl, hk⟩)
  right k hk := h.keys_ne_zero k (List.mem_flatMap.mpr ⟨l', hl', hk⟩)

/-- A subspace key is empty or a word, so the 31 key bytes after it can be told apart. -/
theorem Location.slotInput_inj (h : l.slotInput keccak256 = l'.slotInput keccak256) :
    l.path.baseKey keccak256 = l'.path.baseKey keccak256 ∧
      l.key.bytes.take 31 = l'.key.bytes.take 31 := by
  have hlen : ∀ k : Key, (k.bytes.take 31).length = 31 := fun k => by
    rw [List.length_take, Key.length_bytes]
    rfl
  obtain ⟨hkeys, hrest⟩ := List.append_inj' h (by rw [hlen, hlen])
  refine ⟨?_, hrest⟩
  by_cases hp : l.path.baseKey keccak256 = 0
  · by_cases hq : l'.path.baseKey keccak256 = 0
    · rw [hp, hq]
    · have := congrArg List.length hkeys
      rw [length_keyBytesOf hq, hp] at this
      cases this
  · by_cases hq : l'.path.baseKey keccak256 = 0
    · have := congrArg List.length hkeys
      rw [length_keyBytesOf hp, hq] at this
      cases this
    · exact keyBytesOf_inj hp hq hkeys

/-- Locations that share a slot are one location. -/
theorem Location.eq_of_slot_eq (hsep : Separates keccak256 ls) (hl : l ∈ ls) (hl' : l' ∈ ls)
    (hp : l.path.Opened) (hq : l'.path.Opened) (h : l.slot keccak256 = l'.slot keccak256) :
    l.path = l'.path ∧ l.key.bytes = l'.key.bytes := by
  have hpaths := hsep.paths hl hl'
  obtain ⟨hhash, hlast⟩ := slot_parts h
  have hinput := hsep.inj _ (List.mem_flatMap.mpr ⟨l, hl, List.mem_cons_self⟩) _
    (List.mem_flatMap.mpr ⟨l', hl', List.mem_cons_self⟩) hhash
  obtain ⟨hkeys, hfirst⟩ := slotInput_inj hinput
  refine ⟨Path.eq_of_baseKey_eq hpaths (.of_opened hp) (.of_opened hq) hkeys, ?_⟩
  rw [← List.take_append_drop 31 l.key.bytes, ← List.take_append_drop 31 l'.key.bytes, hfirst, hlast]

theorem Location.slot_ne_of_path (hsep : Separates keccak256 ls) (hl : l ∈ ls) (hl' : l' ∈ ls)
    (hp : l.path.Opened) (hq : l'.path.Opened) (hne : l.path ≠ l'.path) :
    l.slot keccak256 ≠ l'.slot keccak256 :=
  fun h => hne (eq_of_slot_eq hsep hl hl' hp hq h).1

theorem offsetBytes_inj {n m : Nat} (hn : n < 2 ^ 64) (hm : m < 2 ^ 64)
    (h : offsetBytes n = offsetBytes m) : n = m := by
  rw [offsetBytes, offsetBytes, wrap64_of_lt hn, wrap64_of_lt hm] at h
  have hpow : (2 : Nat) ^ 64 ≤ 256 ^ 32 := by decide
  exact beBytes_inj (hn.trans_le hpow) (hm.trans_le hpow) h

theorem Location.slot_ne_of_offset (hsep : Separates keccak256 ls) (hp : p.Opened) {n m : Nat}
    (hl : ⟨p, .offset n⟩ ∈ ls) (hl' : ⟨p, .offset m⟩ ∈ ls) (hn : n < 2 ^ 64) (hm : m < 2 ^ 64)
    (hne : n ≠ m) :
    Location.slot keccak256 ⟨p, .offset n⟩ ≠ Location.slot keccak256 ⟨p, .offset m⟩ :=
  fun h => hne (offsetBytes_inj hn hm (eq_of_slot_eq hsep hl hl' hp hp h).2)

/-- No two locations of the ArbOS state share a slot, and keys of one page get slots of one
    page: where the first 31 bytes of two keys of one subspace agree, so do those of the
    slots, and the last bytes are those of the keys. -/
theorem slot_determines_location {l l' : Location} (hp : l.path.Opened) (hq : l'.path.Opened)
    (hsep : Separates keccak256 [l, l']) :
    (l.slot keccak256 = l'.slot keccak256 → l.path = l'.path ∧ l.key.bytes = l'.key.bytes) ∧
    (l.path = l'.path → l.key.bytes.take 31 = l'.key.bytes.take 31 →
      truncated (l.slot keccak256) = truncated (l'.slot keccak256) ∧
      (wordBytes (l.slot keccak256)).drop 31 = l.key.bytes.drop 31 ∧
      (wordBytes (l'.slot keccak256)).drop 31 = l'.key.bytes.drop 31) := by
  refine ⟨eq_of_slot_eq hsep (by simp) (by simp) hp hq, ?_⟩
  intro hpath hkey
  have hinput : l.slotInput keccak256 = l'.slotInput keccak256 := by
    rw [slotInput, slotInput, hpath, hkey]
  refine ⟨?_, ?_, ?_⟩
  · rw [truncated, truncated, wordBytes_slot, wordBytes_slot, hinput,
      List.take_left' (length_truncated _), List.take_left' (length_truncated _)]
  · rw [wordBytes_slot, List.drop_left' (length_truncated _)]
  · rw [wordBytes_slot, List.drop_left' (length_truncated _)]

end Hash

/-- A hash that is cheap to evaluate, for the concrete cases: the string as a number to
    base 257, modulo what fits in 31 bytes. -/
def hornerHash (bs : Bytes) : B256 :=
  BitVec.ofNat 256 (256 * (bs.foldl (fun h b => h * 257 + (b.toNat + 1)) 0 % 2 ^ 248))

/-- The size of the chain owner set and the ArbOS version have different slots, although
    both are at offset zero. -/
theorem slot_determines_location_owners :
    Separates hornerHash [⟨.root, .offset 0⟩, ⟨.top 4, .offset 0⟩] ∧
      Location.slot hornerHash ⟨.root, .offset 0⟩ ≠
        Location.slot hornerHash ⟨.top 4, .offset 0⟩ := by
  have hkey : Path.baseKey hornerHash (.top 4) ≠ 0 := by decide +kernel
  have hsep : Separates hornerHash [⟨.root, .offset 0⟩, ⟨.top 4, .offset 0⟩] :=
    ⟨by decide +kernel, fun k hk => List.mem_singleton.mp hk ▸ hkey⟩
  refine ⟨hsep, fun h => ?_⟩
  have hloc := (slot_determines_location ⟨.root, rfl⟩ ⟨.addressSet .chainOwners, rfl⟩ hsep).1 h
  cases hloc.1

end Arbreth
