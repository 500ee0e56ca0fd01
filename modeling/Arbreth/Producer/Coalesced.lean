/-
  The coalesced storage overlay (arb-node, coalesced_state.rs: CoalescedOverlay).

  A block's bundle answers for a slot if it holds a value for it, or if the status of the account
  says that its storage is known: then a slot without a value is zero. The overlay folds the
  bundles of the blocks in memory, oldest first, into one map of slots and one set of wiped
  accounts. A wipe drops the older values of the account and is never taken back.

  `lookup_extendWithBlock` is the one fact about it: after a block the overlay answers what the
  block answers, and otherwise what it answered before. So the overlay of a chain is the union of
  the blocks' updates (`lookup_fromChain`), which is the walk over the blocks (`walk_eq_merged`).

  Hash maps are lists of entries with distinct keys, in the order in which they are iterated. Of
  an account's status only whether the storage is known is kept.
-/
import Arbreth.Lib.Machine
import Arbreth.Lib.Overlay

namespace Arbreth.Coalesced

open Arbreth.Lib

/-! ## Bundles -/

/-- `BundleAccount`, with the present values of its slots. -/
structure BundleAccount where
  storageKnown : Bool
  storage : List (U256 × U256)
  storage_nodup : (storage.map Prod.fst).Nodup

/-- The accounts of a `BundleState`. -/
structure BundleState where
  state : List (Address × BundleAccount)
  state_nodup : (state.map Prod.fst).Nodup

/-- `BundleAccount::storage_slot`. -/
def BundleAccount.storageSlot (account : BundleAccount) (slot : U256) : Option U256 :=
  match account.storage.lookup slot with
  | some value => some value
  | none => if account.storageKnown then some 0 else none

/-- What a block answers for a slot. -/
def BundleState.storageSlot (b : BundleState) (address : Address) (slot : U256) : Option U256 :=
  (b.state.lookup address).bind (·.storageSlot slot)

/-! ## The overlay -/

/-- `CoalescedOverlay`. The key of a slot is its number as 32 bytes. -/
structure CoalescedOverlay where
  slots : List ((Address × B256) × U256)
  wiped : List Address

namespace CoalescedOverlay

def empty : CoalescedOverlay := ⟨[], []⟩

/-- `slots.insert`. -/
def insertSlot (o : CoalescedOverlay) (key : Address × B256) (value : U256) : CoalescedOverlay :=
  { o with slots := (key, value) :: o.slots.filter (·.1 ≠ key) }

/-- `wiped.insert`, and the older slots of the account are dropped. -/
def wipe (o : CoalescedOverlay) (address : Address) : CoalescedOverlay where
  slots := o.slots.filter (·.1.1 ≠ address)
  wiped := if address ∈ o.wiped then o.wiped else address :: o.wiped

def extendWithAccount (o : CoalescedOverlay) (entry : Address × BundleAccount) : CoalescedOverlay :=
  let o := if entry.2.storageKnown then o.wipe entry.1 else o
  entry.2.storage.foldl (fun o slot => o.insertSlot (entry.1, slot.1) slot.2) o

/-- `extend_with_block`. -/
def extendWithBlock (o : CoalescedOverlay) (b : BundleState) : CoalescedOverlay :=
  b.state.foldl extendWithAccount o

/-- `from_chain`, of the bundles newest first. -/
def fromChain (blocks : List BundleState) : CoalescedOverlay :=
  blocks.reverse.foldl extendWithBlock empty

/-- `is_empty`. -/
def isEmpty (o : CoalescedOverlay) : Bool := o.slots.isEmpty && o.wiped.isEmpty

/-- `lookup`. -/
def lookup (o : CoalescedOverlay) (address : Address) (key : B256) : Option U256 :=
  match o.slots.lookup (address, key) with
  | some value => some value
  | none => if address ∈ o.wiped then some 0 else none

end CoalescedOverlay

/-- The walk from the newest block to the oldest, up to the first that answers. -/
def walk (blocks : List BundleState) (address : Address) (slot : U256) : Option U256 :=
  blocks.findSome? (·.storageSlot address slot)

/-! ## One block -/

open CoalescedOverlay

variable {o : CoalescedOverlay} {address address' : Address} {key : B256}

theorem lookup_filter {α β : Type} [BEq α] [LawfulBEq α] (p : α → Bool) (l : List (α × β)) (k : α) :
    (l.filter (p ·.1)).lookup k = if p k = true then l.lookup k else none := by
  induction l with
  | nil => simp
  | cons e l ih =>
    obtain ⟨k', v⟩ := e
    by_cases hk : k = k'
    · subst hk
      by_cases hp : p k = true
      · simp [hp]
      · simp [hp, ih]
    · have hbeq : (k == k') = false := beq_false_of_ne hk
      by_cases hp' : p k' = true
      · simp [hp', List.lookup_cons, hbeq, ih]
      · simp [hp', List.lookup_cons, hbeq, ih]

theorem lookup_insertSlot (o : CoalescedOverlay) (key' : Address × B256) (value : U256) :
    (o.insertSlot key' value).lookup address key =
      if (address, key) = key' then some value else o.lookup address key := by
  unfold CoalescedOverlay.lookup insertSlot
  by_cases hkey : (address, key) = key'
  · subst hkey
    simp
  · have hbeq : ((address, key) == key') = false := beq_false_of_ne hkey
    have hfilter := lookup_filter (fun k => decide (k ≠ key')) o.slots (address, key)
    rw [if_pos (decide_eq_true hkey)] at hfilter
    rw [List.lookup_cons, hbeq, hfilter, if_neg hkey]

theorem mem_wiped_wipe (o : CoalescedOverlay) (address' : Address) :
    address ∈ (o.wipe address').wiped ↔ address = address' ∨ address ∈ o.wiped := by
  unfold wipe
  split
  · next hmem => exact ⟨.inr, fun h => h.elim (fun he => he ▸ hmem) id⟩
  · exact List.mem_cons

theorem lookup_wipe (o : CoalescedOverlay) (address' : Address) :
    (o.wipe address').lookup address key =
      if address = address' then some 0 else o.lookup address key := by
  have hslots : (o.wipe address').slots.lookup (address, key) =
      if decide (address ≠ address') = true then o.slots.lookup (address, key) else none :=
    lookup_filter (fun k : Address × B256 => decide (k.1 ≠ address')) o.slots (address, key)
  unfold CoalescedOverlay.lookup
  rw [hslots]
  by_cases haddr : address = address'
  · have hmem : address ∈ (o.wipe address').wiped := (mem_wiped_wipe o address').mpr (.inl haddr)
    rw [if_pos haddr, if_neg (by simpa using haddr)]
    exact if_pos hmem
  · have hmem : address ∈ (o.wipe address').wiped ↔ address ∈ o.wiped := by
      rw [mem_wiped_wipe, or_iff_right haddr]
    rw [if_neg haddr, if_pos (decide_eq_true haddr)]
    simp only [hmem]

theorem lookup_eq_none_of_notMem {α β : Type} [BEq α] [LawfulBEq α] {l : List (α × β)} {k : α}
    (h : k ∉ l.map Prod.fst) : l.lookup k = none := by
  rw [List.lookup_eq_none_iff]
  intro e he
  have hne : k ≠ e.1 := by
    rintro rfl
    exact h (List.mem_map_of_mem he)
  simpa using hne

theorem lookup_insertSlots (o : CoalescedOverlay) (slots : List (U256 × U256))
    (hnodup : (slots.map Prod.fst).Nodup) :
    (slots.foldl (fun o slot => o.insertSlot (address', slot.1) slot.2) o).lookup address key =
      (if address = address' then slots.lookup key else none).or (o.lookup address key) := by
  induction slots generalizing o with
  | nil => simp
  | cons slot slots ih =>
    obtain ⟨number, value⟩ := slot
    obtain ⟨hnew, hrest⟩ := List.nodup_cons.mp hnodup
    rw [List.foldl_cons, ih _ hrest, lookup_insertSlot]
    by_cases haddr : address = address'
    · subst haddr
      rw [if_pos rfl, if_pos rfl, List.lookup_cons]
      by_cases hkey : key = number
      · subst hkey
        simp [lookup_eq_none_of_notMem hnew]
      · have hbeq : (key == number) = false := beq_false_of_ne hkey
        simp [hbeq, hkey]
    · simp [haddr]

theorem lookup_extendWithAccount (o : CoalescedOverlay) (entry : Address × BundleAccount) :
    (o.extendWithAccount entry).lookup address key =
      (if address = entry.1 then entry.2.storageSlot key else none).or (o.lookup address key) := by
  unfold extendWithAccount BundleAccount.storageSlot
  rw [lookup_insertSlots _ _ entry.2.storage_nodup]
  by_cases haddr : address = entry.1
  · rw [if_pos haddr, if_pos haddr]
    cases entry.2.storage.lookup key with
    | some value => rfl
    | none =>
      by_cases hknown : entry.2.storageKnown = true
      · rw [if_pos hknown, lookup_wipe, if_pos haddr]
        simp [hknown]
      · simp [hknown]
  · rw [if_neg haddr, if_neg haddr]
    split
    · rw [lookup_wipe, if_neg haddr]
    · rfl

/-- After a block the overlay answers what the block answers, or else what it did before. -/
theorem lookup_extendWithBlock (o : CoalescedOverlay) (b : BundleState) :
    (o.extendWithBlock b).lookup address key =
      (b.storageSlot address key).or (o.lookup address key) := by
  obtain ⟨state, hnodup⟩ := b
  unfold extendWithBlock BundleState.storageSlot
  induction state generalizing o with
  | nil => simp
  | cons entry state ih =>
    obtain ⟨owner, account⟩ := entry
    obtain ⟨hnew, hrest⟩ := List.nodup_cons.mp hnodup
    rw [List.foldl_cons, ih _ hrest, lookup_extendWithAccount, List.lookup_cons]
    by_cases haddr : address = owner
    · subst haddr
      simp [lookup_eq_none_of_notMem hnew]
    · have hbeq : (address == owner) = false := beq_false_of_ne haddr
      simp [hbeq, haddr]

/-! ## A chain of blocks -/

/-- A bundle as an update of storage. -/
def storageUpdate (b : BundleState) : Update (Address × B256) U256 :=
  fun k => b.storageSlot k.1 k.2

/-- An overlay as an update of storage. -/
def CoalescedOverlay.update (o : CoalescedOverlay) : Update (Address × B256) U256 :=
  fun k => o.lookup k.1 k.2

theorem update_extendWithBlock (o : CoalescedOverlay) (b : BundleState) :
    (o.extendWithBlock b).update = o.update.extend (storageUpdate b) := by
  funext k
  exact lookup_extendWithBlock o b

variable (blocks : List BundleState)

theorem update_fromChain : (fromChain blocks).update = .merged storageUpdate blocks.reverse := by
  have hfold : ∀ (bs : List BundleState) (o : CoalescedOverlay),
      (bs.foldl extendWithBlock o).update =
        bs.foldl (fun u b => u.extend (storageUpdate b)) o.update := by
    intro bs
    induction bs with
    | nil => exact fun _ => rfl
    | cons b bs ih =>
      intro o
      rw [List.foldl_cons, ih, update_extendWithBlock, List.foldl_cons]
  exact hfold blocks.reverse empty

/-- The union of the blocks' updates is the walk from the newest block on. -/
theorem walk_eq_merged (address : Address) (slot : U256) :
    walk blocks address slot = Update.merged storageUpdate blocks.reverse (address, slot) := by
  induction blocks with
  | nil => rfl
  | cons b blocks ih =>
    rw [List.reverse_cons, Update.merged_append, Update.merged_singleton]
    unfold walk Update.extend
    rw [List.findSome?_cons, ← ih]
    cases hb : b.storageSlot address slot with
    | none => simp [storageUpdate, hb, walk]
    | some value => simp [storageUpdate, hb]

/-- The overlay of a chain answers as the walk does. -/
theorem lookup_fromChain (address : Address) (slot : U256) :
    (fromChain blocks).lookup address slot = walk blocks address slot := by
  rw [walk_eq_merged, ← update_fromChain]
  rfl

end Arbreth.Coalesced
