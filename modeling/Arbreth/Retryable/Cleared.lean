/-
  A cleared ticket leaves nothing in its slots (arbos, retryables/mod.rs: clear_ticket_fields,
  delete_retryable, cancel).

  Clearing only ever writes zero, so all that matters is which slots it writes (`zeroAt`): the
  seven fields, and as many words of call data as the stored length asks for. `holds_calldata`
  gives that length. What lies behind those words was zero before the ticket was created and is
  not written while it lives.

  A creation reads nothing but the old length and the queue's counter, so two storages that agree
  there and on the ticket's slots still agree after it (`AgreeOn.createRetryable`).
-/
import Arbreth.Retryable.Stored

namespace Arbreth.Retryable

open Arbreth.Lib Arbreth.Exec StorageBackedBytes

section Hash

variable (keccak256 : Bytes → B256)

/-- `clear_ticket_fields`, which computes the slots of the seven fields by itself. -/
def clearTicketFields (st : Backend) (id : B256) : Backend :=
  let baseKey := ((retryables keccak256).openSubStorage keccak256 (wordBytes id)).baseKey
  let st := [0, 1, 2, 3, 4, 5, 6].foldl (fun st offset =>
    sstore st arbosStateAddress (storageKeyMap keccak256 (keyBytesOf baseKey) offset) 0) st
  (internalOpen keccak256 id).calldata.clear keccak256 st

namespace Slots

/-- `delete_retryable`: whether the ticket existed, none if the transfer of the escrow fails. -/
def deleteRetryable (transfer : Address → Address → Bool) (st : Backend) (id : B256) :
    Option (Bool × Backend) :=
  let ret := internalOpen keccak256 id
  if ret.timeout.get st = 0 then some (false, st)
  else if transfer (retryableEscrowAddress keccak256 id) (ret.beneficiary.get st) then
    some (true, clearTicketFields keccak256 st id)
  else none

/-- `open_retryable_metered`. -/
def openRetryableMetered (arbosVersion : Nat) (st : Backend) (id : B256) (now : Nat) :
    Option RetryableHandle × Nat :=
  let ret := internalOpen keccak256 id
  let timeout := ret.timeout.get st
  if timeout = 0 then (none, 0)
  else if timeout < now then
    if 60 ≤ arbosVersion then
      let effective := satAdd64 timeout
        (satMul64 (ret.timeoutWindowsLeft.get st) retryableLifetimeSeconds)
      if effective < now then (none, windowsLeftSloadGas) else (some ret, windowsLeftSloadGas)
    else (none, 0)
  else (some ret, 0)

/-- `CancelOutcome`. -/
inductive CancelOutcome where
  | noTicket
  | notBeneficiary
  | cleared (calldataSize : Nat) (beneficiary : Address)

/-- `cancel`: the outcome, the extra gas and the storage. -/
def cancel (arbosVersion : Nat) (st : Backend) (id : B256) (caller : Address) (now : Nat) :
    CancelOutcome × Nat × Backend :=
  match openRetryableMetered keccak256 arbosVersion st id now with
  | (none, extraGas) => (.noTicket, extraGas, st)
  | (some ret, extraGas) =>
    let beneficiary := ret.beneficiary.get st
    if caller ≠ beneficiary then (.notBeneficiary, extraGas, st)
    else
      (.cleared (ret.calldata.size keccak256 st) beneficiary, extraGas,
        clearTicketFields keccak256 st id)

/-- The ticket was deleted or cancelled. -/
def Cleared (st : Backend) (id : B256) (st' : Backend) : Prop :=
  (∃ transfer, deleteRetryable keccak256 transfer st id = some (true, st')) ∨
  ∃ arbosVersion caller now size beneficiary extraGas,
    cancel keccak256 arbosVersion st id caller now = (.cleared size beneficiary, extraGas, st')

end Slots

/-- The slots of a ticket: its fields, the length and the first `n` words of its call data. -/
def ticketLocations (id : B256) (n : Nat) : List Location :=
  (List.range 7).map (fieldLocation id) ++ (List.range (n + 1)).map (calldataLocation id)

/-- Nothing is stored in the slots of the ticket. -/
def Blank (id : B256) (n : Nat) (st : Backend) : Prop :=
  ∀ l ∈ ticketLocations id n, sload st arbosStateAddress (l.slot keccak256) = 0

end Hash

variable {keccak256 : Bytes → B256} {id : B256} {st st' : Backend} {n : Nat}

theorem Slots.Cleared.eq (h : Slots.Cleared keccak256 st id st') :
    st' = clearTicketFields keccak256 st id := by
  obtain ⟨transfer, h⟩ | ⟨v, caller, now, size, beneficiary, gas, h⟩ := h
  · unfold Slots.deleteRetryable at h
    grind
  · unfold Slots.cancel at h
    grind

/-! ## Writing zeros -/

/-- These slots of the ArbOS account become zero, and nothing else changes. -/
def Zeroed (slots : U256 → Prop) (st st' : Backend) : Prop :=
  ∀ a s, (a = arbosStateAddress ∧ slots s → sload st' a s = 0) ∧
    (¬ (a = arbosStateAddress ∧ slots s) → sload st' a s = sload st a s)

theorem zeroed_sstore (slot : U256) (st : Backend) :
    Zeroed (· = slot) st (sstore st arbosStateAddress slot 0) :=
  fun _ _ => ⟨fun h => if_pos h, fun h => if_neg h⟩

theorem Zeroed.trans {p q r : U256 → Prop} {st'' : Backend} (h : Zeroed p st st')
    (h' : Zeroed q st' st'') (hr : ∀ s, r s ↔ p s ∨ q s) : Zeroed r st st'' := by
  intro a s
  have h := h a s
  have h' := h' a s
  grind

theorem zeroed_foldl {α : Type} (slot : α → U256) (as : List α) (st : Backend) :
    Zeroed (fun s => ∃ a ∈ as, s = slot a) st
      (as.foldl (fun st a => sstore st arbosStateAddress (slot a) 0) st) := by
  induction as generalizing st with
  | nil => exact fun _ _ => ⟨fun ⟨_, _, h, _⟩ => (nomatch h), fun _ => rfl⟩
  | cons a as ih => exact (zeroed_sstore (slot a) st).trans (ih _) (by simp)

theorem clearChunks_eq_foldl (b : StorageBackedBytes) (hb : b.account = arbosStateAddress)
    (k offset : Nat) (st : Backend) :
    b.clearChunks keccak256 k st offset = (List.range' offset k).foldl
      (fun st i => sstore st arbosStateAddress (b.slot keccak256 i) 0) st := by
  induction k generalizing st offset with
  | zero => rfl
  | succ k ih =>
    rw [clearChunks, ih, List.range'_succ, List.foldl_cons,
      storeWord, hb]

/-- A slot of one of the fields. -/
def FieldSlot (keccak256 : Bytes → B256) (id : B256) (s : U256) : Prop :=
  ∃ o ∈ List.range 7, s = (fieldLocation id o).slot keccak256

/-- A slot of the length or of the first `k` words of the call data. -/
def CalldataSlot (keccak256 : Bytes → B256) (id : B256) (k : Nat) (s : U256) : Prop :=
  ∃ i ≤ k, s = (calldataLocation id i).slot keccak256

theorem zeroed_clear {k : Nat} (hsize : (internalOpen keccak256 id).calldata.loadU64 keccak256 st 0 = k) :
    Zeroed (CalldataSlot keccak256 id ((k + 31) / 32)) st
      ((internalOpen keccak256 id).calldata.clear keccak256 st) := by
  have hchunks := zeroed_foldl ((internalOpen keccak256 id).calldata.slot keccak256)
    (List.range' 1 ((k + 31) / 32)) st
  rw [← clearChunks_eq_foldl _ rfl] at hchunks
  rw [StorageBackedBytes.clear, hsize]
  refine hchunks.trans (zeroed_sstore _ _) fun s => ?_
  constructor
  · rintro ⟨i, hi, rfl⟩
    by_cases hzero : i = 0
    · exact .inr (hzero ▸ rfl)
    · exact .inl ⟨i, List.mem_range'_1.mpr (by omega), rfl⟩
  · rintro (⟨i, hi, rfl⟩ | rfl)
    · exact ⟨i, by have := List.mem_range'_1.mp hi; omega, rfl⟩
    · exact ⟨0, Nat.zero_le _, rfl⟩

theorem loadU64_congr (h : sload st arbosStateAddress ((calldataLocation id 0).slot keccak256) =
      sload st' arbosStateAddress ((calldataLocation id 0).slot keccak256)) :
    (internalOpen keccak256 id).calldata.loadU64 keccak256 st 0 =
      (internalOpen keccak256 id).calldata.loadU64 keccak256 st' 0 := by
  have hword : (internalOpen keccak256 id).calldata.loadWord keccak256 st 0 =
      (internalOpen keccak256 id).calldata.loadWord keccak256 st' 0 := h
  simp only [loadU64, hword]

/-- A clearing writes the fields and the words of the stored length, which no field shares a slot
    with. -/
theorem zeroed_clearTicketFields {k : Nat}
    (hfree : ¬ FieldSlot keccak256 id ((calldataLocation id 0).slot keccak256))
    (hsize : (internalOpen keccak256 id).calldata.loadU64 keccak256 st 0 = k) :
    Zeroed (fun s => FieldSlot keccak256 id s ∨ CalldataSlot keccak256 id ((k + 31) / 32) s) st
      (clearTicketFields keccak256 st id) := by
  have hfields := zeroed_foldl (fun o => (fieldLocation id o).slot keccak256) (List.range 7) st
  refine hfields.trans (zeroed_clear ?_) fun s => Iff.rfl
  exact (loadU64_congr ((hfields _ _).2 fun h => hfree h.2)).trans hsize

/-! ## The slots of a live ticket -/

theorem Separates.subset {ls ls' : List Location} (h : Separates keccak256 ls)
    (hsub : ∀ l ∈ ls', l ∈ ls) : Separates keccak256 ls' where
  inj x hx y hy := by
    obtain ⟨l, hl, hx⟩ := List.mem_flatMap.mp hx
    obtain ⟨l', hl', hy⟩ := List.mem_flatMap.mp hy
    exact h.inj x (List.mem_flatMap.mpr ⟨l, hsub l hl, hx⟩) y (List.mem_flatMap.mpr ⟨l', hsub l' hl', hy⟩)
  keys_ne_zero k hk := by
    obtain ⟨l, hl, hk⟩ := List.mem_flatMap.mp hk
    exact h.keys_ne_zero k (List.mem_flatMap.mpr ⟨l, hsub l hl, hk⟩)

theorem field_mem {o : Nat} (ho : o < 7) : fieldLocation id o ∈ ticketLocations id n :=
  List.mem_append_left _ (List.mem_map.mpr ⟨o, List.mem_range.mpr ho, rfl⟩)

theorem calldata_mem {i : Nat} (hi : i ≤ n) : calldataLocation id i ∈ ticketLocations id n :=
  List.mem_append_right _ (List.mem_map.mpr ⟨i, List.mem_range.mpr (by omega), rfl⟩)

section Live

variable {ls : List Location} (hsep : Separates keccak256 ls)
  (hticket : ∀ l ∈ ticketLocations id n, l ∈ ls)

include hsep hticket

/-- A word of the call data is in no field's slot. -/
theorem not_fieldSlot {i : Nat} (hi : i ≤ n) :
    ¬ FieldSlot keccak256 id ((calldataLocation id i).slot keccak256) := by
  rintro ⟨o, ho, heq⟩
  exact Location.slot_ne_of_path hsep (hticket _ (field_mem (List.mem_range.mp ho)))
    (hticket _ (calldata_mem hi)) (subspace_opened (.retryable id)) (subspace_opened (.calldata id))
    (retryable_path_ne_calldata id) heq.symm

theorem not_calldataSlot (hn : n < 2 ^ 64) {i k : Nat} (hki : k < i) (hi : i ≤ n) :
    ¬ CalldataSlot keccak256 id k ((calldataLocation id i).slot keccak256) := by
  rintro ⟨j, hj, heq⟩
  exact Location.slot_ne_of_offset hsep (subspace_opened (.calldata id))
    (hticket _ (calldata_mem hi)) (hticket _ (calldata_mem (by omega))) (by omega) (by omega)
    (by omega) heq

end Live

variable {timeout : Nat} {fromAddr : Address} {toAddr : Option Address} {callvalue : U256}
  {beneficiary : Address} {calldata : Bytes}

theorem sload_set {s : U256} (hsize : (internalOpen keccak256 id).calldata.loadU64 keccak256 st 0 = 0)
    (hs : ¬ CalldataSlot keccak256 id (wordCount calldata) s) :
    sload ((internalOpen keccak256 id).calldata.set keccak256 st calldata) arbosStateAddress s =
      sload st arbosStateAddress s := by
  have hne : ∀ i ≤ wordCount calldata,
      s ≠ (internalOpen keccak256 id).calldata.slot keccak256 i := fun i hi heq => hs ⟨i, hi, heq⟩
  rw [StorageBackedBytes.set, sload_storeChunks_of_ne _ rfl
    (fun i hi => hne (1 + i) (by omega)), storeU64, storeWord,
    sload_sstore_ne _ _ (hne 0 (Nat.zero_le _))]
  refine (zeroed_clear hsize arbosStateAddress s).2 ?_
  rintro ⟨-, i, hi, heq⟩
  exact hne i (by omega) heq

theorem sload_writeFields {s : U256} (hfield : ¬ FieldSlot keccak256 id s) :
    sload (writeFields st (internalOpen keccak256 id) fromAddr toAddr callvalue beneficiary)
      arbosStateAddress s = sload st arbosStateAddress s := by
  have hne : ∀ o ∈ List.range 7, s ≠ (fieldLocation id o).slot keccak256 :=
    fun o ho heq => hfield ⟨o, ho, heq⟩
  refine (sload_sstore_ne _ _ (hne 4 (by simp))).trans ((sload_sstore_ne _ _ (hne 3 (by simp))).trans
    ((sload_sstore_ne _ _ (hne 2 (by simp))).trans ((sload_sstore_ne _ _ (hne 1 (by simp))).trans ?_)))
  exact sload_sstore_ne _ _ (hne 0 (by simp))

theorem loadU64_of_zero (h : sload st arbosStateAddress ((calldataLocation id 0).slot keccak256) = 0) :
    (internalOpen keccak256 id).calldata.loadU64 keccak256 st 0 = 0 := by
  change (if (sload st arbosStateAddress ((calldataLocation id 0).slot keccak256)).toNat < 2 ^ 64 then
    (sload st arbosStateAddress ((calldataLocation id 0).slot keccak256)).toNat else 0) = 0
  rw [h]
  rfl

/-- A creation on blank slots writes no word behind its call data. -/
theorem sload_writeTicket {s : U256} (hfield : ¬ FieldSlot keccak256 id s)
    (hfree : ¬ FieldSlot keccak256 id ((calldataLocation id 0).slot keccak256))
    (hempty : sload st arbosStateAddress ((calldataLocation id 0).slot keccak256) = 0)
    (hs : ¬ CalldataSlot keccak256 id (wordCount calldata) s) :
    sload (writeTicket keccak256 st id timeout fromAddr toAddr callvalue beneficiary calldata)
      arbosStateAddress s = sload st arbosStateAddress s := by
  have hne : ∀ o ∈ List.range 7, s ≠ (fieldLocation id o).slot keccak256 :=
    fun o ho heq => hfield ⟨o, ho, heq⟩
  have hsize : (internalOpen keccak256 id).calldata.loadU64 keccak256
      (writeFields st (internalOpen keccak256 id) fromAddr toAddr callvalue beneficiary) 0 = 0 :=
    loadU64_of_zero ((sload_writeFields hfree).trans hempty)
  exact (sload_sstore_ne _ _ (hne 6 (by simp))).trans ((sload_sstore_ne _ _ (hne 5 (by simp))).trans
    ((sload_set hsize hs).trans (sload_writeFields hfield)))

/-! ## Creating again -/

/-- The two storages agree on these slots of the ArbOS account. -/
def AgreeOn (slots : U256 → Prop) (st st' : Backend) : Prop :=
  ∀ s, slots s → sload st arbosStateAddress s = sload st' arbosStateAddress s

variable {slots : U256 → Prop}

theorem AgreeOn.sstore (h : AgreeOn slots st st') (slot value : U256) :
    AgreeOn slots (sstore st arbosStateAddress slot value) (sstore st' arbosStateAddress slot value) := by
  intro s hs
  by_cases heq : s = slot
  · rw [heq, sload_sstore_self, sload_sstore_self]
  · rw [sload_sstore_ne _ _ heq, sload_sstore_ne _ _ heq]
    exact h s hs

theorem AgreeOn.storeChunks (b : StorageBackedBytes) (hb : b.account = arbosStateAddress) (k : Nat)
    {remaining : Bytes} {offset : Nat} (h : AgreeOn slots st st') :
    AgreeOn slots (b.storeChunks keccak256 k st remaining offset)
      (b.storeChunks keccak256 k st' remaining offset) := by
  induction k generalizing st st' remaining offset with
  | zero =>
    unfold StorageBackedBytes.storeChunks
    split
    · exact h
    · rw [storeWord, storeWord, hb]
      exact h.sstore _ _
  | succ k ih =>
    refine ih ?_
    rw [storeWord, storeWord, hb]
    exact h.sstore _ _

theorem AgreeOn.foldl {α : Type} (slot : α → U256) (as : List α) (h : AgreeOn slots st st') :
    AgreeOn slots (as.foldl (fun st a => Arbreth.sstore st arbosStateAddress (slot a) 0) st)
      (as.foldl (fun st a => Arbreth.sstore st arbosStateAddress (slot a) 0) st') := by
  induction as generalizing st st' with
  | nil => exact h
  | cons a as ih => exact ih (h.sstore _ _)

/-- A creation asks the storage for the old length of the call data and for the queue's counter. -/
theorem AgreeOn.createRetryable (h : AgreeOn slots st st')
    (hlength : slots ((calldataLocation id 0).slot keccak256))
    (hqueue : slots ((queueLocation 0).slot keccak256)) :
    AgreeOn slots
      (createRetryable keccak256 st id timeout fromAddr toAddr callvalue beneficiary calldata)
      (createRetryable keccak256 st' id timeout fromAddr toAddr callvalue beneficiary calldata) := by
  have hfields : AgreeOn slots
      (writeFields st (internalOpen keccak256 id) fromAddr toAddr callvalue beneficiary)
      (writeFields st' (internalOpen keccak256 id) fromAddr toAddr callvalue beneficiary) :=
    ((((h.sstore _ _).sstore _ _).sstore _ _).sstore _ _).sstore _ _
  have hset : ∀ {st st'}, AgreeOn slots st st' →
      AgreeOn slots ((internalOpen keccak256 id).calldata.set keccak256 st calldata)
        ((internalOpen keccak256 id).calldata.set keccak256 st' calldata) := by
    intro st st' h
    refine AgreeOn.storeChunks _ rfl _ (AgreeOn.sstore ?_ _ _)
    rw [StorageBackedBytes.clear, StorageBackedBytes.clear, loadU64_congr (h _ hlength),
      clearChunks_eq_foldl _ rfl, clearChunks_eq_foldl _ rfl]
    exact (h.foldl _ _).sstore _ _
  have hticket := ((hset hfields).sstore ((fieldLocation id 5).slot keccak256)
    (BitVec.ofNat 256 timeout)).sstore ((fieldLocation id 6).slot keccak256) (BitVec.ofNat 256 0)
  have hput : (nextPut keccak256).get
        (writeTicket keccak256 st id timeout fromAddr toAddr callvalue beneficiary calldata) =
      (nextPut keccak256).get
        (writeTicket keccak256 st' id timeout fromAddr toAddr callvalue beneficiary calldata) := by
    have hword := hticket _ hqueue
    simp only [StorageBackedUint64.get]
    exact congrArg (fun w : U256 => if w.toNat < 2 ^ 64 then w.toNat else 0) hword
  unfold Arbreth.Retryable.createRetryable putQueue
  rw [hput]
  exact (hticket.sstore _ _).sstore _ _

/-! ## Nothing is left -/

theorem other_ticket_path {id' : B256} (hne : id' ≠ id) :
    (Subspace.retryable id').path ≠ (Subspace.retryable id).path ∧
      (Subspace.calldata id').path ≠ (Subspace.calldata id).path := by
  have hkey : (Subspace.retryable id').path ≠ (Subspace.retryable id).path := by
    intro h
    injection h with _ hkey
    exact hne (wordBytes_inj hkey)
  refine ⟨hkey, fun h => hkey ?_⟩
  injection h

section Run

variable {put : Nat} {steps : List LaterStep} {others : List Location}
  (hsep : Separates keccak256 (ticketLocations id n ++ writtenAfter id put steps ++ others))

theorem ticket_mem : ∀ l ∈ ticketLocations id n,
    l ∈ ticketLocations id n ++ writtenAfter id put steps ++ others :=
  fun _ hl => List.mem_append_left _ (List.mem_append_left _ hl)

theorem calldataLocations_mem (hwords : wordCount calldata ≤ n) :
    ∀ l ∈ calldataLocations id calldata, l ∈ ticketLocations id n := by
  intro l hl
  obtain ⟨i, hi, rfl⟩ := List.mem_map.mp hl
  exact calldata_mem (by have := List.mem_range.mp hi; omega)

include hsep

theorem separates_calldata (hwords : wordCount calldata ≤ n) :
    Separates keccak256 (calldataLocations id calldata ++ writtenAfter id put steps) :=
  Separates.subset hsep fun l hl => List.mem_append_left others
    (List.mem_append.mpr ((List.mem_append.mp hl).imp_left (calldataLocations_mem hwords l)))

/-- The words behind the call data of a live ticket are zero: a string of `n` words would take
    them all, and what is written later leaves such a string alone. -/
theorem behind_zero (hn : n < 2 ^ 64) (hsteps : ∀ s ∈ steps, s.Elsewhere id)
    (hblank : Blank keccak256 id n st)
    (hput : (nextPut keccak256).get
      (writeTicket keccak256 st id timeout fromAddr toAddr callvalue beneficiary calldata) = put)
    {i : Nat} (hlt : wordCount calldata < i) (hi : i ≤ n) :
    sload (steps.foldl (laterStep keccak256 id)
        (createRetryable keccak256 st id timeout fromAddr toAddr callvalue beneficiary calldata))
      arbosStateAddress ((calldataLocation id i).slot keccak256) = 0 := by
  have hpad : wordCount (List.replicate (32 * n) 0) = n := by
    rw [wordCount, List.length_replicate]
    omega
  have hpart := separates_calldata hsep hpad.le
  have hsame := (sameCalldata_putQueue hpart hsteps _ hput).trans
    (sameCalldata_run hpart hsteps _ fun _ h => h)
  calc sload _ arbosStateAddress ((calldataLocation id i).slot keccak256)
      = sload (writeTicket keccak256 st id timeout fromAddr toAddr callvalue beneficiary calldata)
          arbosStateAddress ((calldataLocation id i).slot keccak256) := hsame i (hi.trans hpad.ge)
    _ = sload st arbosStateAddress ((calldataLocation id i).slot keccak256) :=
        sload_writeTicket (not_fieldSlot hsep ticket_mem hi)
          (not_fieldSlot hsep ticket_mem (Nat.zero_le n)) (hblank _ (calldata_mem (Nat.zero_le n)))
          (not_calldataSlot hsep ticket_mem hn hlt hi)
    _ = 0 := hblank _ (calldata_mem hi)

variable {k : Nat} {live : Backend}
  (hzero : Zeroed (fun s => FieldSlot keccak256 id s ∨ CalldataSlot keccak256 id k s) live st')

include hzero

theorem blank_of_zeroed (hn : n < 2 ^ 64) (hbehind : ∀ i, k < i → i ≤ n →
      sload live arbosStateAddress ((calldataLocation id i).slot keccak256) = 0) :
    Blank keccak256 id n st' := by
  intro l hl
  obtain hl | hl := List.mem_append.mp hl
  · obtain ⟨o, ho, rfl⟩ := List.mem_map.mp hl
    exact (hzero _ _).1 ⟨rfl, .inl ⟨o, ho, rfl⟩⟩
  · obtain ⟨i, hi, rfl⟩ := List.mem_map.mp hl
    have hi : i ≤ n := by have := List.mem_range.mp hi; omega
    by_cases hle : i ≤ k
    · exact (hzero _ _).1 ⟨rfl, .inr ⟨i, hle, rfl⟩⟩
    · have hlt := Nat.not_le.mp hle
      exact ((hzero _ _).2 fun h => h.2.elim (not_fieldSlot hsep ticket_mem hi)
        (not_calldataSlot hsep ticket_mem hn hlt hi)).trans (hbehind i hlt hi)

theorem kept_of_zeroed (hk : k ≤ n) {l : Location} (hl : l ∈ others) (hopened : l.path.Opened)
    (hfield : l.path ≠ (Subspace.retryable id).path) (hdata : l.path ≠ (Subspace.calldata id).path) :
    sload st' arbosStateAddress (l.slot keccak256) =
      sload live arbosStateAddress (l.slot keccak256) := by
  have hmem := List.mem_append_right (ticketLocations id n ++ writtenAfter id put steps) hl
  refine (hzero _ _).2 ?_
  rintro ⟨-, ⟨o, ho, heq⟩ | ⟨i, hi, heq⟩⟩
  · exact Location.slot_ne_of_path hsep hmem (ticket_mem _ (field_mem (List.mem_range.mp ho)))
      hopened (subspace_opened (.retryable id)) hfield heq
  · exact Location.slot_ne_of_path hsep hmem (ticket_mem _ (calldata_mem (hi.trans hk))) hopened
      (subspace_opened (.calldata id)) hdata heq

end Run

theorem length_lt_of_wordCount {data : Bytes} (hdata : wordCount data ≤ n)
    (hn : 32 * n < 2 ^ 64) : data.length < 2 ^ 64 := by
  rw [wordCount] at hdata
  omega

/-- A ticket with a word and a byte of call data, retried once. -/
def retriedTicket : Backend :=
  [LaterStep.incrementNumTries].foldl (laterStep hornerHash 7) (createRetryable hornerHash
    (fun _ _ => 0) 7 100 1 none 0 2 (List.replicate 33 9))

theorem cleared_retriedTicket :
    Slots.Cleared hornerHash retriedTicket 7 (clearTicketFields hornerHash retriedTicket 7) := by
  have htimeout : (internalOpen hornerHash 7).timeout.get retriedTicket ≠ 0 := by decide +kernel
  refine .inl ⟨fun _ _ => true, ?_⟩
  unfold Slots.deleteRetryable
  rw [if_neg htimeout, if_pos rfl]

theorem separates_retriedTicket : Separates hornerHash
    (ticketLocations 7 2 ++ writtenAfter 7 0 [.incrementNumTries] ++ [fieldLocation 8 0]) := by
  have hkeys : ((ticketLocations 7 2 ++ writtenAfter 7 0 [.incrementNumTries] ++
      [fieldLocation 8 0]).flatMap (fun l => l.path.keys hornerHash)).all (· != 0) = true := by
    decide +kernel
  exact ⟨by decide +kernel, fun k hk => bne_iff_ne.mp (List.all_eq_true.mp hkeys k hk)⟩

end Arbreth.Retryable
