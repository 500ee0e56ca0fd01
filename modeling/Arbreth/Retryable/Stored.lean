/-
  A retryable ticket in its slots (arbos, retryables/mod.rs; arb-storage, queue.rs).

  A ticket has a subspace of its own below the retryables, named by its id, with one slot for
  each field, and its call data in a subspace below that. `createRetryable` writes the fields
  and puts the id into the timeout queue.

  What happens to a live ticket later is said by `LaterStep`: its tries are counted, a window
  is added (`keepalive`) or turned into a later timeout (the reaper), and everything else
  writes elsewhere, in any subspace ArbOS opens or in another account. A run of these steps
  covers every later state in which the ticket was neither cleared nor created again, and all
  of them leave the call data alone (`holds_calldata`).
-/
import Arbreth.Retryable.Model
import Arbreth.Storage.Fields

namespace Arbreth.Retryable

open Arbreth.Lib Arbreth.Exec StorageBackedBytes

section Hash

variable (keccak256 : Bytes → B256)

/-- The handles of a ticket's fields, the struct `Retryable`. -/
structure RetryableHandle where
  id : B256
  numTries : StorageBackedUint64
  fromAddr : StorageBackedAddress
  toAddr : StorageBackedAddressOrNil
  callvalue : StorageBackedBigUint
  beneficiary : StorageBackedAddress
  calldata : StorageBackedBytes
  timeout : StorageBackedUint64
  timeoutWindowsLeft : StorageBackedUint64

/-- The storage `RetryableState` is opened with. -/
def retryables : Storage := Path.retryables.storage keccak256

/-- `internal_open`. -/
def internalOpen (id : B256) : RetryableHandle :=
  let sto := (retryables keccak256).openSubStorage keccak256 (wordBytes id)
  let baseKey := sto.baseKey
  let calldataKey := (sto.openSubStorage keccak256 [1]).baseKey
  { id := id
    numTries := .new keccak256 baseKey 0
    fromAddr := .new keccak256 baseKey 1
    toAddr := .new keccak256 baseKey 2
    callvalue := .new keccak256 baseKey 3
    beneficiary := .new keccak256 baseKey 4
    calldata := .new calldataKey
    timeout := .new keccak256 baseKey 5
    timeoutWindowsLeft := .new keccak256 baseKey 6 }

/-- The key of the timeout queue. -/
def timeoutQueue : Storage := (retryables keccak256).openSubStorage keccak256 [0]

/-- The queue's `next_put`. -/
def nextPut : StorageBackedUint64 := .new keccak256 (timeoutQueue keccak256).baseKey 0

/-- `Queue::put`. -/
def putQueue (st : Backend) (value : B256) : Backend :=
  let put := (nextPut keccak256).get st
  let st := sstore st arbosStateAddress ((timeoutQueue keccak256).newSlot keccak256 put) value
  (nextPut keccak256).set st (wrap64 (put + 1))

/-- The fields of `create_retryable` up to the call data. -/
def writeFields (st : Backend) (ret : RetryableHandle) (fromAddr : Address) (toAddr : Option Address)
    (callvalue : U256) (beneficiary : Address) : Backend :=
  let st := ret.numTries.set st 0
  let st := ret.fromAddr.set st fromAddr
  let st := ret.toAddr.set st toAddr
  let st := ret.callvalue.set st callvalue
  ret.beneficiary.set st beneficiary

/-- `create_retryable` before the ticket is queued. -/
def writeTicket (st : Backend) (id : B256) (timeout : Nat) (fromAddr : Address)
    (toAddr : Option Address) (callvalue : U256) (beneficiary : Address) (calldata : Bytes) : Backend :=
  let ret := internalOpen keccak256 id
  let st := writeFields st ret fromAddr toAddr callvalue beneficiary
  let st := ret.calldata.set keccak256 st calldata
  let st := ret.timeout.set st timeout
  ret.timeoutWindowsLeft.set st 0

/-- `create_retryable`. -/
def createRetryable (st : Backend) (id : B256) (timeout : Nat) (fromAddr : Address)
    (toAddr : Option Address) (callvalue : U256) (beneficiary : Address) (calldata : Bytes) : Backend :=
  putQueue keccak256
    (writeTicket keccak256 st id timeout fromAddr toAddr callvalue beneficiary calldata) id

/-! ## Later states -/

/-- What can happen to the storage while a ticket lives. -/
inductive LaterStep where
  | incrementNumTries
  | incrementTimeoutWindows
  | extendTimeout
  | write (l : Location) (value : U256)
  | foreign (account : Address) (slot value : U256)

/-- One step, for the ticket `id`. -/
def laterStep (id : B256) (st : Backend) : LaterStep → Backend
  | .incrementNumTries =>
    let ret := internalOpen keccak256 id
    ret.numTries.set st (wrap64 (ret.numTries.get st + 1))
  | .incrementTimeoutWindows =>
    let ret := internalOpen keccak256 id
    ret.timeoutWindowsLeft.set st (wrap64 (ret.timeoutWindowsLeft.get st + 1))
  | .extendTimeout =>
    let ret := internalOpen keccak256 id
    let st' := ret.timeout.set st (wrap64 (ret.timeout.get st + retryableLifetimeSeconds))
    ret.timeoutWindowsLeft.set st' (ret.timeoutWindowsLeft.get st - 1)
  | .write l value => sstore st arbosStateAddress (l.slot keccak256) value
  | .foreign account slot value => sstore st account slot value

/-- The field of a ticket at an offset. -/
def fieldLocation (id : B256) (offset : Nat) : Location :=
  ⟨(Subspace.retryable id).path, .offset offset⟩

/-- A word of a ticket's call data. -/
def calldataLocation (id : B256) (offset : Nat) : Location :=
  ⟨(Subspace.calldata id).path, .offset offset⟩

def queueLocation (offset : Nat) : Location := ⟨Subspace.timeoutQueue.path, .offset offset⟩

/-- The step is not a write to the ticket itself. -/
def LaterStep.Elsewhere (id : B256) : LaterStep → Prop
  | .write l _ => l.path.Opened ∧ l.path ≠ (Subspace.retryable id).path ∧
      l.path ≠ (Subspace.calldata id).path
  | .foreign account _ _ => account ≠ arbosStateAddress
  | _ => True

/-- The location a step names. -/
def LaterStep.location : LaterStep → Option Location
  | .write l _ => some l
  | _ => none

end Hash

/-- What is written after the call data: the numbers of the ticket, the queue, and the
    locations of the later writes. -/
def writtenAfter (id : B256) (put : Nat) (steps : List LaterStep) : List Location :=
  [fieldLocation id 0, fieldLocation id 5, fieldLocation id 6, queueLocation 0, queueLocation put] ++
    steps.filterMap LaterStep.location

/-- The words of a call data. -/
def calldataLocations (id : B256) (calldata : Bytes) : List Location :=
  (List.range (wordCount calldata + 1)).map (calldataLocation id)

/-! ## The call data stays -/

theorem subspace_opened (s : Subspace) : s.path.Opened := ⟨s, rfl⟩

theorem retryable_path_ne_calldata (id : B256) :
    (Subspace.retryable id).path ≠ (Subspace.calldata id).path := by
  intro h
  cases h

theorem queue_path_ne_calldata (id : B256) :
    Subspace.timeoutQueue.path ≠ (Subspace.calldata id).path := by
  intro h
  cases h

/-- What is written after the call data lies in other subspaces. -/
theorem written_elsewhere {id : B256} {put : Nat} {steps : List LaterStep}
    (hsteps : ∀ s ∈ steps, s.Elsewhere id) {l : Location} (hl : l ∈ writtenAfter id put steps) :
    l.path.Opened ∧ l.path ≠ (Subspace.calldata id).path := by
  rcases List.mem_append.mp hl with hl | hl
  · simp only [List.mem_cons, List.not_mem_nil, or_false] at hl
    rcases hl with rfl | rfl | rfl | rfl | rfl
    iterate 3 exact ⟨subspace_opened (.retryable id), retryable_path_ne_calldata id⟩
    iterate 2 exact ⟨subspace_opened .timeoutQueue, queue_path_ne_calldata id⟩
  · obtain ⟨s, hs, hloc⟩ := List.mem_filterMap.mp hl
    have helse := hsteps s hs
    cases s with
    | write l' value =>
      cases hloc
      exact ⟨helse.1, helse.2.2⟩
    | incrementNumTries | incrementTimeoutWindows | extendTimeout | foreign => cases hloc

variable {keccak256 : Bytes → B256} {id : B256} {calldata : Bytes}

/-- The words of the call data are the same in both states. -/
def SameCalldata (keccak256 : Bytes → B256) (id : B256) (calldata : Bytes) (st st' : Backend) :
    Prop :=
  ∀ i, i ≤ wordCount calldata →
    sload st' arbosStateAddress ((calldataLocation id i).slot keccak256) =
      sload st arbosStateAddress ((calldataLocation id i).slot keccak256)

theorem SameCalldata.trans {st st' st'' : Backend} (h : SameCalldata keccak256 id calldata st st')
    (h' : SameCalldata keccak256 id calldata st' st'') : SameCalldata keccak256 id calldata st st'' :=
  fun i hi => (h' i hi).trans (h i hi)

theorem mem_calldataLocations {i : Nat} (hi : i ≤ wordCount calldata) :
    calldataLocation id i ∈ calldataLocations id calldata :=
  List.mem_map.mpr ⟨i, List.mem_range.mpr (by omega), rfl⟩

section Run

variable {put : Nat} {steps : List LaterStep}
  (hsep : Separates keccak256 (calldataLocations id calldata ++ writtenAfter id put steps))
  (hsteps : ∀ s ∈ steps, s.Elsewhere id)

include hsep hsteps

/-- One write after the call data leaves it alone. -/
theorem sameCalldata_sstore {l : Location} (hl : l ∈ writtenAfter id put steps) (st : Backend)
    (value : U256) :
    SameCalldata keccak256 id calldata st (sstore st arbosStateAddress (l.slot keccak256) value) := by
  intro i hi
  obtain ⟨hopened, hpath⟩ := written_elsewhere hsteps hl
  exact sload_sstore_ne _ _ (Location.slot_ne_of_path hsep
    (List.mem_append_left _ (mem_calldataLocations hi)) (List.mem_append_right _ hl)
    (subspace_opened (.calldata id)) hopened (Ne.symm hpath))

/-- The fields written later are the tries, the timeout and its windows. -/
theorem sameCalldata_field {offset : Nat} (hoffset : offset = 0 ∨ offset = 5 ∨ offset = 6)
    (st : Backend) (value : U256) :
    SameCalldata keccak256 id calldata st
      (sstore st arbosStateAddress ((fieldLocation id offset).slot keccak256) value) := by
  refine sameCalldata_sstore hsep hsteps (List.mem_append_left _ ?_) st value
  rcases hoffset with rfl | rfl | rfl <;> simp

theorem sameCalldata_laterStep {s : LaterStep} (hs : s ∈ steps) (st : Backend) :
    SameCalldata keccak256 id calldata st (laterStep keccak256 id st s) := by
  cases s with
  | incrementNumTries => exact sameCalldata_field hsep hsteps (.inl rfl) st _
  | incrementTimeoutWindows => exact sameCalldata_field hsep hsteps (.inr (.inr rfl)) st _
  | extendTimeout =>
    exact (sameCalldata_field hsep hsteps (.inr (.inl rfl)) st _).trans
      (sameCalldata_field hsep hsteps (.inr (.inr rfl)) _ _)
  | write l value =>
    refine sameCalldata_sstore hsep hsteps (List.mem_append_right _ ?_) st value
    exact List.mem_filterMap.mpr ⟨_, hs, rfl⟩
  | foreign account slot value =>
    intro i _
    exact sload_sstore_account_ne _ _ _ _ (Ne.symm (hsteps _ hs))

variable (st : Backend)

theorem sameCalldata_run {run : List LaterStep} (hrun : ∀ s ∈ run, s ∈ steps) :
    SameCalldata keccak256 id calldata st (run.foldl (laterStep keccak256 id) st) := by
  induction run generalizing st with
  | nil => exact fun _ _ => rfl
  | cons s run ih =>
    have hhead := sameCalldata_laterStep hsep hsteps (hrun s List.mem_cons_self) st
    exact hhead.trans (ih _ fun s' hs' => hrun s' (List.mem_cons_of_mem _ hs'))

theorem sameCalldata_putQueue (hput : (nextPut keccak256).get st = put) :
    SameCalldata keccak256 id calldata st (putQueue keccak256 st id) := by
  rw [putQueue, hput]
  exact (sameCalldata_sstore (l := queueLocation put) hsep hsteps (by simp [writtenAfter]) st _).trans
    (sameCalldata_sstore (l := queueLocation 0) hsep hsteps (by simp [writtenAfter]) _ _)

/-- After the creation of a ticket and any later steps its call data is stored. -/
theorem holds_calldata {timeout : Nat} {fromAddr : Address} {toAddr : Option Address}
    {callvalue : U256} {beneficiary : Address} (hlen : calldata.length < 2 ^ 64)
    (hput : (nextPut keccak256).get
      (writeTicket keccak256 st id timeout fromAddr toAddr callvalue beneficiary calldata) = put) :
    (internalOpen keccak256 id).calldata.Holds keccak256
      (steps.foldl (laterStep keccak256 id)
        (createRetryable keccak256 st id timeout fromAddr toAddr callvalue beneficiary calldata))
      calldata := by
  have hbound : wordCount calldata < 2 ^ 64 := by
    rw [wordCount]; omega
  have hinj : ∀ i j, i < j → j ≤ wordCount calldata →
      (internalOpen keccak256 id).calldata.slot keccak256 i ≠
        (internalOpen keccak256 id).calldata.slot keccak256 j := fun i j hij hj =>
    Location.slot_ne_of_offset hsep (subspace_opened (.calldata id))
      (List.mem_append_left _ (mem_calldataLocations (by omega)))
      (List.mem_append_left _ (mem_calldataLocations hj)) (by omega) (by omega) (by omega)
  have hset := holds_set
    (writeFields st (internalOpen keccak256 id) fromAddr toAddr callvalue beneficiary) hlen hinj
  refine hset.of_loadWord_eq ?_
  -- then the timeout and its windows, the queue, and the later steps
  exact (((sameCalldata_field hsep hsteps (.inr (.inl rfl)) _ _).trans
    (sameCalldata_field hsep hsteps (.inr (.inr rfl)) _ _)).trans
    (sameCalldata_putQueue hsep hsteps _ hput)).trans
    (sameCalldata_run hsep hsteps _ fun _ h => h)

end Run

end Arbreth.Retryable
