/-
  The flush of a program's storage cache (arb-stylus, evm_api_impl.rs: StorageCache,
  flush_storage_cache; host.rs: storage_flush_cache; arb-evm, evm.rs: execute_stylus_program;
  arbos, programs/mod.rs: attribute_wasm_computation).

  The written slots are stored one after the other in the order in which a hash map yields them,
  until the gas does not pay for the next one. A cache is the list of its slots in that order,
  with no key twice. What the flush charges, how it ends and what it leaves in storage do not
  depend on the order. The gas recorded of each kind does, since the slots stored before the gas
  ran out are recorded and the others are not. `flush_orders_agree_iff` says exactly when.

  As in `Arbreth.Stylus.SStore`, sums of gas and refunds are not cut off.
-/
import Arbreth.Lib.Budget
import Arbreth.Stylus.SStore

namespace Arbreth.Stylus

open Arbreth.Lib
open Arbreth.L2Pricing (MultiGas)

/-! ## The journal and the cache -/

/-- A storage slot of the journal. -/
structure JournalSlot where
  original : U256
  present : U256
  warm : Bool
  deriving DecidableEq

/-- The slots of one account. -/
abbrev JournalStorage := B256 → JournalSlot

/-- What `sstore` reports. -/
def JournalStorage.info (s : JournalStorage) (key value : B256) : SStoreInfo :=
  ⟨!(s key).warm, (s key).original, (s key).present, value⟩

/-- What `sstore` leaves. -/
def JournalStorage.sstore (s : JournalStorage) (key value : B256) : JournalStorage :=
  fun k => if k = key then { s key with present := value, warm := true } else s k

/-- `StorageCacheEntry`. -/
structure StorageCacheEntry where
  value : B256
  known : Option B256
  deriving DecidableEq

/-- `StorageCacheEntry::dirty`. -/
def StorageCacheEntry.dirty (e : StorageCacheEntry) : Bool := e.known ≠ some e.value

/-- `StorageCache`, in the order in which its map yields the slots. -/
structure StorageCache where
  slots : List (B256 × StorageCacheEntry)
  distinct : (slots.map Prod.fst).Nodup

namespace StorageCache

/-- The slots that have to be stored, with their values. -/
def dirty (c : StorageCache) : List (B256 × B256) :=
  (c.slots.filter (·.2.dirty)).map fun s => (s.1, s.2.value)

/-- All slots are known to be in storage. -/
def allKnown (c : StorageCache) : StorageCache where
  slots := c.slots.map fun s => (s.1, { s.2 with known := some s.2.value })
  distinct := by
    rw [List.map_map]
    exact c.distinct

/-- The same slots in another order. -/
def Reorders (c d : StorageCache) : Prop := c.slots.Perm d.slots

end StorageCache

/-! ## The flush -/

/-- `UserOutcomeKind`, as far as a flush reports it. -/
inductive FlushOutcome where
  | success
  | failure
  | outOfInk
  deriving DecidableEq

/-- What the host functions of a program know: its version of ArbOS, the price of a unit of gas
    in ink and whether the frame is static. -/
structure HostEnv where
  arbosVersion : Nat
  inkPrice : Nat
  readOnly : Bool

/-- The part of `StylusEvmApi` a flush reads and changes. -/
structure HostState where
  storage : JournalStorage
  cache : StorageCache
  sstoreRefund : Int
  multiGas : MultiGas

/-- The variables of the loop. -/
structure FlushLoop where
  storage : JournalStorage
  totalGas : Nat
  remaining : Nat
  sstoreRefund : Int
  multiGas : MultiGas
  isOutOfGas : Bool

/-- The loop over the written slots. -/
def flushSlots (gasLeft : Nat) : List (B256 × B256) → FlushLoop → FlushLoop
  | [], s => s
  | (key, value) :: dirty, s =>
    let info := s.storage.info key value
    let storage := s.storage.sstore key value
    if s.remaining < sstoreGasCost info then
      { s with storage := storage, totalGas := gasLeft, isOutOfGas := true }
    else
      flushSlots gasLeft dirty
        { storage := storage
          totalGas := s.totalGas + sstoreGasCost info
          remaining := s.remaining - sstoreGasCost info
          sstoreRefund := s.sstoreRefund + sstoreRefund info
          multiGas := addMultiGas s.multiGas (stateStore info)
          isOutOfGas := s.isOutOfGas }

/-- `flush_storage_cache`. -/
def flushStorageCache (env : HostEnv) (clear : Bool) (gasLeft : Nat) (api : HostState) :
    HostState × Nat × FlushOutcome :=
  let dirty := api.cache.dirty
  let api := { api with cache := if clear then ⟨[], List.nodup_nil⟩ else api.cache.allKnown }
  if dirty = [] then (api, 0, .success)
  else if env.readOnly then (api, 0, .failure)
  else
    let s := flushSlots gasLeft dirty
      ⟨api.storage, 0, gasLeft, api.sstoreRefund, api.multiGas, false⟩
    let api := { api with
      storage := s.storage, sstoreRefund := s.sstoreRefund, multiGas := s.multiGas }
    if s.isOutOfGas ∨ s.remaining = 0 then
      (api, s.totalGas, if env.arbosVersion < 50 then .failure else .outOfInk)
    else (api, s.totalGas, .success)

/-- `STORAGE_FLUSH_BASE_INK`. -/
def storageFlushBaseInk : Nat := 8400 + 59673

/-- `SSTORE_SENTRY_GAS`. -/
def sstoreSentryGas : Nat := 2300

/-- `gas_to_ink`. -/
def HostEnv.gasToInk (env : HostEnv) (gas : Nat) : Nat := satMul64 gas env.inkPrice

/-- How a host function ends: the program goes on, runs out of ink, or fails with ink left. -/
inductive HostEnd where
  | ok (ink : Nat)
  | outOfInk
  | failed (ink : Nat)
  deriving DecidableEq

/-- `buy_gas`, and then the given end. -/
def HostEnv.buyGas (env : HostEnv) (ink gas : Nat) (next : Nat → HostEnd) : HostEnd :=
  if ink < env.gasToInk gas then .outOfInk else next (ink - env.gasToInk gas)

/-- What is charged for a flush that was not a failure. -/
def HostEnv.settle (env : HostEnv) (ink gasCost : Nat) (next : Nat → HostEnd) : HostEnd :=
  if 32 ≤ env.arbosVersion then env.buyGas ink gasCost next else next ink

/-- `storage_flush_cache`. -/
def storageFlushCache (env : HostEnv) (clear : Bool) (ink : Nat) (api : HostState) :
    HostState × HostEnd :=
  if ink < storageFlushBaseInk then (api, .outOfInk)
  else
    let ink := ink - storageFlushBaseInk
    if ink < env.gasToInk sstoreSentryGas then (api, .outOfInk)
    else
      let (api, gasCost, status) := flushStorageCache env clear (ink / env.inkPrice + 1) api
      match status with
      | .success => (api, env.settle ink gasCost .ok)
      | .failure => (api, .failed ink)
      | .outOfInk => (api, env.settle ink gasCost .failed)

/-! ## The gas handed on -/

/-- `attribute_wasm_computation`. -/
def attributeWasmComputation (used : MultiGas) (startingGas gasLeft : Nat) : MultiGas where
  gas k :=
    if k = .wasmComputation then used.gas k + (startingGas - gasLeft - used.sum) else used.gas k

/-- What `execute_stylus_program` knows of the frame besides the flush: its gas, the gas handed to
    calls before the flush, what the output costs as EVM memory if that is charged, and how the
    program goes on after a flush that succeeds: from the storage, the refund, the recorded gas
    and the ink, to the recorded gas, the gas handed to calls and the gas left at its end. -/
structure ProgramFrame where
  totalGas : Nat
  subCallGas : Nat
  outputCost : Option Nat
  rest : JournalStorage → Int → MultiGas → Nat → MultiGas × Nat × Nat

/-- The gas left of a program that failed. -/
def ProgramFrame.gasLeft (frame : ProgramFrame) (gas : Nat) : Nat :=
  match frame.outputCost with
  | none => gas
  | some cost => if frame.totalGas < cost then 0 else min gas (frame.totalGas - cost)

/-- The argument of `add_stylus_multi_gas`. -/
def ProgramFrame.handedOn (frame : ProgramFrame) (env : HostEnv) (r : HostState × HostEnd) :
    MultiGas :=
  match r.2 with
  | .ok ink =>
    let (used, subCallGas, left) := frame.rest r.1.storage r.1.sstoreRefund r.1.multiGas ink
    attributeWasmComputation used (frame.totalGas - subCallGas) left
  | .outOfInk => attributeWasmComputation r.1.multiGas (frame.totalGas - frame.subCallGas) 0
  | .failed ink =>
    attributeWasmComputation r.1.multiGas (frame.totalGas - frame.subCallGas)
      (frame.gasLeft (ink / env.inkPrice))

/-! ## What should hold -/

/-- The reports of the writes, if each is made in the storage before the flush. -/
def flushInfos (s : JournalStorage) (c : StorageCache) : List SStoreInfo :=
  c.dirty.map fun w => s.info w.1 w.2

/-- The cost of all writes. -/
def flushCost (s : JournalStorage) (c : StorageCache) : Nat :=
  ((flushInfos s c).map sstoreGasCost).sum

/-- The gas that is left for the writes. -/
def HostEnv.available (env : HostEnv) (ink : Nat) : Nat :=
  (ink - storageFlushBaseInk) / env.inkPrice

def HostEnd.isOk : HostEnd → Bool
  | .ok _ => true
  | _ => false

/-- Two flushes that cannot be told apart: the same end with the same ink left, the same storage
    and refund where they succeed, and the same gas handed on. -/
structure FlushesAgree (frame : ProgramFrame) (env : HostEnv) (r r' : HostState × HostEnd) :
    Prop where
  ending : r.2 = r'.2
  stored : r.2.isOk = true → r.1.storage = r'.1.storage ∧ r.1.sstoreRefund = r'.1.sstoreRefund
  handed : frame.handedOn env r = frame.handedOn env r'

/-- All orders of a cache agree, and the flush succeeds exactly when the writes can be paid. -/
def OrdersAgree (frame : ProgramFrame) (env : HostEnv) (clear : Bool) (ink : Nat)
    (api : HostState) : Prop :=
  ∀ c d : StorageCache, c.Reorders api.cache → d.Reorders api.cache →
    FlushesAgree frame env (storageFlushCache env clear ink { api with cache := c })
      (storageFlushCache env clear ink { api with cache := d }) ∧
    ((storageFlushCache env clear ink { api with cache := c }).2.isOk = true ↔
      flushCost api.storage api.cache ≤ env.available ink)

/-- The flush gets to the writes. -/
def HostEnv.Reaches (env : HostEnv) (ink : Nat) : Prop :=
  storageFlushBaseInk ≤ ink ∧ env.gasToInk sstoreSentryGas ≤ ink - storageFlushBaseInk

/-- Where the writes can be paid they are made: the ink of the flush is there, and a static frame
    has nothing to write. -/
def PaidAreMade (env : HostEnv) (ink : Nat) (api : HostState) : Prop :=
  flushCost api.storage api.cache ≤ env.available ink →
    env.Reaches ink ∧ (env.readOnly = true → api.cache.dirty = [])

/-- Where the writes are begun and cannot be paid, either none can be paid, or all are recorded
    as gas of the same kinds. -/
def ShortIsUniform (env : HostEnv) (ink : Nat) (api : HostState) : Prop :=
  env.Reaches ink → env.readOnly = false →
    env.available ink + 1 < flushCost api.storage api.cache →
      (∀ i ∈ flushInfos api.storage api.cache, env.available ink + 1 < sstoreGasCost i) ∨
        ∀ i ∈ flushInfos api.storage api.cache, ∀ j ∈ flushInfos api.storage api.cache,
          stateStore i = stateStore j

end Arbreth.Stylus
