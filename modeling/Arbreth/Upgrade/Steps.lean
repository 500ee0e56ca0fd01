/-
  Upgrades of the ArbOS version (arbos, arbos_state/mod.rs and initialize.rs).

  `upgradeArbosVersion` runs the steps from the version in memory up to the wanted one and
  then stores the version. A step reads and writes a few fields of the state, sets account
  codes and nonces, and reads one balance; while it runs, the versions in memory are still
  those before it. `openState` reads the stored version into memory.

  The fields have slots of their own, so the state is modelled by its fields; every other
  location of the ArbOS state is in `rest`. The stored version is kept apart (`World.version`),
  since no step reads or writes it. Of the locations that `bootstrap` initialises for the
  parts of ArbOS, no field here is one; what it writes there is a parameter (`writes`).
-/
import Arbreth.Storage.AddressSet
import Arbreth.Storage.Layout
import Arbreth.Stylus.Programs
import Arbreth.Upgrade.Params

namespace Arbreth.Upgrade

open Function

open Arbreth.Lib Arbreth.Storage

/-! ## The state -/

/-- What the steps read and write. -/
structure Core where
  lastSurplus : U256
  perBatchGasCost : Int
  amortizedCostCapBips : Nat
  l1FeesAvailable : U256
  chainOwners : AddressSet
  brotliCompressionLevel : Nat
  params : U256
  dataPricer : Stylus.DataPricer
  perTxGasLimit : Nat
  transactionFilterers : AddressSet
  rest : Location → U256
  code : Address → Bytes
  nonce : Address → Nat
  balance : Address → U256

/-- The state with the stored version. -/
structure World where
  version : Nat
  core : Core

/-- `ArbosState`: the versions in memory, that of the state and those of its parts. -/
structure ArbosState where
  arbosVersion : Nat
  programs : Nat
  l1Pricing : Nat
  l2Pricing : Nat
  retryables : Nat
  deriving DecidableEq

/-- All copies of the version in memory. -/
def ArbosState.ofVersion (v : Nat) : ArbosState := ⟨v, v, v, v, v⟩

inductive ArbosStateError where
  | uninitialised
  | unsupportedVersion (version : Nat)
  | unsupportedRunningVersion (version : Nat)
  | invalidBrotliCompressionLevel
  | programs (error : ProgramsError)
  deriving DecidableEq

/-- `MAX_ARBOS_VERSION_SUPPORTED`. -/
def maxArbosVersionSupported : Nat := 60

/-- `FILTERED_TX_STATE_ADDRESS`. -/
def filteredTxStateAddress : Address := 0xa4b0500000000000000000000000000000000001

/-- `HISTORY_STORAGE_ADDRESS`. -/
def historyStorageAddress : Address := 0x0000F90827F1C53a10cb7A02335B175320002935

/-- `L1_PRICER_FUNDS_POOL_ADDRESS`. -/
def l1PricerFundsPoolAddress : Address := 0xa4b00000000000000000000000000000000000f6

/-- `HISTORY_STORAGE_CODE_ARBITRUM`. -/
def historyStorageCodeArbitrum : Bytes :=
  beBytes 32 0x3373fffffffffffffffffffffffffffffffffffffffe1460605760203603605c ++
  beBytes 32 0x575f3563a3b1b31d5f5260205f6004601c60645afa15605c575f516001810382 ++
  beBytes 32 0x11605c57816205ffd0910311605c576205ffd09006545f5260205ff35b5f5ffd ++
  beBytes 32 0x5b5f356205ffd0600163a3b1b31d5f5260205f6004601c60645afa15605c575f ++
  beBytes 5 0x5103065500

/-- `PRECOMPILE_MIN_ARBOS_VERSIONS`. -/
def precompileMinArbosVersions : List (Address × Nat) :=
  [(0x71, 30), (0x72, 30), (0x73, 41), (0x74, 60)]

/-- `init_data_pricer`. -/
def initialDataPricer : Stylus.DataPricer :=
  ⟨0, 2 ^ 40 / (365 * 24) / (60 * 60), Stylus.arbitrumStartTime, 82928201, 21360419⟩

/-- The nonce `open` gives to the account of the filtered transactions. -/
def Core.setFilteredNonce (c : Core) : Core :=
  { c with nonce := update c.nonce filteredTxStateAddress 1 }

/-- `ArbosState::open`. -/
def openState (w : World) : Except ArbosStateError (ArbosState × World) :=
  if w.version = 0 then .error .uninitialised
  else if maxArbosVersionSupported < w.version then .error (.unsupportedVersion w.version)
  else
    .ok (.ofVersion w.version,
      if 60 ≤ w.version then { w with core := w.core.setFilteredNonce } else w)

/-! ## Setters -/

namespace Core

/-- `set_last_surplus`, which does nothing before version 7. -/
def setLastSurplus (s : ArbosState) (c : Core) (magnitude : U256) (negative : Bool) : Core :=
  if s.l1Pricing < 7 then c
  else { c with lastSurplus := if negative then -magnitude else magnitude }

/-- `set_brotli_compression_level`. -/
def setBrotliCompressionLevel (c : Core) (level : Nat) : Except ArbosStateError Core :=
  if 11 < level then .error .invalidBrotliCompressionLevel
  else .ok { c with brotliCompressionLevel := level }

/-- Load the parameters with the version in memory, change them, and save them. -/
def updateParams (s : ArbosState) (c : Core)
    (upgrade : StylusParams → Except ProgramsError StylusParams) : Except ArbosStateError Core :=
  match upgrade (StylusParams.load s.programs c.params) with
  | .error e => .error (.programs e)
  | .ok p => .ok { c with params := p.saved }

/-- The account of the EIP-2935 history contract. -/
def installHistory (c : Core) : Core :=
  { c with
    nonce := update c.nonce historyStorageAddress 1
    code := update c.code historyStorageAddress historyStorageCodeArbitrum }

/-- The code of the precompiles a version introduces. -/
def installPrecompiles (c : Core) (version : Nat) : Core :=
  { c with
    code := precompileMinArbosVersions.foldl
      (fun code entry => if entry.2 = version then update code entry.1 [0xFE] else code)
      c.code }

end Core

/-! ## The upgrade -/

/-- The arm of one version in `upgrade_arbos_version`. -/
def upgradeArm (s : ArbosState) (c : Core) (next : Nat) (firstTime : Bool) :
    Except ArbosStateError Core :=
  if next = 2 then .ok (c.setLastSurplus s 0 false)
  else if next = 3 then .ok { c with perBatchGasCost := 0, amortizedCostCapBips := u64Max }
  else if 4 ≤ next ∧ next ≤ 9 then .ok c
  else if next = 10 then .ok { c with l1FeesAvailable := c.balance l1PricerFundsPoolAddress }
  else if next = 11 then
    .ok { c with
      perBatchGasCost := 210000
      amortizedCostCapBips :=
        if c.amortizedCostCapBips = u64Max then 0 else c.amortizedCostCapBips
      chainOwners := if firstTime then c.chainOwners else c.chainOwners.clearList }
  else if 12 ≤ next ∧ next ≤ 19 then .ok c
  else if next = 20 then c.setBrotliCompressionLevel 1
  else if 21 ≤ next ∧ next ≤ 29 then .ok c
  else if next = 30 then
    .ok { c with params := (StylusParams.initial next).saved, dataPricer := initialDataPricer }
  else if next = 31 then c.updateParams s (·.upgradeToVersion 2)
  else if 32 ≤ next ∧ next ≤ 39 then .ok c
  else if next = 40 then c.installHistory.updateParams s (·.upgradeToArbosVersion next)
  else if 41 ≤ next ∧ next ≤ 49 then .ok c
  else if next = 50 then
    (c.updateParams s (·.upgradeToArbosVersion next)).map ({ · with perTxGasLimit := 32000000 })
  else if 51 ≤ next ∧ next ≤ 58 then .ok c
  else if next = 59 then c.updateParams s (·.upgradeToVersion 3)
  else if next = 60 then
    (c.updateParams s (·.upgradeToArbosVersion next)).map fun c =>
      { c with transactionFilterers := { c.transactionFilterers with size := 0 } }
  else .error (.unsupportedRunningVersion next)

/-- One turn of the loop, up to the versions in memory. -/
def upgradeStep (s : ArbosState) (c : Core) (firstTime : Bool) : Except ArbosStateError Core :=
  (upgradeArm s c (s.arbosVersion + 1) firstTime).map (·.installPrecompiles (s.arbosVersion + 1))

/-- The loop, for a number of turns. -/
def upgradeLoop (firstTime : Bool) :
    Nat → ArbosState → Core → Except ArbosStateError (ArbosState × Core)
  | 0, s, c => .ok (s, c)
  | n + 1, s, c => do
      let c ← upgradeStep s c firstTime
      upgradeLoop firstTime n (.ofVersion (s.arbosVersion + 1)) c

/-- What a chain that starts at version 6 or later gets on top. -/
def firstTimeExtras (c : Core) (upgradeTo : Nat) : Core :=
  { c with
    perBatchGasCost := if upgradeTo < 11 then 100000 else c.perBatchGasCost
    rest := update (update (update c.rest
      ⟨Subspace.l1Pricing.path, .offset 1⟩ 160000000)
      ⟨Subspace.l2Pricing.path, .offset 0⟩ 7000000)
      ⟨Subspace.l2Pricing.path, .offset 1⟩ 32000000 }

/-- `upgrade_arbos_version`; the loop runs while the version in memory is below the wanted
    one. -/
def upgradeArbosVersion (s : ArbosState) (w : World) (upgradeTo : Nat) (firstTime : Bool) :
    Except ArbosStateError (ArbosState × World) := do
  let (s, core) ← upgradeLoop firstTime (upgradeTo - s.arbosVersion) s w.core
  let core := if firstTime ∧ 6 ≤ upgradeTo then firstTimeExtras core upgradeTo else core
  return (s, ⟨s.arbosVersion, core⟩)

/-- `bootstrap`. -/
def bootstrap (w : World) (writes : List (Location × U256)) (targetArbosVersion : Nat) :
    Except ArbosStateError (ArbosState × World) := do
  let core :=
    { w.core with
      nonce := update w.core.nonce arbosStateAddress 1
      rest := writes.foldl (fun rest entry => update rest entry.1 entry.2) w.core.rest }
  let (s, w) ← openState ⟨1, core⟩
  upgradeArbosVersion s w targetArbosVersion true

end Arbreth.Upgrade
