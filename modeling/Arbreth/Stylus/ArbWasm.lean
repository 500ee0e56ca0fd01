/-
  The payable methods of ArbWasm (arb-precompiles, arbwasm.rs).

  `activateProgram` and `codehashKeepalive` check the program, write its word, price its data
  and only then compare the gas they used with the gas they were given. The checks and writes
  are `prepareActivation` and `prepareKeepalive`, the common end is `settleFee`. What a call of
  the outermost frame owes is not moved by the precompile: it is left in the transaction's
  scratch, which no revert undoes. The account's code, brotli and the prover are parameters;
  the events are left out but for their gas.
-/
import Arbreth.Stylus.Programs

namespace Arbreth.Stylus

open Arbreth.Lib

/-! ## Results and gas -/

/-- The Solidity errors of the two methods. -/
inductive WasmError where
  | programUpToDate
  | programNotWasm
  | programInsufficientValue (have' want : U256)
  | programNotActivated
  | programNeedsUpgrade (version stylusVersion : BitVec 16)
  | programExpired (ageInSeconds : Nat)
  | programKeepaliveTooSoon (ageInSeconds : Nat)

/-- The length of `abi_encode`: a selector and a word for each argument. -/
def WasmError.encodedLength : WasmError → Nat
  | programUpToDate => 4
  | programNotWasm => 4
  | programInsufficientValue _ _ => 68
  | programNotActivated => 4
  | programNeedsUpgrade _ _ => 68
  | programExpired _ => 36
  | programKeepaliveTooSoon _ => 36

/-- `PrecompileResult`: an output, a revert with an error or empty, or one of the two failures
    that take all gas. -/
inductive PrecompileResult where
  | success (gasUsed : Nat) (output : List U256)
  | reverted (gasUsed : Nat) (error : Option WasmError)
  | outOfGas
  | other (message : String)

def PrecompileResult.isSuccess : PrecompileResult → Bool
  | success _ _ => true
  | _ => false

def sloadGas : Nat := 800
def sstoreGas : Nat := 20000
def copyGas : Nat := 3
def warmSloadGas : Nat := 100
def activationUpfrontGas : Nat := 1659168

/-- A run of `charge_precompile_gas`, each saturating. -/
def charge (gasUsed : Nat) (costs : List Nat) : Nat := costs.foldl satAdd64 gasUsed

/-- What the precompile is called with. -/
structure WasmInput where
  gas : Nat
  dataLength : Nat
  value : U256
  caller : Address

/-- What the precompile reads of the block and of the transaction. -/
structure WasmCtx where
  arbosVersion : Nat
  blockTimestamp : Nat
  networkFeeAccount : Address
  stylusCallValue : U256

/-- The argument copy: three gas a word, selector apart. -/
def argsCost (i : WasmInput) : Nat := copyGas * ((i.dataLength - 4 + 31) / 32)

/-- `revert_sol_error`. -/
def revertSolError (i : WasmInput) (gasUsed : Nat) (error : WasmError) : PrecompileResult :=
  let gasUsed := charge gasUsed [copyGas * ((error.encodedLength + 31) / 32)]
  if i.gas < gasUsed then .outOfGas else .reverted gasUsed (some error)

theorem isSuccess_revertSolError (i : WasmInput) (gasUsed : Nat) (error : WasmError) :
    (revertSolError i gasUsed error).isSuccess = false := by
  unfold revertSolError
  dsimp only
  split
  · rfl
  · rfl

/-! ## Checks and writes -/

/-- `ActivationInfo`. -/
structure ActivationInfo where
  moduleHash : B256
  initGas : BitVec 16
  cachedInitGas : BitVec 16
  asmEstimate : BitVec 32
  footprint : BitVec 16

/-- What activation asks of the state and of arb-stylus. `readWasm` is the reconstruction from
    fragments or the inline decompression with the gas used before and after it; the prover
    returns the gas it left. -/
structure WasmHost where
  codeHash : Address → B256
  code : Address → Bytes
  isStylusDeployable : Bytes → Nat → Bool
  isStylusFragment : Bytes → Bool
  readWasm : Bytes → StylusParams → Nat → Nat → Nat × Option Bytes
  activateProgram : Bytes → B256 → BitVec 16 → Nat → BitVec 16 → Nat → Option (ActivationInfo × Nat)

/-- A call that has passed its checks: the gas used so far, the storage it has written, the
    program and the fee its data costs. -/
structure FeeDue where
  gasUsed : Nat
  programs : Programs
  codeHash : B256
  program : Program
  dataFee : U256

/-- Price `size` bytes and store the program: five reads and two writes for the pricer, one
    write for the word. -/
def writeProgram (c : WasmCtx) (ps : Programs) (gasUsed size : Nat) (codeHash : B256)
    (program : Program) : FeeDue :=
  let (dataFee, dataPricer) := ps.dataPricer.updateModel size c.blockTimestamp
  { gasUsed := charge gasUsed [5 * sloadGas, 2 * sstoreGas, sstoreGas]
    programs := { ps with dataPricer }.setProgram codeHash program
    codeHash
    program
    dataFee }

/-- Activation once the prover has accepted the module. -/
def storeActivation (c : WasmCtx) (ps : Programs) (gasUsed : Nat) (codeHash : B256)
    (info : ActivationInfo) : FeeDue :=
  let existing := ps.getProgram codeHash c.blockTimestamp
  -- A cached program's old module hash is read so that its cache entry can be dropped.
  let gasUsed := if existing.cached then charge gasUsed [sloadGas] else gasUsed
  writeProgram c (ps.setModuleHash codeHash info.moduleHash) (charge gasUsed [sstoreGas])
    info.asmEstimate.toNat codeHash
    { version := ps.params.version
      initCost := info.initGas
      cachedCost := info.cachedInitGas
      footprint := info.footprint
      asmEstimateKb := BitVec.ofNat 32 (min ((info.asmEstimate.toNat + 1023) / 1024) 0xFFFFFF)
      activatedAt := hoursSinceArbitrum c.blockTimestamp
      ageSeconds := 0
      cached := existing.cached }

/-- `handle_activate_program` up to the comparison of the value with the fee. -/
def prepareActivation (e : WasmHost) (c : WasmCtx) (i : WasmInput) (ps : Programs)
    (programAddress : Address) : Except PrecompileResult FeeDue :=
  let gasUsed := charge 0 [argsCost i, sloadGas]
  let gasUsed := if 59 ≤ c.arbosVersion then charge gasUsed [sloadGas, ps.activationGas] else gasUsed
  let gasUsed := charge gasUsed [activationUpfrontGas, warmSloadGas, sloadGas]
  let codeHash := e.codeHash programAddress
  let code := e.code programAddress
  let existing := ps.getProgram codeHash c.blockTimestamp
  if existing.version = ps.params.version ∧
      existing.ageSeconds ≤ ps.params.expiryDays.toNat * 86400 then
    .error (revertSolError i gasUsed .programUpToDate)
  else if code = [] then .error (revertSolError i gasUsed .programNotWasm)
  else if e.isStylusDeployable code c.arbosVersion = false then
    if c.arbosVersion < 60 ∨ e.isStylusFragment code then .error (.reverted (min gasUsed i.gas) none)
    else .error (revertSolError i gasUsed .programNotWasm)
  else
    match e.readWasm code ps.params gasUsed i.gas with
    | (gasUsed, none) => .error (.reverted (min gasUsed i.gas) none)
    | (gasUsed, some wasm) =>
      let gasAvailable := i.gas - gasUsed
      match e.activateProgram wasm codeHash ps.params.version c.arbosVersion ps.params.pageLimit
          gasAvailable with
      | none => .error (.other "revert")
      | some (info, gasLeft) =>
        .ok (storeActivation c ps (charge gasUsed [gasAvailable - gasLeft]) codeHash info)

/-- `handle_codehash_keepalive` up to the comparison of the value with the fee. -/
def prepareKeepalive (c : WasmCtx) (i : WasmInput) (ps : Programs) (codehash : B256) :
    Except PrecompileResult FeeDue :=
  let program := ps.getProgram codehash c.blockTimestamp
  let gasUsed := charge 0 [argsCost i, warmSloadGas, 2 * sloadGas]
  let age := hoursToAge c.blockTimestamp program.activatedAt
  if program.version = 0 then .error (revertSolError i gasUsed .programNotActivated)
  else if program.version ≠ ps.params.version then
    .error (revertSolError i gasUsed (.programNeedsUpgrade program.version ps.params.version))
  else if ps.params.expiryDays.toNat * 86400 < age then
    .error (revertSolError i gasUsed (.programExpired age))
  else if age < ps.params.keepaliveDays.toNat * 86400 then
    .error (revertSolError i gasUsed (.programKeepaliveTooSoon age))
  else
    .ok (writeProgram c ps gasUsed program.asmSize codehash
      { program with activatedAt := hoursSinceArbitrum c.blockTimestamp, ageSeconds := 0 })

/-- The two methods. -/
inductive WasmCall where
  | activateProgram (program : Address)
  | codehashKeepalive (codehash : B256)

def prepare (e : WasmHost) (c : WasmCtx) (i : WasmInput) (ps : Programs) :
    WasmCall → Except PrecompileResult FeeDue
  | .activateProgram program => prepareActivation e c i ps program
  | .codehashKeepalive codehash => prepareKeepalive c i ps codehash

/-! ## The fee -/

/-- The transaction's scratch for the two methods. -/
structure StylusScratch where
  activationAddr : Option Address
  keepaliveHash : Option B256
  activationDataFee : U256

/-- As `reset_tx` leaves it. -/
def StylusScratch.fresh : StylusScratch := ⟨none, none, 0⟩

/-- The fee the executor takes after the run. -/
def StylusScratch.takeDataFee (s : StylusScratch) : U256 :=
  if s.activationAddr.isSome ∨ s.keepaliveHash.isSome then s.activationDataFee else 0

/-- Record the method in the scratch. -/
def WasmCall.mark (call : WasmCall) (s : StylusScratch) : StylusScratch :=
  match call with
  | activateProgram program => { s with activationAddr := some program }
  | codehashKeepalive codehash => { s with keepaliveHash := some codehash }

/-- Event and return data: 128 and 64 bytes of an activation, 32 and none of a keepalive. -/
def WasmCall.outputGas : WasmCall → List Nat
  | activateProgram _ => [375 + 2 * 375 + 8 * 128, copyGas * 2]
  | codehashKeepalive _ => [375 + 2 * 375 + 8 * 32]

def WasmCall.output (call : WasmCall) (d : FeeDue) : List U256 :=
  match call with
  | activateProgram _ => [d.program.version.setWidth 256, d.dataFee]
  | codehashKeepalive _ => []

/-- What a call leaves behind: storage and transfers in the journal, the scratch outside it. -/
structure WasmOutcome where
  result : PrecompileResult
  programs : Programs
  transfers : List (Address × U256)
  scratch : StylusScratch

/-- The value the fee is compared with: the call's own, else the one stashed for the outermost
    call. -/
def effectiveValue (c : WasmCtx) (i : WasmInput) : U256 :=
  if 0 < i.value then i.value else c.stylusCallValue

/-- The gas of the whole call. -/
def totalGas (call : WasmCall) (d : FeeDue) : Nat := charge d.gasUsed (sloadGas :: call.outputGas)

/-- The common end of the two methods. The gas is compared last, after the scratch is written. -/
def settleFee (c : WasmCtx) (i : WasmInput) (s : StylusScratch) (call : WasmCall) (d : FeeDue) :
    WasmOutcome :=
  let value := effectiveValue c i
  if value < d.dataFee then
    ⟨revertSolError i d.gasUsed (.programInsufficientValue value d.dataFee), d.programs, [], s⟩
  else
    let repay := satSub256 i.value d.dataFee
    { result :=
        if i.gas < totalGas call d then .outOfGas else .success (totalGas call d) (call.output d)
      programs := d.programs
      transfers :=
        if 0 < i.value then
          (c.networkFeeAccount, d.dataFee) :: if 0 < repay then [(i.caller, repay)] else []
        else []
      scratch :=
        if 0 < i.value then call.mark s
        else { call.mark s with activationDataFee := d.dataFee } }

/-- A call of one of the two methods. Before ArbOS 30 the precompile is not there. -/
def handle (e : WasmHost) (c : WasmCtx) (i : WasmInput) (ps : Programs) (s : StylusScratch)
    (call : WasmCall) : WasmOutcome :=
  if c.arbosVersion < 30 then ⟨.success 0 [], ps, [], s⟩
  else
    match prepare e c i ps call with
    | .error r => ⟨r, ps, [], s⟩
    | .ok d => settleFee c i s call d

/-! ## What a call can do -/

variable {e : WasmHost} {c : WasmCtx} {i : WasmInput} {ps : Programs} {call : WasmCall} {d : FeeDue}

/-- Checks end in a failure or with the program's word in the storage. -/
def Prepared : Except PrecompileResult FeeDue → Prop
  | .error r => r.isSuccess = false
  | .ok d => d.programs.words d.codeHash = d.program.toStorage

theorem prepared_revertSolError (i : WasmInput) (gasUsed : Nat) (error : WasmError) :
    Prepared (.error (revertSolError i gasUsed error)) := isSuccess_revertSolError i gasUsed error

theorem prepared_writeProgram (c : WasmCtx) (ps : Programs) (gasUsed size : Nat) (codeHash : B256)
    (program : Program) : Prepared (.ok (writeProgram c ps gasUsed size codeHash program)) :=
  Programs.words_setProgram _ _ _

theorem prepared_prepare (e : WasmHost) (c : WasmCtx) (i : WasmInput) (ps : Programs)
    (call : WasmCall) : Prepared (prepare e c i ps call) := by
  cases call with
  | activateProgram program =>
    unfold prepare prepareActivation
    dsimp only
    split
    · exact prepared_revertSolError ..
    split
    · exact prepared_revertSolError ..
    split
    · split
      · exact rfl
      · exact prepared_revertSolError ..
    split
    · exact rfl
    split
    · exact rfl
    · exact prepared_writeProgram ..
  | codehashKeepalive codehash =>
    unfold prepare prepareKeepalive
    dsimp only
    split
    · exact prepared_revertSolError ..
    split
    · exact prepared_revertSolError ..
    split
    · exact prepared_revertSolError ..
    split
    · exact prepared_revertSolError ..
    · exact prepared_writeProgram ..

/-- What a call owes: nothing before ArbOS 30 or when a check fails. -/
def due (e : WasmHost) (c : WasmCtx) (i : WasmInput) (ps : Programs) (call : WasmCall) :
    Option FeeDue :=
  if c.arbosVersion < 30 then none else (prepare e c i ps call).toOption

theorem handle_of_due_none (hdue : due e c i ps call = none) (s : StylusScratch) :
    (handle e c i ps s call).scratch = s := by
  unfold due at hdue
  unfold handle
  split
  · rfl
  · next hversion =>
    rw [if_neg hversion] at hdue
    cases hprepare : prepare e c i ps call with
    | error r => rfl
    | ok d =>
      rw [hprepare] at hdue
      cases hdue

theorem handle_of_due (hdue : due e c i ps call = some d) (s : StylusScratch) :
    handle e c i ps s call = settleFee c i s call d ∧ prepare e c i ps call = .ok d := by
  unfold due at hdue
  unfold handle
  split at hdue
  · cases hdue
  · next hversion =>
    rw [if_neg hversion]
    cases hprepare : prepare e c i ps call with
    | error r =>
      rw [hprepare] at hdue
      cases hdue
    | ok d' =>
      rw [hprepare] at hdue
      cases hdue
      exact ⟨rfl, rfl⟩

/-- A call from the outermost frame, which carries no value of its own, leaves its fee in the
    scratch whenever the stashed value covers it. -/
theorem takeDataFee_settleFee (hvalue : i.value = 0) :
    (settleFee c i .fresh call d).scratch.takeDataFee =
      if c.stylusCallValue < d.dataFee then 0 else d.dataFee := by
  have heffective : effectiveValue c i = c.stylusCallValue := by
    rw [effectiveValue, hvalue, if_neg (by decide)]
  have hnone : ¬ (0 : U256) < i.value := by
    rw [hvalue]
    decide
  unfold settleFee
  dsimp only
  rw [heffective, if_neg hnone, if_neg hnone]
  split
  · rfl
  · cases call with
    | activateProgram program => rfl
    | codehashKeepalive codehash => rfl

/-- It succeeds exactly if the gas suffices too. -/
theorem isSuccess_settleFee (hvalue : i.value = 0) (s : StylusScratch) :
    (settleFee c i s call d).result.isSuccess = true ↔
      ¬ c.stylusCallValue < d.dataFee ∧ totalGas call d ≤ i.gas := by
  have heffective : effectiveValue c i = c.stylusCallValue := by
    rw [effectiveValue, hvalue, if_neg (by decide)]
  unfold settleFee
  dsimp only
  rw [heffective]
  split
  · next hshort =>
    rw [isSuccess_revertSolError]
    exact iff_of_false Bool.false_ne_true fun h => h.1 hshort
  · next hcovers =>
    split
    · next hgas => exact iff_of_false Bool.false_ne_true fun h => Nat.not_le_of_lt hgas h.2
    · next hgas => exact iff_of_true rfl ⟨hcovers, Nat.le_of_not_lt hgas⟩

theorem programs_settleFee (s : StylusScratch) : (settleFee c i s call d).programs = d.programs := by
  unfold settleFee
  dsimp only
  split
  · rfl
  · rfl

end Arbreth.Stylus
