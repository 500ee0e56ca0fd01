/-
  Stylus programs and the price of their data (arbos, programs/mod.rs, programs/data_pricer.rs;
  arb-math, lib.rs).

  A program is one storage word under its code hash; `fromStorage_toStorage` says what of a
  record survives the word. Of the parameters those are kept that activation and keepalive
  read, of the storage what the two write.
-/
import Arbreth.Lib.Machine

namespace Arbreth.Stylus

open Arbreth.Lib

/-- `u32::MAX`. -/
def u32Max : Nat := 2 ^ 32 - 1

/-- `ARBITRUM_START_TIME`. -/
def arbitrumStartTime : Nat := 1421388000

/-- `hours_since_arbitrum`. -/
def hoursSinceArbitrum (time : Nat) : BitVec 32 :=
  BitVec.ofNat 32 (min ((time - arbitrumStartTime) / 3600) u32Max)

/-- `hours_to_age`. -/
def hoursToAge (time : Nat) (hours : BitVec 32) : Nat :=
  time - satAdd64 arbitrumStartTime (satMul64 hours.toNat 3600)

/-- Per-program metadata. The age is not stored. -/
structure Program where
  version : BitVec 16
  initCost : BitVec 16
  cachedCost : BitVec 16
  footprint : BitVec 16
  asmEstimateKb : BitVec 32
  activatedAt : BitVec 32
  ageSeconds : Nat
  cached : Bool
  deriving DecidableEq

namespace Program

/-- `from_storage`: the fields from the word's high end down. -/
def fromStorage (data : B256) (time : Nat) : Program :=
  let activatedAt := BitVec.ofNat 32 (data.toNat / 2 ^ 168 % 2 ^ 24)
  { version := BitVec.ofNat 16 (data.toNat / 2 ^ 240)
    initCost := BitVec.ofNat 16 (data.toNat / 2 ^ 224)
    cachedCost := BitVec.ofNat 16 (data.toNat / 2 ^ 208)
    footprint := BitVec.ofNat 16 (data.toNat / 2 ^ 192)
    asmEstimateKb := BitVec.ofNat 32 (data.toNat / 2 ^ 144 % 2 ^ 24)
    activatedAt
    ageSeconds := hoursToAge time activatedAt
    cached := data.toNat / 2 ^ 136 % 2 ^ 8 != 0 }

/-- The word's bits as a number: both 32-bit fields are cut to 24. -/
def storageBits (p : Program) : Nat :=
  p.version.toNat * 2 ^ 240 + p.initCost.toNat * 2 ^ 224 + p.cachedCost.toNat * 2 ^ 208 +
    p.footprint.toNat * 2 ^ 192 + p.activatedAt.toNat % 2 ^ 24 * 2 ^ 168 +
    p.asmEstimateKb.toNat % 2 ^ 24 * 2 ^ 144 + p.cached.toNat * 2 ^ 136

/-- `to_storage`. -/
def toStorage (p : Program) : B256 := BitVec.ofNat 256 p.storageBits

/-- `asm_size`. -/
def asmSize (p : Program) : Nat := min (p.asmEstimateKb.toNat * 1024) u32Max

theorem toNat_toStorage (p : Program) : p.toStorage.toNat = p.storageBits := by
  have h1 := p.version.isLt
  have h2 := p.initCost.isLt
  have h3 := p.cachedCost.isLt
  have h4 := p.footprint.isLt
  have h5 := p.cached.toNat_le
  rw [toStorage, BitVec.toNat_ofNat]
  refine Nat.mod_eq_of_lt ?_
  unfold storageBits
  omega

/-- A record read back: the two times are cut to 24 bits, the age is taken at the reading. -/
theorem fromStorage_toStorage (p : Program) (time : Nat) :
    fromStorage p.toStorage time =
      { p with
        asmEstimateKb := BitVec.ofNat 32 (p.asmEstimateKb.toNat % 2 ^ 24)
        activatedAt := BitVec.ofNat 32 (p.activatedAt.toNat % 2 ^ 24)
        ageSeconds := hoursToAge time (BitVec.ofNat 32 (p.activatedAt.toNat % 2 ^ 24)) } := by
  obtain ⟨version, initCost, cachedCost, footprint, asmEstimateKb, activatedAt, ageSeconds, cached⟩ := p
  have h1 := version.isLt
  have h2 := initCost.isLt
  have h3 := cachedCost.isLt
  have h4 := footprint.isLt
  have h5 := cached.toNat_le
  unfold fromStorage
  rw [toNat_toStorage]
  generalize hbits : storageBits _ = bits
  unfold storageBits at hbits
  dsimp only at hbits ⊢
  have hfields : bits / 2 ^ 240 = version.toNat ∧ bits / 2 ^ 224 % 2 ^ 16 = initCost.toNat ∧
      bits / 2 ^ 208 % 2 ^ 16 = cachedCost.toNat ∧ bits / 2 ^ 192 % 2 ^ 16 = footprint.toNat ∧
      bits / 2 ^ 168 % 2 ^ 24 = activatedAt.toNat % 2 ^ 24 ∧
      bits / 2 ^ 144 % 2 ^ 24 = asmEstimateKb.toNat % 2 ^ 24 ∧
      bits / 2 ^ 136 % 2 ^ 8 = cached.toNat := by
    refine ⟨?_, ?_, ?_, ?_, ?_, ?_, ?_⟩ <;> omega
  obtain ⟨hversion, hinit, hcost, hfoot, hactivated, hasm, hcached⟩ := hfields
  rw [hversion, hactivated, hasm, hcached, BitVec.ofNat_toNat, BitVec.setWidth_eq, Program.mk.injEq]
  refine ⟨rfl, ?_, ?_, ?_, rfl, rfl, rfl, ?_⟩
  · exact BitVec.eq_of_toNat_eq ((BitVec.toNat_ofNat ..).trans hinit)
  · exact BitVec.eq_of_toNat_eq ((BitVec.toNat_ofNat ..).trans hcost)
  · exact BitVec.eq_of_toNat_eq ((BitVec.toNat_ofNat ..).trans hfoot)
  · cases cached with
    | false => rfl
    | true => rfl

end Program

/-! ## The price of program data -/

/-- `ONE_IN_BIPS`. -/
def oneInBips : Nat := 10000

/-- The loop of `approx_exp_basis_points`, from term `i` down. -/
def expLoop (bips : Nat) : Nat → Nat → Nat
  | 0, res => res
  | i + 1, res => expLoop bips i (satAdd64 oneInBips (satMul64 res bips / ((i + 1) * oneInBips)))

/-- `approx_exp_basis_points`. -/
def approxExpBasisPoints (bips accuracy : Nat) : Nat :=
  if bips = 0 ∨ accuracy = 0 then oneInBips
  else expLoop bips (accuracy - 1) (satAdd64 oneInBips (bips / accuracy))

/-- `saturating_mul_by_bips`. -/
def saturatingMulByBips (value bips : Nat) : Nat := min (value * bips / oneInBips) u64Max

/-- `DataPricer`. -/
structure DataPricer where
  demand : Nat
  bytesPerSecond : Nat
  lastUpdateTime : Nat
  minPrice : Nat
  inertia : Nat

/-- `update_model`: the cost of `tempBytes` and the pricer after them. -/
def DataPricer.updateModel (d : DataPricer) (tempBytes time : Nat) : U256 × DataPricer :=
  if d.inertia = 0 then (0, d)
  else
    let passed := (time - d.lastUpdateTime) % 2 ^ 32
    let credit := min (d.bytesPerSecond * passed) u32Max
    let demand := min (d.demand - credit + tempBytes) u32Max
    let exponent := oneInBips * demand / d.inertia
    let costPerByte := saturatingMulByBips d.minPrice (approxExpBasisPoints exponent 12)
    (BitVec.ofNat 256 (satMul64 costPerByte tempBytes), { d with demand, lastUpdateTime := time })

/-! ## The programs' storage -/

/-- The parameters activation and keepalive read. -/
structure StylusParams where
  version : BitVec 16
  pageLimit : BitVec 16
  expiryDays : BitVec 16
  keepaliveDays : BitVec 16
  maxWasmSize : Nat
  maxFragmentCount : Nat

/-- `Programs`: parameters, program words and module hashes by code hash, the data pricer. -/
structure Programs where
  params : StylusParams
  words : B256 → B256
  moduleHashes : B256 → B256
  dataPricer : DataPricer
  activationGas : Nat

namespace Programs

/-- `get_program`. -/
def getProgram (ps : Programs) (codeHash : B256) (time : Nat) : Program :=
  Program.fromStorage (ps.words codeHash) time

/-- `set_program`. -/
def setProgram (ps : Programs) (codeHash : B256) (p : Program) : Programs :=
  { ps with words := Function.update ps.words codeHash p.toStorage }

/-- `set_module_hash`. -/
def setModuleHash (ps : Programs) (codeHash moduleHash : B256) : Programs :=
  { ps with moduleHashes := Function.update ps.moduleHashes codeHash moduleHash }

@[simp] theorem words_setProgram (ps : Programs) (codeHash : B256) (p : Program) :
    (ps.setProgram codeHash p).words codeHash = p.toStorage := Function.update_self ..

end Programs

end Arbreth.Stylus
