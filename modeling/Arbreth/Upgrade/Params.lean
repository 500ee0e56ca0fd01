/-
  The Stylus parameters in their storage word (arbos, programs/params.rs).

  The parameters are packed into one word, from its high end down. Which of them are there
  depends on the ArbOS version the record carries: `max_wasm_size` from 40 on,
  `max_fragment_count` from 60 on. A record is loaded with the version the node has in memory
  and saved with the version the record says, so that an upgrade reads one layout and may write
  the next (`load_saved`).

  At most 30 bytes are packed, so the reader never goes to a second slot. `page_ramp` is a
  constant that is not stored; it is left out.
-/
import Arbreth.Lib.Bytes

namespace Arbreth.Upgrade

open Arbreth.Lib

/-- `INITIAL_MAX_WASM_SIZE`. -/
def initialMaxWasmSize : BitVec 32 := 128 * 1024

/-- `ARBOS_60_MAX_WASM_SIZE`. -/
def arbos60MaxWasmSize : BitVec 32 := 256 * 1024

/-- `ARBOS_50_MAX_STACK_DEPTH`. -/
def arbos50MaxStackDepth : BitVec 32 := 22000

/-- `StylusParams`. The ink price is stored in 24 bits. -/
structure StylusParams where
  arbosVersion : Nat
  version : BitVec 16
  inkPrice : BitVec 32
  maxStackDepth : BitVec 32
  freePages : BitVec 16
  pageGas : BitVec 16
  pageLimit : BitVec 16
  minInitGas : BitVec 8
  minCachedInitGas : BitVec 8
  initCostScalar : BitVec 8
  cachedCostScalar : BitVec 8
  expiryDays : BitVec 16
  keepaliveDays : BitVec 16
  blockCacheSize : BitVec 16
  maxWasmSize : BitVec 32
  maxFragmentCount : BitVec 8
  deriving DecidableEq

/-- Errors of the parameter upgrades, `InvalidParamsUpgrade` with its text. -/
inductive ProgramsError where
  | invalidParamsUpgrade (text : String)
  deriving DecidableEq

/-! ## The word -/

/-- One read of the packed reader: a big-endian number of `w` bytes, and the bytes after
    it. -/
def takeUint (w : Nat) (buf : Bytes) : Nat × Bytes := (beNat (buf.take w), buf.drop w)

theorem takeUint_append (w n : Nat) (rest : Bytes) :
    takeUint w (beBytes w n ++ rest) = (n % 256 ^ w, rest) := by
  rw [takeUint, List.take_left' (by simp), List.drop_left' (by simp), beNat_beBytes]

namespace StylusParams

/-- `load_from_reader`. -/
def load (arbosVersion : Nat) (word : U256) : StylusParams :=
  let (version, buf) := takeUint 2 (wordBytes word)
  let (inkPrice, buf) := takeUint 3 buf
  let (maxStackDepth, buf) := takeUint 4 buf
  let (freePages, buf) := takeUint 2 buf
  let (pageGas, buf) := takeUint 2 buf
  let (pageLimit, buf) := takeUint 2 buf
  let (minInitGas, buf) := takeUint 1 buf
  let (minCachedInitGas, buf) := takeUint 1 buf
  let (initCostScalar, buf) := takeUint 1 buf
  let (cachedCostScalar, buf) := takeUint 1 buf
  let (expiryDays, buf) := takeUint 2 buf
  let (keepaliveDays, buf) := takeUint 2 buf
  let (blockCacheSize, buf) := takeUint 2 buf
  let (maxWasmSize, buf) :=
    if 40 ≤ arbosVersion then takeUint 4 buf else (initialMaxWasmSize.toNat, buf)
  let maxFragmentCount := if 60 ≤ arbosVersion then (takeUint 1 buf).1 else 0
  { arbosVersion := arbosVersion
    version := BitVec.ofNat 16 version
    inkPrice := BitVec.ofNat 32 inkPrice
    maxStackDepth := BitVec.ofNat 32 maxStackDepth
    freePages := BitVec.ofNat 16 freePages
    pageGas := BitVec.ofNat 16 pageGas
    pageLimit := BitVec.ofNat 16 pageLimit
    minInitGas := BitVec.ofNat 8 minInitGas
    minCachedInitGas := BitVec.ofNat 8 minCachedInitGas
    initCostScalar := BitVec.ofNat 8 initCostScalar
    cachedCostScalar := BitVec.ofNat 8 cachedCostScalar
    expiryDays := BitVec.ofNat 16 expiryDays
    keepaliveDays := BitVec.ofNat 16 keepaliveDays
    blockCacheSize := BitVec.ofNat 16 blockCacheSize
    maxWasmSize := BitVec.ofNat 32 maxWasmSize
    maxFragmentCount := BitVec.ofNat 8 maxFragmentCount }

/-- `encode`, with what the version adds at the end. -/
def encode (p : StylusParams) : Bytes :=
  beBytes 2 p.version.toNat ++ (beBytes 3 p.inkPrice.toNat ++ (beBytes 4 p.maxStackDepth.toNat ++
    (beBytes 2 p.freePages.toNat ++ (beBytes 2 p.pageGas.toNat ++ (beBytes 2 p.pageLimit.toNat ++
    (beBytes 1 p.minInitGas.toNat ++ (beBytes 1 p.minCachedInitGas.toNat ++
    (beBytes 1 p.initCostScalar.toNat ++ (beBytes 1 p.cachedCostScalar.toNat ++
    (beBytes 2 p.expiryDays.toNat ++ (beBytes 2 p.keepaliveDays.toNat ++
    (beBytes 2 p.blockCacheSize.toNat ++
    ((if 40 ≤ p.arbosVersion then beBytes 4 p.maxWasmSize.toNat else []) ++
    if 60 ≤ p.arbosVersion then beBytes 1 p.maxFragmentCount.toNat else [])))))))))))))

/-- `save`: the word of slot 0, the bytes left-aligned. -/
def saved (p : StylusParams) : U256 :=
  wordOfBytes (p.encode ++ List.replicate (32 - p.encode.length) 0)

/-! ## Loading what was saved -/

/-- The layouts of two versions are the same. -/
def SameLayout (v v' : Nat) : Prop := (40 ≤ v ↔ 40 ≤ v') ∧ (60 ≤ v ↔ 60 ≤ v')

/-- What a record of this version has: the fields that are not stored have their defaults. -/
def asOf (p : StylusParams) (v : Nat) : StylusParams :=
  { p with
    arbosVersion := v
    maxWasmSize := if 40 ≤ v then p.maxWasmSize else initialMaxWasmSize
    maxFragmentCount := if 60 ≤ v then p.maxFragmentCount else 0 }

theorem length_encode (p : StylusParams) : p.encode.length ≤ 32 := by
  unfold encode
  split <;> split <;> simp

theorem wordBytes_saved (p : StylusParams) :
    wordBytes p.saved = p.encode ++ List.replicate (32 - p.encode.length) 0 := by
  have hlen := length_encode p
  rw [saved, wordBytes_wordOfBytes]
  rw [List.length_append, List.length_replicate]
  omega

theorem ofNat_toNat_mod {w : Nat} (x : BitVec (8 * w)) :
    BitVec.ofNat (8 * w) (x.toNat % 256 ^ w) = x := by
  have hlt : x.toNat < 256 ^ w := by
    rw [show (256 : Nat) = 2 ^ 8 from rfl, ← Nat.pow_mul]
    exact x.isLt
  rw [Nat.mod_eq_of_lt hlt]
  simp

/-- Loading a saved record gives it back, in the layout it was saved with. -/
theorem load_saved (p : StylusParams) {v : Nat} (hlayout : SameLayout v p.arbosVersion)
    (hink : p.inkPrice.toNat < 2 ^ 24) : load v p.saved = p.asOf v := by
  have h8 : ∀ x : BitVec 8, BitVec.ofNat 8 (x.toNat % 256 ^ 1) = x := ofNat_toNat_mod (w := 1)
  have h16 : ∀ x : BitVec 16, BitVec.ofNat 16 (x.toNat % 256 ^ 2) = x := ofNat_toNat_mod (w := 2)
  have h32 : ∀ x : BitVec 32, BitVec.ofNat 32 (x.toNat % 256 ^ 4) = x := ofNat_toNat_mod (w := 4)
  have hink' : BitVec.ofNat 32 (p.inkPrice.toNat % 256 ^ 3) = p.inkPrice := by
    rw [Nat.mod_eq_of_lt (by simpa using hink)]
    simp
  rw [load, wordBytes_saved, encode]
  simp only [List.append_assoc, takeUint_append, h8, h16, h32, hink', asOf, StylusParams.mk.injEq,
    true_and]
  by_cases h40 : 40 ≤ p.arbosVersion
  · have h40' := hlayout.1.mpr h40
    simp only [if_pos h40, if_pos h40', takeUint_append, h32, true_and]
    by_cases h60 : 60 ≤ p.arbosVersion
    · simp only [if_pos h60, if_pos (hlayout.2.mpr h60), takeUint_append, h8]
    · simp only [if_neg (mt hlayout.2.mp h60)]
      rfl
  · have h40' := mt hlayout.1.mp h40
    have h60 : ¬ 60 ≤ v := by omega
    simp only [if_neg h40', if_neg h60]
    exact ⟨by decide, rfl⟩

theorem load_inkPrice_lt (v : Nat) (word : U256) : (load v word).inkPrice.toNat < 2 ^ 24 := by
  have hlt := beNat_lt (((wordBytes word).drop 2).take 3)
  have hlen : (((wordBytes word).drop 2).take 3).length = 3 := by simp
  have heq : (load v word).inkPrice =
      BitVec.ofNat 32 (beNat (((wordBytes word).drop 2).take 3)) := rfl
  rw [hlen] at hlt
  rw [heq, BitVec.toNat_ofNat]
  omega

/-- A version with the same layout reads the same parameters. -/
theorem load_of_sameLayout {v v' : Nat} (h : SameLayout v v') (word : U256) :
    load v' word = { load v word with arbosVersion := v' } := by
  simp only [load, h.1, h.2]

theorem asOf_load (v : Nat) (word : U256) : (load v word).asOf v = load v word := by
  simp only [asOf, load, StylusParams.mk.injEq, true_and]
  constructor
  · split
    · rfl
    · exact (by decide : initialMaxWasmSize = BitVec.ofNat 32 initialMaxWasmSize.toNat)
  · split <;> rfl

/-! ## Upgrades of the parameters -/

/-- `upgrade_to_version`. -/
def upgradeToVersion (p : StylusParams) (version : Nat) : Except ProgramsError StylusParams :=
  match version with
  | 2 =>
    if p.version ≠ 1 then
      .error (.invalidParamsUpgrade "unexpected version for upgrade to 2")
    else
      .ok { p with version := 2, minInitGas := 69 }
  | 3 =>
    if p.version ≠ 2 then
      .error (.invalidParamsUpgrade "unexpected version for upgrade to 3")
    else
      .ok { p with version := 3 }
  | _ => .error (.invalidParamsUpgrade "unsupported version upgrade")

/-- `upgrade_to_arbos_version`. -/
def upgradeToArbosVersion (p : StylusParams) (newArbosVersion : Nat) :
    Except ProgramsError StylusParams :=
  if newArbosVersion ≤ p.arbosVersion then
    .error (.invalidParamsUpgrade "unexpected arbos version downgrade")
  else
    match newArbosVersion with
    | 50 =>
      .ok { p with
        maxStackDepth :=
          if p.maxStackDepth > arbos50MaxStackDepth then arbos50MaxStackDepth else p.maxStackDepth
        arbosVersion := 50 }
    | 40 =>
      if p.version ≠ 2 then
        .error (.invalidParamsUpgrade "unexpected stylus version for arbos 40 upgrade")
      else
        .ok { p with maxWasmSize := initialMaxWasmSize, arbosVersion := 40 }
    | 60 =>
      .ok { p with maxWasmSize := arbos60MaxWasmSize, maxFragmentCount := 4, arbosVersion := 60 }
    | v => .ok { p with arbosVersion := v }

variable {p : StylusParams}

theorem upgradeToVersion_two (h : p.version = 1) :
    p.upgradeToVersion 2 = .ok { p with version := 2, minInitGas := 69 } :=
  if_neg (not_not.mpr h)

theorem upgradeToVersion_three (h : p.version = 2) :
    p.upgradeToVersion 3 = .ok { p with version := 3 } :=
  if_neg (not_not.mpr h)

theorem upgradeToArbosVersion_40 (hlt : p.arbosVersion < 40) (h : p.version = 2) :
    p.upgradeToArbosVersion 40 =
      .ok { p with maxWasmSize := initialMaxWasmSize, arbosVersion := 40 } :=
  (if_neg (Nat.not_le.mpr hlt)).trans (if_neg (not_not.mpr h))

theorem upgradeToArbosVersion_50 (hlt : p.arbosVersion < 50) :
    p.upgradeToArbosVersion 50 =
      .ok { p with
        maxStackDepth :=
          if p.maxStackDepth > arbos50MaxStackDepth then arbos50MaxStackDepth else p.maxStackDepth
        arbosVersion := 50 } :=
  if_neg (Nat.not_le.mpr hlt)

theorem upgradeToArbosVersion_60 (hlt : p.arbosVersion < 60) :
    p.upgradeToArbosVersion 60 =
      .ok { p with maxWasmSize := arbos60MaxWasmSize, maxFragmentCount := 4, arbosVersion := 60 } :=
  if_neg (Nat.not_le.mpr hlt)

/-- `init_stylus_params`. -/
def initial (arbosVersion : Nat) : StylusParams where
  arbosVersion := arbosVersion
  version := 1
  inkPrice := 10000
  maxStackDepth := 4 * 65536
  freePages := 2
  pageGas := 1000
  pageLimit := 128
  minInitGas := 72
  minCachedInitGas := 11
  initCostScalar := 50
  cachedCostScalar := 50
  expiryDays := 365
  keepaliveDays := 31
  blockCacheSize := 32
  maxWasmSize :=
    if 60 ≤ arbosVersion then arbos60MaxWasmSize
    else if 40 ≤ arbosVersion then initialMaxWasmSize
    else 0
  maxFragmentCount := if 60 ≤ arbosVersion then 4 else 0

end StylusParams

end Arbreth.Upgrade
