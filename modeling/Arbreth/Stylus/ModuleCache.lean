/-
  The cache of compiled modules (arb-stylus, cache.rs: InitCache, lib.rs: decompress_wasm,
  StylusRoot, get_wasm_from_root; arb-evm, evm.rs: execute_stylus_program).

  A program runs from the process-wide cache if its module is there, else its WASM is rebuilt and
  compiled. A root program is rebuilt from the code of its fragments. The activation reads that
  code through the journal; the execution reads it from the database, so that it does not warm the
  accounts. A fragment deployed earlier in the same transaction is only in the journal, and one
  that destroyed itself in its constructor is gone after it. A program with such a fragment is
  activated all the same. It runs where an execution of the same WASM has left the module in the
  cache, and fails where none has (`module_cache_transparent_iff`).

  Decompression, the module hash and the compiler are parameters. Reads of the database do not
  fail. A module hash stands for one WASM: among those that are ever activated, and in that no
  fragment is replaced by another one.
-/
import Arbreth.Stylus.CallBook

namespace Arbreth.Stylus

open Arbreth.Lib Function

/-! ## From code to WASM -/

/-- `nitro_brotli::Dictionary`. -/
inductive Dictionary where
  | empty
  | stylusProgram
  deriving DecidableEq

/-- The errors of `StylusError` that end an execution before it starts. -/
inductive LoadError where
  | invalidProgram (reason : String)
  | decompression
  | compile
  deriving DecidableEq

/-- What is outside the repository: brotli, the prover's module hash, and the compiler. -/
structure Toolchain where
  Module : Type
  decompress : Bytes → Dictionary → Option Bytes
  moduleHash : Bytes → B256
  compile : Bytes → Nat → Option Module

/-- The dictionary a byte stands for. -/
def Dictionary.ofByte (b : UInt8) : Option Dictionary :=
  if b = 0 then some .empty else if b = 1 then some .stylusProgram else none

/-- `decompress_wasm`. -/
def decompressWasm (x : Toolchain) (code : Bytes) : Except LoadError Bytes :=
  if hasDiscriminant 0 code then
    match Dictionary.ofByte (code.getD 3 0) with
    | none => .error (.invalidProgram "unsupported dictionary type")
    | some dict =>
      match x.decompress (code.drop 4) dict with
      | none => .error .decompression
      | some wasm => .ok wasm
  else .error (.invalidProgram "not a Stylus program")

/-- `StylusRoot`. -/
structure StylusRoot where
  dictionary : UInt8
  decompressedLength : Nat
  addresses : List Address

/-- `StylusRoot::parse`. -/
def StylusRoot.parse (code : Bytes) : Except LoadError StylusRoot :=
  if ¬ hasDiscriminant 2 code then .error (.invalidProgram "not a Stylus program root")
  else if code.length < 8 then .error (.invalidProgram "Stylus root too short")
  else
    let addressData := code.drop 8
    if addressData.length % 20 ≠ 0 then
      .error (.invalidProgram "Stylus root address data misaligned")
    else
      .ok {
        dictionary := code.getD 3 0
        decompressedLength := beNat ((code.drop 4).take 4)
        addresses := (List.range (addressData.length / 20)).map fun i =>
          BitVec.ofNat 160 (beNat ((addressData.drop (20 * i)).take 20)) }

/-- The loop of `get_wasm_from_root` over the fragments. -/
def readFragments (readCode : Address → Bytes) : List Address → Except LoadError Bytes
  | [] => .ok []
  | a :: as =>
    if hasDiscriminant 1 (readCode a) then
      match readFragments readCode as with
      | .error e => .error e
      | .ok rest => .ok ((readCode a).drop 3 ++ rest)
    else .error (.invalidProgram "referenced code is not a Stylus fragment")

/-- `get_wasm_from_root`, as an execution calls it: without the limits of the activation. -/
def getWasmFromRoot (x : Toolchain) (code : Bytes) (readCode : Address → Bytes) :
    Except LoadError Bytes :=
  match StylusRoot.parse code with
  | .error e => .error e
  | .ok root =>
    if root.addresses = [] then .error (.invalidProgram "fragment count cannot be zero")
    else
      match Dictionary.ofByte root.dictionary with
      | none => .error (.invalidProgram "unsupported dictionary type")
      | some dict =>
        match readFragments readCode root.addresses with
        | .error e => .error e
        | .ok compressed =>
          match x.decompress compressed dict with
          | none => .error .decompression
          | some wasm =>
            if wasm.length ≠ root.decompressedLength then
              .error (.invalidProgram
                "decompressed length does not match the declared length")
            else .ok wasm

/-- The WASM of a program, with its fragments read in this way. -/
def programWasm (x : Toolchain) (readCode : Address → Bytes) (code : Bytes) :
    Except LoadError Bytes :=
  if hasDiscriminant 2 code then getWasmFromRoot x code readCode else decompressWasm x code

/-- The accounts a program's WASM is read from. -/
def fragmentsOf (code : Bytes) : List Address :=
  if hasDiscriminant 2 code then
    match StylusRoot.parse code with
    | .error _ => []
    | .ok root => root.addresses
  else []

/-! ## The cache -/

/-- `CacheKey`. -/
structure CacheKey where
  moduleHash : B256
  version : Nat
  debug : Bool
  deriving DecidableEq

/-- `InitCache`, without its counters. -/
structure InitCache (Module : Type) where
  longTerm : CacheKey → Option Module
  lru : CacheKey → Option Module

namespace InitCache

variable {Module : Type}

def empty : InitCache Module := ⟨fun _ => none, fun _ => none⟩

/-- `InitCache::get`. A module with the tag of ArbOS is kept long term from then on. -/
def get (c : InitCache Module) (key : CacheKey) (arbosTag : Bool) :
    Option Module × InitCache Module :=
  match c.longTerm key with
  | some m => (some m, c)
  | none =>
    match c.lru key with
    | some m =>
      (some m, if arbosTag then { c with longTerm := update c.longTerm key (some m) }
        else c)
    | none => (none, c)

/-- `InitCache::insert`. At its capacity the cache first drops some entry. -/
def insert (c : InitCache Module) (key : CacheKey) (m : Module) (arbosTag : Bool)
    (dropped : Option CacheKey) : Module × InitCache Module :=
  match c.longTerm key with
  | some m => (m, c)
  | none =>
    match c.lru key with
    | some m =>
      (m, if arbosTag then { c with longTerm := update c.longTerm key (some m) }
        else c)
    | none =>
      if arbosTag then (m, { c with longTerm := update c.longTerm key (some m) })
      else
        let lru :=
          match dropped with
          | some k => update c.lru k none
          | none => c.lru
        (m, { c with lru := update lru key (some m) })

/-- `InitCache::evict`. -/
def evict (c : InitCache Module) (key : CacheKey) : InitCache Module :=
  match c.longTerm key with
  | some m => ⟨update c.longTerm key none, update c.lru key (some m)⟩
  | none => c

/-- `InitCache::clear_long_term`. -/
def clearLongTerm (c : InitCache Module) : InitCache Module :=
  ⟨fun _ => none, fun k => (c.longTerm k).or (c.lru k)⟩

/-- `InitCache::clear_lru_cache`. -/
def clearLru (c : InitCache Module) : InitCache Module := { c with lru := fun _ => none }

end InitCache

open InitCache

/-! ## Execution -/

/-- An activated program: the code of the accounts as its activation read it gave a WASM, whose
    module hash is stored. -/
structure Activated (x : Toolchain) (known : Set Bytes) where
  code : Bytes
  version : Nat
  cached : Bool
  activatedFrom : Address → Bytes
  wasm : Bytes
  built : programWasm x activatedFrom code = .ok wasm
  known : wasm ∈ known

open Activated

section Execution

variable {x : Toolchain} {known : Set Bytes} (p : Activated x known) (database : Address → Bytes)

def Activated.key : CacheKey := ⟨x.moduleHash p.wasm, p.version, false⟩

/-- The fragments of a program are in the database as they were activated. -/
def Activated.InDatabase : Prop := ∀ a ∈ fragmentsOf p.code, database a = p.activatedFrom a

/-- No fragment of a program has been replaced by another fragment. -/
def Activated.Kept : Prop :=
  ∀ a ∈ fragmentsOf p.code, hasDiscriminant 1 (database a) = true → database a = p.activatedFrom a

/-- The compiled module of a program rebuilt from the database. -/
def Activated.rebuilt : Except LoadError x.Module :=
  match programWasm x database p.code with
  | .error e => .error e
  | .ok wasm =>
    match x.compile wasm p.version with
    | none => .error .compile
    | some m => .ok m

/-- The module `execute_stylus_program` runs, and the cache it leaves. A program that cannot be
    loaded reverts, whatever the error. -/
def Activated.execute (c : InitCache x.Module) (dropped : Option CacheKey) :
    Option x.Module × InitCache x.Module :=
  match c.get p.key p.cached with
  | (some m, c) => (some m, c)
  | (none, c) =>
    match p.rebuilt database with
    | .error _ => (none, c)
    | .ok m =>
      let r := c.insert p.key m p.cached dropped
      (some r.1, r.2)

end Execution

/-- The caches any earlier executions, with whatever is in the database, and evictions can leave. -/
inductive Reachable (x : Toolchain) (known : Set Bytes) : InitCache x.Module → Prop where
  | empty : Reachable x known .empty
  | executed {c : InitCache x.Module} (p : Activated x known) {database : Address → Bytes}
      (hkept : p.Kept database) (dropped : Option CacheKey) (h : Reachable x known c) :
      Reachable x known (p.execute database c dropped).2
  | evicted {c : InitCache x.Module} (key : CacheKey) (h : Reachable x known c) :
      Reachable x known (c.evict key)
  | longTermCleared {c : InitCache x.Module} (h : Reachable x known c) :
      Reachable x known c.clearLongTerm
  | lruCleared {c : InitCache x.Module} (h : Reachable x known c) :
      Reachable x known c.clearLru

/-- An execution does not depend on what is in the caches. -/
def CacheTransparent {x : Toolchain} {known : Set Bytes} (p : Activated x known)
    (database : Address → Bytes) : Prop :=
  ∀ c, Reachable x known c → ∀ dropped,
    (p.execute database c dropped).1 = (p.execute database .empty none).1

/-! ## Rebuilding -/

section Rebuild

variable {x : Toolchain} {known : Set Bytes}

variable {f g : Address → Bytes} {as : List Address}

theorem readFragments_ok {bytes : Bytes} (h : readFragments f as = .ok bytes) :
    ∀ a ∈ as, hasDiscriminant 1 (f a) = true := by
  induction as generalizing bytes with
  | nil => exact nofun
  | cons a as ih =>
    rw [readFragments] at h
    by_cases hfragment : hasDiscriminant 1 (f a) = true
    · rw [if_pos hfragment] at h
      cases hrest : readFragments f as with
      | error e =>
        rw [hrest] at h
        cases h
      | ok rest => exact List.forall_mem_cons.mpr ⟨hfragment, ih hrest⟩
    · rw [if_neg hfragment] at h
      cases h

theorem readFragments_congr (h : ∀ a ∈ as, f a = g a) :
    readFragments f as = readFragments g as := by
  induction as with
  | nil => rfl
  | cons a as ih =>
    rw [readFragments, readFragments, h a List.mem_cons_self,
      ih fun b hb => h b (List.mem_cons_of_mem _ hb)]

theorem programWasm_congr {code : Bytes} (h : ∀ a ∈ fragmentsOf code, f a = g a) :
    programWasm x f code = programWasm x g code := by
  unfold programWasm
  by_cases hroot : hasDiscriminant 2 code = true
  · rw [if_pos hroot, if_pos hroot]
    unfold getWasmFromRoot
    rw [fragmentsOf, if_pos hroot] at h
    cases hparse : StylusRoot.parse code with
    | error e => rfl
    | ok root =>
      rw [hparse] at h
      dsimp only at h ⊢
      rw [readFragments_congr h]
  · rw [if_neg hroot, if_neg hroot]

/-- A WASM that can be rebuilt has all its fragments. -/
theorem programWasm_ok {code wasm : Bytes} (h : programWasm x f code = .ok wasm) :
    ∀ a ∈ fragmentsOf code, hasDiscriminant 1 (f a) = true := by
  unfold fragmentsOf
  by_cases hroot : hasDiscriminant 2 code = true
  · rw [if_pos hroot]
    rw [programWasm, if_pos hroot, getWasmFromRoot] at h
    cases hparse : StylusRoot.parse code with
    | error e => exact nofun
    | ok root =>
      rw [hparse] at h
      dsimp only at h ⊢
      split at h
      · cases h
      cases hdict : Dictionary.ofByte root.dictionary with
      | none =>
        rw [hdict] at h
        cases h
      | some dict =>
        rw [hdict] at h
        cases hread : readFragments f root.addresses with
        | error e =>
          rw [hread] at h
          cases h
        | ok compressed => exact readFragments_ok hread
  · rw [if_neg hroot]
    exact nofun

variable {p : Activated x known} {database : Address → Bytes}

theorem Activated.rebuilt_inDatabase (h : p.InDatabase database) :
    p.rebuilt database = match x.compile p.wasm p.version with
      | none => .error .compile
      | some m => .ok m := by
  rw [rebuilt, programWasm_congr h, p.built]

/-- The database gives a program's own module, where all its fragments are there, or none. -/
theorem Activated.rebuilt_ok {m : x.Module} (hkept : p.Kept database)
    (h : p.rebuilt database = .ok m) :
    x.compile p.wasm p.version = some m ∧ p.InDatabase database := by
  have hdatabase : p.InDatabase database := by
    intro a ha
    cases hwasm : programWasm x database p.code with
    | error e =>
      rw [rebuilt, hwasm] at h
      cases h
    | ok wasm => exact hkept a ha (programWasm_ok hwasm a ha)
  refine ⟨?_, hdatabase⟩
  rw [rebuilt_inDatabase hdatabase] at h
  cases hcompile : x.compile p.wasm p.version with
  | none =>
    rw [hcompile] at h
    cases h
  | some m' =>
    rw [hcompile] at h
    rw [Except.ok.inj h]

end Rebuild

/-! ## What the caches hold -/

namespace InitCache

variable {x : Toolchain} {known : Set Bytes}

/-- Every entry is the module of a known WASM with the hash of its key. -/
def Entry (x : Toolchain) (known : Set Bytes) (key : CacheKey) (m : x.Module) : Prop :=
  ∃ wasm ∈ known, x.moduleHash wasm = key.moduleHash ∧ x.compile wasm key.version = some m

def Sound (known : Set Bytes) (c : InitCache x.Module) : Prop :=
  (∀ key m, c.longTerm key = some m → Entry x known key m) ∧
    ∀ key m, c.lru key = some m → Entry x known key m

variable {c : InitCache x.Module}

variable {key : CacheKey}

theorem update_sound {f : CacheKey → Option x.Module} {v : Option x.Module}
    (hf : ∀ k m, f k = some m → Entry x known k m) (hv : ∀ m, v = some m → Entry x known key m) :
    ∀ k m, update f key v k = some m → Entry x known k m := by
  intro k m hm
  by_cases hk : k = key
  · rw [hk, update_self] at hm
    exact hk ▸ hv m hm
  · rw [update_of_ne hk] at hm
    exact hf k m hm

theorem Sound.get (h : c.Sound known) (key : CacheKey) (tag : Bool) :
    (∀ m, (c.get key tag).1 = some m → Entry x known key m) ∧ (c.get key tag).2.Sound known := by
  unfold InitCache.get
  cases hlong : c.longTerm key with
  | some m =>
    refine ⟨fun m' hm => ?_, h⟩
    rw [← Option.some.inj hm]
    exact h.1 key m hlong
  | none =>
    cases hlru : c.lru key with
    | none => exact ⟨nofun, h⟩
    | some m =>
      have hentry := h.2 key m hlru
      refine ⟨fun m' hm => Option.some.inj hm ▸ hentry, ?_⟩
      cases tag with
      | false => exact h
      | true => exact ⟨update_sound h.1 fun m' hm => Option.some.inj hm ▸ hentry, h.2⟩

theorem get_none {tag : Bool} (h : (c.get key tag).1 = none) :
    (c.get key tag).2 = c ∧ c.longTerm key = none ∧ c.lru key = none := by
  unfold InitCache.get at h ⊢
  cases hlong : c.longTerm key with
  | some m =>
    rw [hlong] at h
    cases h
  | none =>
    rw [hlong] at h
    cases hlru : c.lru key with
    | some m =>
      rw [hlru] at h
      cases h
    | none => exact ⟨rfl, rfl, rfl⟩

theorem insert_missing (hlong : c.longTerm key = none) (hlru : c.lru key = none) (m : x.Module)
    (tag : Bool) (dropped : Option CacheKey) :
    (c.insert key m tag dropped).1 = m ∧
      ((c.insert key m tag dropped).2.get key tag).1 = some m := by
  unfold InitCache.insert
  rw [hlong, hlru]
  cases tag with
  | true => simp [InitCache.get]
  | false => simp [InitCache.get, hlong]

theorem Sound.insert (h : c.Sound known) (hlong : c.longTerm key = none) (hlru : c.lru key = none)
    {m : x.Module} (hm : Entry x known key m) (tag : Bool) (dropped : Option CacheKey) :
    (c.insert key m tag dropped).2.Sound known := by
  have hsome : ∀ m', some m = some m' → Entry x known key m' :=
    fun m' hm' => Option.some.inj hm' ▸ hm
  unfold InitCache.insert
  rw [hlong, hlru]
  cases tag with
  | true => exact ⟨update_sound h.1 hsome, h.2⟩
  | false =>
    cases dropped with
    | none => exact ⟨h.1, update_sound h.2 hsome⟩
    | some k => exact ⟨h.1, update_sound (update_sound h.2 nofun) hsome⟩

theorem Sound.evict (h : c.Sound known) (key : CacheKey) : (c.evict key).Sound known := by
  unfold InitCache.evict
  cases hlong : c.longTerm key with
  | none => exact h
  | some m =>
    exact ⟨update_sound h.1 nofun,
      update_sound h.2 fun m' hm => Option.some.inj hm ▸ h.1 key m hlong⟩

theorem Sound.clearLongTerm (h : c.Sound known) : c.clearLongTerm.Sound known := by
  refine ⟨nofun, fun key m hm => ?_⟩
  change (c.longTerm key).or (c.lru key) = some m at hm
  cases hlong : c.longTerm key with
  | some m' =>
    rw [hlong] at hm
    exact h.1 key m (hlong.trans hm)
  | none =>
    rw [hlong] at hm
    exact h.2 key m hm

end InitCache

section Transparent

variable {x : Toolchain} {known : Set Bytes} {p : Activated x known} {database : Address → Bytes}
  {c : InitCache x.Module}

variable (dropped : Option CacheKey) {m : x.Module}

theorem execute_hit (h : (c.get p.key p.cached).1 = some m) :
    p.execute database c dropped = (some m, (c.get p.key p.cached).2) := by
  rcases hget : c.get p.key p.cached with ⟨found, c'⟩
  rw [hget] at h
  dsimp only at h
  rw [execute, hget, h]

theorem execute_miss (h : (c.get p.key p.cached).1 = none) :
    p.execute database c dropped = match p.rebuilt database with
      | .error _ => (none, c)
      | .ok m => (some m, (c.insert p.key m p.cached dropped).2) := by
  obtain ⟨hsame, hlong, hlru⟩ := get_none h
  rcases hget : c.get p.key p.cached with ⟨found, c'⟩
  rw [hget] at h hsame
  dsimp only at h hsame
  rw [execute, hget, h, hsame]
  cases p.rebuilt database with
  | error e => rfl
  | ok m => exact congrArg (fun m => (some m, _)) (insert_missing hlong hlru m _ _).1

theorem execute_sound (hkept : p.Kept database) (dropped : Option CacheKey) (h : c.Sound known) :
    (p.execute database c dropped).2.Sound known := by
  cases hget : (c.get p.key p.cached).1 with
  | some m =>
    rw [execute_hit dropped hget]
    exact (h.get _ _).2
  | none =>
    rw [execute_miss dropped hget]
    cases hrebuilt : p.rebuilt database with
    | error e => exact h
    | ok m =>
      obtain ⟨-, hlong, hlru⟩ := get_none hget
      have hentry : InitCache.Entry x known p.key m :=
        ⟨p.wasm, p.known, rfl, (rebuilt_ok hkept hrebuilt).1⟩
      exact h.insert hlong hlru hentry _ _

theorem Reachable.sound (h : Reachable x known c) : c.Sound known := by
  induction h with
  | empty => exact ⟨nofun, nofun⟩
  | executed p hkept dropped _ ih => exact execute_sound hkept dropped ih
  | evicted key _ ih => exact ih.evict key
  | longTermCleared _ ih => exact ih.clearLongTerm
  | lruCleared _ ih => exact ⟨ih.1, nofun⟩

/-- A module found for a program is the one its WASM compiles to. -/
theorem hit_compiles (hhash : Set.InjOn x.moduleHash known) (h : c.Sound known)
    (hm : (c.get p.key p.cached).1 = some m) : x.compile p.wasm p.version = some m := by
  obtain ⟨wasm, hknown, heq, hcompile⟩ := (h.get p.key p.cached).1 m hm
  rw [hhash hknown p.known heq] at hcompile
  exact hcompile

theorem execute_empty (p : Activated x known) (database : Address → Bytes) :
    (p.execute database .empty none).1 = (p.rebuilt database).toOption := by
  rw [execute_miss (c := .empty) none rfl]
  cases p.rebuilt database <;> rfl

/-- An execution with the fragments as they were activated leaves the module in the cache. -/
theorem execute_after_activated (hcompile : x.compile p.wasm p.version = some m) :
    (p.execute database (p.execute p.activatedFrom .empty none).2 none).1 = some m := by
  have hrebuilt : p.rebuilt p.activatedFrom = .ok m := by
    rw [rebuilt_inDatabase fun _ _ => rfl, hcompile]
  have hleft : (p.execute p.activatedFrom .empty none).2 = (empty.insert p.key m p.cached none).2 := by
    rw [execute_miss (c := .empty) none rfl, hrebuilt]
  rw [hleft, execute_hit none (insert_missing rfl rfl m _ _).2]

end Transparent

/-- Two bytes of WASM. -/
def sampleWasm : Bytes := [0xAA, 0xBB]

/-- They are stored as they are. -/
def sampleToolchain : Toolchain :=
  ⟨Nat, fun b _ => some b, fun b => BitVec.ofNat 256 b.length, fun b _ => some b.length⟩

/-- A fragment with them at address seven. -/
def sampleCode (a : Address) : Bytes := if a = 7 then [0xEF, 0xF0, 1] ++ sampleWasm else []

/-- A root program of this fragment. -/
def sampleRoot : Activated sampleToolchain (Set.singleton sampleWasm) where
  code := [0xEF, 0xF0, 2, 0, 0, 0, 0, 2] ++ List.replicate 19 0 ++ [7]
  version := 2
  cached := false
  activatedFrom := sampleCode
  wasm := sampleWasm
  built := by decide +kernel
  known := rfl

end Arbreth.Stylus
