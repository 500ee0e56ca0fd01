/-
  The life of a Stylus program (arbos, programs/mod.rs: get_active_program, program_exists,
  activate_program, program_keepalive, set_program_cached).

  What is known of a program is one word with the hour of its last refresh. Against it stands the
  program's history: when it was last refreshed and under which version, and the cached flag last
  set. `Matches` ties a word to a history, and a run keeps it for every code hash as long as the
  hours fit the 24 bits of the word and are not zero. The prover is a parameter, and storage does
  not fail.
-/
import Arbreth.Lib.Outcome
import Arbreth.Stylus.ArbWasm

namespace Arbreth.Stylus

open Arbreth.Lib Function Programs

/-- `ProgramsError`, without the errors of storage and of running a program. -/
inductive ProgramsError where
  | notActivated
  | versionMismatch (program params : Nat)
  | expired
  | upToDate
  | keepaliveTooSoon
  | needsUpgrade
  | activation (reason : String)

/-- `days_to_seconds`. -/
def daysToSeconds (days : BitVec 16) : Nat := days.toNat * 24 * 3600

namespace Programs

/-- `get_active_program`. -/
def getActiveProgram (ps : Programs) (codeHash : B256) (time : Nat) :
    Except ProgramsError Program :=
  let program := ps.getProgram codeHash time
  if program.version = 0 then .error .notActivated
  else if program.version ≠ ps.params.version then
    .error (.versionMismatch program.version.toNat ps.params.version.toNat)
  else if daysToSeconds ps.params.expiryDays < program.ageSeconds then .error .expired
  else .ok program

/-- `program_exists`: version, whether expired, whether cached. -/
def programExists (ps : Programs) (codeHash : B256) (time : Nat) : BitVec 16 × Bool × Bool :=
  let program := ps.getProgram codeHash time
  let expired := program.activatedAt = 0 ∨
    daysToSeconds ps.params.expiryDays < hoursToAge time program.activatedAt
  (program.version, expired, program.cached)

/-- `activate_program`; `activate` is `activate_fn` on the wasm, by Stylus version. -/
def activateProgram (ps : Programs) (codeHash : B256) (time : Nat)
    (activate : BitVec 16 → Except ProgramsError ActivationInfo) :
    Except ProgramsError (Programs × BitVec 16 × B256 × U256) :=
  let stylusVersion := ps.params.version
  match ps.programExists codeHash time with
  | (currentVersion, expired, cached) =>
    if currentVersion = stylusVersion ∧ expired = false then .error .upToDate
    else
      match activate stylusVersion with
      | .error e => .error e
      | .ok info =>
        let (dataFee, dataPricer) := ps.dataPricer.updateModel info.asmEstimate.toNat time
        let program : Program :=
          { version := stylusVersion
            initCost := info.initGas
            cachedCost := info.cachedInitGas
            footprint := info.footprint
            asmEstimateKb := BitVec.ofNat 32 (min ((info.asmEstimate.toNat + 1023) / 1024) 0xFFFFFF)
            activatedAt := hoursSinceArbitrum time
            ageSeconds := 0
            cached }
        .ok ({ ps.setModuleHash codeHash info.moduleHash with dataPricer }.setProgram codeHash program,
          stylusVersion, info.moduleHash, dataFee)

/-- `program_keepalive`. -/
def programKeepalive (ps : Programs) (codeHash : B256) (time : Nat) :
    Except ProgramsError (Programs × U256) :=
  match ps.getActiveProgram codeHash time with
  | .error e => .error e
  | .ok program =>
    if program.ageSeconds < daysToSeconds ps.params.keepaliveDays then .error .keepaliveTooSoon
    else if program.version ≠ ps.params.version then .error .needsUpgrade
    else
      let (dataFee, dataPricer) := ps.dataPricer.updateModel program.asmSize time
      .ok ({ ps with dataPricer }.setProgram codeHash
        { program with activatedAt := hoursSinceArbitrum time }, dataFee)

/-- `set_program_cached`. -/
def setProgramCached (ps : Programs) (codeHash : B256) (cache : Bool) (time : Nat) :
    Except ProgramsError Programs :=
  let program := ps.getProgram codeHash time
  if program.version ≠ ps.params.version ∧ cache = true then .error .needsUpgrade
  else if daysToSeconds ps.params.expiryDays < program.ageSeconds ∧ cache = true then
    .error .expired
  else if program.cached = cache then .ok ps
  else .ok (ps.setProgram codeHash { program with cached := cache })

end Programs

/-! ## Histories -/

/-- A call, or a change of the parameters between calls. -/
inductive ProgramOp where
  | activate (codeHash : B256) (time : Nat)
      (prover : BitVec 16 → Except ProgramsError ActivationInfo)
  | keepalive (codeHash : B256) (time : Nat)
  | setCached (codeHash : B256) (cache : Bool) (time : Nat)
  | setParams (params : StylusParams)

namespace ProgramOp

def codeHash : ProgramOp → Option B256
  | activate codeHash _ _ => some codeHash
  | keepalive codeHash _ => some codeHash
  | setCached codeHash _ _ => some codeHash
  | setParams _ => none

/-- The time after the operation. -/
def time (now : Nat) : ProgramOp → Nat
  | activate _ time _ => time
  | keepalive _ time => time
  | setCached _ _ time => time
  | setParams _ => now

/-- Stylus versions start at one. -/
def Versioned : ProgramOp → Prop
  | setParams params => params.version ≠ 0
  | _ => True

def perform (ps : Programs) : ProgramOp → Except ProgramsError Programs
  | activate codeHash time prover => (ps.activateProgram codeHash time prover).map (·.1)
  | keepalive codeHash time => (ps.programKeepalive codeHash time).map (·.1)
  | setCached codeHash cache time => ps.setProgramCached codeHash cache time
  | setParams params => .ok { ps with params }

end ProgramOp

/-- What the calls made so far say of a program: the time of the last successful activation or
    keepalive, the version at the last activation, the flag last set. -/
structure Life where
  refreshed : Option Nat
  version : BitVec 16
  cached : Bool

/-- A program no call was made for. -/
def Life.never : Life := ⟨none, 0, false⟩

/-- The history after a call that succeeded. -/
def Life.after (version : BitVec 16) (life : B256 → Life) : ProgramOp → B256 → Life
  | .activate h time _ =>
    update life h { life h with refreshed := some time, version }
  | .keepalive h time => update life h { life h with refreshed := some time }
  | .setCached h cache _ => update life h { life h with cached := cache }
  | .setParams _ => life

/-- Programs with their histories. -/
structure Tracked where
  programs : Programs
  life : B256 → Life
  now : Nat

def Tracked.step (s : Tracked) (op : ProgramOp) : Tracked :=
  match op.perform s.programs with
  | .error _ => { s with now := op.time s.now }
  | .ok programs => ⟨programs, Life.after s.programs.params.version s.life op, op.time s.now⟩

/-- The first full hour, so that an hour stored is never zero. -/
def firstTime : Nat := arbitrumStartTime + 3600

/-- The first time whose hour does not fit 24 bits. -/
def endTime : Nat := arbitrumStartTime + 3600 * 2 ^ 24

/-- The operations come at non-decreasing times before `endTime`. -/
def Timely : Nat → List ProgramOp → Prop
  | _, [] => True
  | now, op :: rest =>
    now ≤ op.time now ∧ op.time now < endTime ∧ op.Versioned ∧ Timely (op.time now) rest

/-- A time rounded down to whole hours since Arbitrum began. -/
def hourOf (time : Nat) : Nat := arbitrumStartTime + (time - arbitrumStartTime) / 3600 * 3600

/-- The program is active: it was activated, its version is the current one, and its last refresh
    is not older than the expiry. -/
def Life.Active (l : Life) (params : StylusParams) (time : Nat) : Prop :=
  ∃ a, l.refreshed = some a ∧ l.version = params.version ∧
    time - hourOf a ≤ daysToSeconds params.expiryDays

/-- Its last refresh is old enough for a keepalive. -/
def Life.KeepaliveDue (l : Life) (params : StylusParams) (time : Nat) : Prop :=
  ∃ a, l.refreshed = some a ∧ daysToSeconds params.keepaliveDays ≤ time - hourOf a

/-! ## Hours -/

theorem toNat_hoursSinceArbitrum {time : Nat} (h : time < endTime) :
    (hoursSinceArbitrum time).toNat = (time - arbitrumStartTime) / 3600 := by
  unfold endTime at h
  rw [hoursSinceArbitrum, BitVec.toNat_ofNat, u32Max]
  omega

theorem hoursSinceArbitrum_lt {time : Nat} (h : time < endTime) :
    (hoursSinceArbitrum time).toNat < 2 ^ 24 := by
  rw [toNat_hoursSinceArbitrum h]
  unfold endTime at h
  omega

theorem hoursSinceArbitrum_ne_zero {time : Nat} (hfirst : firstTime ≤ time) (h : time < endTime) :
    hoursSinceArbitrum time ≠ 0 := by
  intro hzero
  have hnat := toNat_hoursSinceArbitrum h
  unfold firstTime at hfirst
  rw [hzero, show (0 : BitVec 32).toNat = 0 from rfl] at hnat
  omega

theorem hoursToAge_hoursSinceArbitrum {a : Nat} (h : a < endTime) (time : Nat) :
    hoursToAge time (hoursSinceArbitrum a) = time - hourOf a := by
  have hlt := hoursSinceArbitrum_lt h
  rw [hoursToAge, hourOf, ← toNat_hoursSinceArbitrum h]
  unfold satAdd64 satMul64 u64Max arbitrumStartTime
  congr 1
  omega

/-! ## Words -/

/-- A record whose two times fit 24 bits is read back as it was stored. -/
theorem Program.fromStorage_toStorage_of_lt {p : Program} (hactivated : p.activatedAt.toNat < 2 ^ 24)
    (hasm : p.asmEstimateKb.toNat < 2 ^ 24) (time : Nat) :
    fromStorage p.toStorage time = { p with ageSeconds := hoursToAge time p.activatedAt } := by
  rw [fromStorage_toStorage, Nat.mod_eq_of_lt hactivated, Nat.mod_eq_of_lt hasm]
  simp only [BitVec.ofNat_toNat, BitVec.setWidth_eq]

open Program

theorem Program.fromStorage_zero (time : Nat) :
    (fromStorage 0 time).version = 0 ∧ (fromStorage 0 time).cached = false ∧
      (fromStorage 0 time).toStorage = 0 := by
  refine ⟨rfl, rfl, BitVec.eq_of_toNat_eq ?_⟩
  rw [toNat_toStorage]
  simp [storageBits, fromStorage]

/-- What a word says of a program with this history. -/
structure Recorded (p : Program) (l : Life) (a now : Nat) : Prop where
  first : firstTime ≤ a
  le_now : a ≤ now
  lt_end : a < endTime
  version : p.version = l.version
  version_ne : l.version ≠ 0
  activatedAt : p.activatedAt = hoursSinceArbitrum a
  asm_lt : p.asmEstimateKb.toNat < 2 ^ 24
  cached : p.cached = l.cached

/-- The word belongs to the history. -/
def Matches (word : B256) (l : Life) (now : Nat) : Prop :=
  match l.refreshed with
  | none => word = 0 ∧ l.cached = false
  | some a => ∃ p : Program, word = p.toStorage ∧ Recorded p l a now

theorem Recorded.fromStorage {p : Program} {l : Life} {a now : Nat} (h : Recorded p l a now)
    (time : Nat) :
    fromStorage p.toStorage time = { p with ageSeconds := time - hourOf a } := by
  have hlt : p.activatedAt.toNat < 2 ^ 24 := h.activatedAt ▸ hoursSinceArbitrum_lt h.lt_end
  rw [fromStorage_toStorage_of_lt hlt h.asm_lt, h.activatedAt,
    hoursToAge_hoursSinceArbitrum h.lt_end]

theorem Matches.mono {word : B256} {l : Life} {now later : Nat} (h : Matches word l now)
    (hle : now ≤ later) : Matches word l later := by
  unfold Matches at h ⊢
  cases hl : l.refreshed with
  | none => simpa only [hl] using h
  | some a =>
    simp only [hl] at h ⊢
    obtain ⟨p, hword, hp⟩ := h
    exact ⟨p, hword, { hp with le_now := hp.le_now.trans hle }⟩

variable {ps : Programs} {h : B256} {l : Life} {now time : Nat}

/-- What is read of a program: nothing if it was never activated, else what was recorded. -/
theorem Matches.cases (hm : Matches (ps.words h) l now) (time : Nat) :
    (l.refreshed = none ∧ l.cached = false ∧ (ps.getProgram h time).version = 0 ∧
      (ps.getProgram h time).cached = false ∧
      (ps.getProgram h time).toStorage = ps.words h) ∨
    ∃ a p, l.refreshed = some a ∧ Recorded p l a now ∧ ps.words h = p.toStorage ∧
      ps.getProgram h time = { p with ageSeconds := time - hourOf a } := by
  unfold Matches at hm
  cases hl : l.refreshed with
  | none =>
    simp only [hl] at hm
    refine .inl ⟨rfl, hm.2, ?_⟩
    unfold getProgram
    rw [hm.1]
    exact fromStorage_zero time
  | some a =>
    simp only [hl] at hm
    obtain ⟨p, hword, hp⟩ := hm
    refine .inr ⟨a, p, rfl, hp, hword, ?_⟩
    rw [getProgram, hword, hp.fromStorage]


theorem getActiveProgram_eq_ok {program : Program} :
    ps.getActiveProgram h time = .ok program ↔
      (program = ps.getProgram h time ∧ program.version ≠ 0 ∧
        program.version = ps.params.version ∧
        program.ageSeconds ≤ daysToSeconds ps.params.expiryDays) := by
  unfold getActiveProgram
  grind

theorem keepalive_ok_iff {r : Programs × U256} :
    ps.programKeepalive h time = .ok r ↔
      ∃ program, ps.getActiveProgram h time = .ok program ∧
        daysToSeconds ps.params.keepaliveDays ≤ program.ageSeconds ∧
        r = ({ ps with dataPricer := (ps.dataPricer.updateModel program.asmSize time).2 }.setProgram h
            { program with activatedAt := hoursSinceArbitrum time },
          (ps.dataPricer.updateModel program.asmSize time).1) := by
  unfold programKeepalive
  grind [getActiveProgram_eq_ok]

theorem active_iff (hm : Matches (ps.words h) l now) (time : Nat) :
    (∃ p, ps.getActiveProgram h time = .ok p) ↔ l.Active ps.params time := by
  simp only [getActiveProgram_eq_ok, exists_eq_left, Life.Active]
  grind [hm.cases time, Recorded]

/-- `program_exists` finds a program current just if `get_active_program` does. -/
theorem upToDate_iff (hm : Matches (ps.words h) l now) (hversion : ps.params.version ≠ 0)
    (time : Nat) :
    ((ps.programExists h time).1 = ps.params.version ∧ (ps.programExists h time).2.1 = false) ↔
      ∃ p, ps.getActiveProgram h time = .ok p := by
  simp only [getActiveProgram_eq_ok, exists_eq_left, programExists, decide_eq_false_iff_not]
  obtain ⟨-, -, hzero, -⟩ | ⟨a, p, -, hp, -, hget⟩ := hm.cases time
  · grind
  · have hhour : p.activatedAt ≠ 0 := hp.activatedAt ▸ hoursSinceArbitrum_ne_zero hp.first hp.lt_end
    have hage : hoursToAge time p.activatedAt = time - hourOf a :=
      hp.activatedAt ▸ hoursToAge_hoursSinceArbitrum hp.lt_end time
    have hne : p.version ≠ 0 := hp.version ▸ hp.version_ne
    rw [hget]
    grind

theorem activate_upToDate_iff (hm : Matches (ps.words h) l now) (hversion : ps.params.version ≠ 0)
    {activate : BitVec 16 → Except ProgramsError ActivationInfo}
    (hactivate : ∀ v, activate v ≠ .error .upToDate) (time : Nat) :
    ps.activateProgram h time activate = .error .upToDate ↔
      ∃ p, ps.getActiveProgram h time = .ok p := by
  rw [← upToDate_iff hm hversion]
  unfold activateProgram
  grind

theorem keepalive_iff (hm : Matches (ps.words h) l now) (time : Nat) :
    (∃ r, ps.programKeepalive h time = .ok r) ↔
      l.Active ps.params time ∧ l.KeepaliveDue ps.params time := by
  rw [← active_iff hm]
  constructor
  · rintro ⟨r, hr⟩
    obtain ⟨program, hactive, hage, -⟩ := keepalive_ok_iff.mp hr
    exact ⟨⟨_, hactive⟩, by grind [hm.cases time, getActiveProgram_eq_ok, Life.KeepaliveDue]⟩
  · rintro ⟨⟨program, hactive⟩, a, ha, hage⟩
    exact ⟨_, keepalive_ok_iff.mpr
      ⟨program, hactive, by grind [hm.cases time, getActiveProgram_eq_ok], rfl⟩⟩

theorem Matches.cached (hm : Matches (ps.words h) l now) (time : Nat) :
    (ps.getProgram h time).cached = l.cached := by
  grind [hm.cases time, Recorded]

theorem Matches.toStorage_getProgram (hm : Matches (ps.words h) l now) (time : Nat) :
    (ps.getProgram h time).toStorage = ps.words h := by
  obtain ⟨-, -, -, -, hword⟩ | ⟨a, p, -, -, hword, hget⟩ := hm.cases time
  · exact hword
  · simp only [hget, hword, toStorage, storageBits]

/-! ## What the calls write -/

theorem activate_ok {activate : BitVec 16 → Except ProgramsError ActivationInfo}
    {r : Programs × BitVec 16 × B256 × U256} (hok : ps.activateProgram h time activate = .ok r) :
    r.1.params = ps.params ∧
      ∃ p : Program, r.1.words = update ps.words h p.toStorage ∧
        (∃ moduleHash, r.1.moduleHashes = update ps.moduleHashes h moduleHash) ∧
        p.version = ps.params.version ∧ p.activatedAt = hoursSinceArbitrum time ∧
        p.asmEstimateKb.toNat < 2 ^ 24 ∧ p.cached = (ps.getProgram h time).cached := by
  unfold activateProgram at hok
  dsimp only at hok
  split at hok
  · cases hok
  split at hok
  · cases hok
  cases hok
  refine ⟨rfl, _, rfl, ⟨_, rfl⟩, rfl, rfl, ?_, rfl⟩
  rw [BitVec.toNat_ofNat]
  omega

theorem setCached_ok {cache : Bool} {ps' : Programs}
    (hok : ps.setProgramCached h cache time = .ok ps') :
    ((ps.getProgram h time).cached = cache ∧ ps' = ps) ∨
      (ps.getProgram h time).cached ≠ cache ∧
        ¬ ((ps.getProgram h time).version ≠ ps.params.version ∧ cache = true) ∧
        ps' = ps.setProgram h { ps.getProgram h time with cached := cache } := by
  unfold setProgramCached at hok
  grind

/-- No call touches the word or the module hash of another program. -/
theorem perform_frame {op : ProgramOp} {ps' : Programs} (hok : op.perform ps = .ok ps')
    (hne : op.codeHash ≠ some h) :
    ps'.words h = ps.words h ∧ ps'.moduleHashes h = ps.moduleHashes h := by
  have hother : ∀ h', op.codeHash = some h' → h ≠ h' := fun h' heq hsame => hne (hsame ▸ heq)
  cases op with
  | activate h' time prover =>
    obtain ⟨r, hr, rfl⟩ := map_eq_ok hok
    obtain ⟨-, p, hwords, ⟨m, hmodules⟩, -⟩ := activate_ok hr
    rw [hwords, hmodules]
    exact ⟨update_of_ne (hother h' rfl) _ _, update_of_ne (hother h' rfl) _ _⟩
  | keepalive h' time =>
    obtain ⟨r, hr, rfl⟩ := map_eq_ok hok
    obtain ⟨program, -, -, rfl⟩ := keepalive_ok_iff.mp hr
    exact ⟨update_of_ne (hother h' rfl) _ _, rfl⟩
  | setCached h' cache time =>
    obtain ⟨-, rfl⟩ | ⟨-, -, rfl⟩ := setCached_ok hok
    · exact ⟨rfl, rfl⟩
    · exact ⟨update_of_ne (hother h' rfl) _ _, rfl⟩
  | setParams params =>
    cases hok
    exact ⟨rfl, rfl⟩

/-! ## Runs -/

/-- Every program's word belongs to its history, and the version in force is not zero. -/
structure Tracked.Inv (s : Tracked) : Prop where
  version_ne : s.programs.params.version ≠ 0
  first : firstTime ≤ s.now
  tracks : ∀ h, Matches (s.programs.words h) (s.life h) s.now

theorem matches_update {life : B256 → Life} {l : Life} {p : Program} {a : Nat}
    (hothers : ∀ h, Matches (ps.words h) (life h) now) (hle : now ≤ time)
    (hrefreshed : l.refreshed = some a) (hp : Recorded p l a time) (h' : B256) :
    Matches (update ps.words h p.toStorage h') (update life h l h') time := by
  by_cases heq : h' = h
  · subst heq
    rw [update_self, update_self, Matches, hrefreshed]
    exact ⟨p, rfl, hp⟩
  · rw [update_of_ne heq, update_of_ne heq]
    exact (hothers h').mono hle

theorem Tracked.Inv.step {s : Tracked} (hs : s.Inv) {op : ProgramOp} (hle : s.now ≤ op.time s.now)
    (hend : op.time s.now < endTime) (hversioned : op.Versioned) : (s.step op).Inv := by
  have hfirst := hs.first.trans hle
  unfold Tracked.step
  cases hop : op.perform s.programs with
  | error e => exact ⟨hs.version_ne, hfirst, fun h => (hs.tracks h).mono hle⟩
  | ok ps' =>
    cases op with
    | activate h time prover =>
      obtain ⟨r, hr, rfl⟩ := map_eq_ok hop
      obtain ⟨hparams, p, hwords, -, hversion, hactivated, hasm, hcached⟩ := activate_ok hr
      have hp : Recorded p
          { s.life h with refreshed := some time, version := s.programs.params.version } time time :=
        ⟨hfirst, Nat.le_refl _, hend, hversion, hs.version_ne, hactivated, hasm,
          hcached.trans ((hs.tracks h).cached time)⟩
      refine ⟨hparams ▸ hs.version_ne, hfirst, fun h' => ?_⟩
      rw [hwords]
      exact matches_update hs.tracks hle rfl hp h'
    | keepalive h time =>
      obtain ⟨r, hr, rfl⟩ := map_eq_ok hop
      obtain ⟨program, hactive, -, rfl⟩ := keepalive_ok_iff.mp hr
      obtain ⟨rfl, hne, -⟩ := getActiveProgram_eq_ok.mp hactive
      refine ⟨hs.version_ne, hfirst, fun h' => ?_⟩
      obtain ⟨-, -, hzero, -⟩ | ⟨a, p, -, hp, -, hget⟩ := (hs.tracks h).cases time
      · exact absurd hzero hne
      · have hp' : Recorded
            { s.programs.getProgram h time with activatedAt := hoursSinceArbitrum time }
            { s.life h with refreshed := some time } time time := by
          rw [hget]
          exact ⟨hfirst, Nat.le_refl _, hend, hp.version, hp.version_ne, rfl, hp.asm_lt, hp.cached⟩
        exact matches_update hs.tracks hle rfl hp' h'
    | setCached h cache time =>
      obtain ⟨hsame, rfl⟩ | ⟨hdiffers, hneeds, rfl⟩ := setCached_ok hop
      · -- nothing is written: the flag is the one asked for
        have hlife : Life.after s.programs.params.version s.life (.setCached h cache time) = s.life := by
          rw [← hsame, (hs.tracks h).cached time]
          exact update_eq_self h s.life
        rw [hlife]
        exact ⟨hs.version_ne, hfirst, fun h' => (hs.tracks h').mono hle⟩
      · refine ⟨hs.version_ne, hfirst, fun h' => ?_⟩
        obtain ⟨-, -, hzero, hcached, -⟩ | ⟨a, p, hsome, hp, -, hget⟩ := (hs.tracks h).cases time
        · -- a program never activated has another version than the one in force
          have hcache : cache = true := by
            rw [hcached] at hdiffers
            exact Bool.eq_true_of_not_eq_false (Ne.symm hdiffers)
          exact absurd ⟨hzero ▸ hs.version_ne.symm, hcache⟩ hneeds
        · have hp' : Recorded { s.programs.getProgram h time with cached := cache }
              { s.life h with cached := cache } a time := by
            rw [hget]
            exact ⟨hp.first, hp.le_now.trans hle, hp.lt_end, hp.version, hp.version_ne,
              hp.activatedAt, hp.asm_lt, rfl⟩
          exact matches_update (l := { s.life h with cached := cache }) hs.tracks hle hsome hp' h'
    | setParams params =>
      cases hop
      exact ⟨hversioned, hfirst, hs.tracks⟩

theorem Tracked.Inv.run {ops : List ProgramOp} : ∀ {s : Tracked}, s.Inv → Timely s.now ops →
    (ops.foldl Tracked.step s).Inv := by
  induction ops with
  | nil => exact fun hs _ => hs
  | cons op rest ih =>
    intro s hs hops
    obtain ⟨hle, hend, hversioned, hrest⟩ := hops
    have hnow : (s.step op).now = op.time s.now := by
      unfold Tracked.step
      cases op.perform s.programs with
      | error e => rfl
      | ok ps' => rfl
    exact ih (hs.step hle hend hversioned) (hnow ▸ hrest)

/-- The programs before any call. -/
def Tracked.start (ps : Programs) (now : Nat) : Tracked := ⟨ps, fun _ => .never, now⟩

/-- After any run, what the calls answer is what the history says. -/
theorem program_lifecycle (ps : Programs) (hempty : ∀ h, ps.words h = 0)
    (hversion : ps.params.version ≠ 0) (start : Nat) (hstart : firstTime ≤ start)
    (ops : List ProgramOp) (hops : Timely start ops) :
    ∀ s, s = ops.foldl Tracked.step (.start ps start) →
    (∀ h time, s.now ≤ time → time < endTime →
      ((∃ p, s.programs.getActiveProgram h time = .ok p) ↔
        (s.life h).Active s.programs.params time) ∧
      (∀ prover, (∀ v, prover v ≠ .error .upToDate) →
        (s.programs.activateProgram h time prover = .error .upToDate ↔
          ∃ p, s.programs.getActiveProgram h time = .ok p)) ∧
      ((∃ r, s.programs.programKeepalive h time = .ok r) ↔
        (s.life h).Active s.programs.params time ∧
          (s.life h).KeepaliveDue s.programs.params time) ∧
      (s.programs.getProgram h time).cached = (s.life h).cached ∧
      (s.programs.getProgram h time).toStorage = s.programs.words h) ∧
    (∀ p : Program, p.activatedAt.toNat < 2 ^ 24 → p.asmEstimateKb.toNat < 2 ^ 24 → ∀ time,
      fromStorage p.toStorage time =
        { p with ageSeconds := hoursToAge time p.activatedAt }) ∧
    ∀ (op : ProgramOp) (ps' : Programs), op.perform s.programs = .ok ps' → ∀ h,
      op.codeHash ≠ some h →
      ps'.words h = s.programs.words h ∧ ps'.moduleHashes h = s.programs.moduleHashes h := by
  rintro s rfl
  have hinv : (ops.foldl Tracked.step (.start ps start)).Inv :=
    Tracked.Inv.run ⟨hversion, hstart, fun h => ⟨hempty h, rfl⟩⟩ hops
  generalize ops.foldl Tracked.step (.start ps start) = s at hinv ⊢
  refine ⟨fun h time hnow hend => ?_, fun p hactivated hasm time =>
    fromStorage_toStorage_of_lt hactivated hasm time,
    fun op ps' hok h hne => perform_frame hok hne⟩
  have hm := hinv.tracks h
  refine ⟨active_iff hm time, fun prover hprover =>
    activate_upToDate_iff hm hinv.version_ne hprover time, keepalive_iff hm time, hm.cached time,
    hm.toStorage_getProgram time⟩

/-- A prover that accepts every module. -/
def anyModule : BitVec 16 → Except ProgramsError ActivationInfo := fun _ => .ok ⟨7, 1, 1, 5000, 2⟩

def lifecyclePrograms : Programs where
  params := ⟨1, 128, 365, 31, 0, 0⟩
  words := fun _ => 0
  moduleHashes := fun _ => 0
  dataPricer := ⟨0, 34865, arbitrumStartTime, 82928201, 21360419⟩
  activationGas := 0

/-- A program activated, cached, refreshed after 31 days and then asked for. -/
theorem program_lifecycle_year :
    let ops := [.activate 5 (firstTime + 10) anyModule, .setCached 5 true (firstTime + 20),
      .keepalive 5 (firstTime + 31 * 86400)]
    ((ops.foldl Tracked.step (.start lifecyclePrograms firstTime)).programs.getProgram 5
      (firstTime + 32 * 86400)).cached = true :=
  ((program_lifecycle lifecyclePrograms (fun _ => rfl) (by decide) firstTime (Nat.le_refl _)
    [.activate 5 (firstTime + 10) anyModule, .setCached 5 true (firstTime + 20),
      .keepalive 5 (firstTime + 31 * 86400)]
    ⟨by decide, by decide, trivial, by decide, by decide, trivial, by decide, by decide, trivial,
      trivial⟩ _ rfl).1 5 (firstTime + 32 * 86400) (by decide) (by decide)).2.2.2.1.trans
    (by decide +kernel)

end Arbreth.Stylus
