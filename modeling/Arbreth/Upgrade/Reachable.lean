/-
  The states an upgrade can meet.

  A chain starts with `bootstrap` and is then changed by its owner (ArbOwner, arbowner.rs) and
  by upgrades. The Stylus setters load the parameters with the current version, change one and
  save them; none of them changes the parameters' own version. Hence that version follows from
  the ArbOS version (`stylusVersion`), which is what the upgrade steps check.

  The owner's other parameters that the steps read or write have operations of their own here;
  all the remaining ones are writes to other locations (`OwnerOp.write`).
-/
import Arbreth.Lib.Outcome
import Arbreth.Upgrade.Steps

namespace Arbreth.Upgrade

open Arbreth.Lib StylusParams

/-! ## The owner -/

/-- The setters of Stylus parameters, with what they are called with. -/
inductive StylusSetter where
  | setInkPrice (price : BitVec 32)
  | setWasmMaxStackDepth (depth : BitVec 32)
  | setWasmFreePages (pages : BitVec 16)
  | setWasmPageGas (gas : BitVec 16)
  | setWasmPageLimit (limit : BitVec 16)
  | setWasmMinInitGas (gas : BitVec 8) (cached : BitVec 16)
  | setWasmInitCostScalar (percent : BitVec 64)
  | setWasmExpiryDays (days : BitVec 16)
  | setWasmKeepaliveDays (days : BitVec 16)
  | setWasmBlockCacheSize (count : BitVec 16)
  | setWasmMaxSize (size : BitVec 32)
  | setMaxStylusContractFragments (count : BitVec 8)

namespace StylusSetter

/-- `saturating_u8(div_ceil(value, divisor))`. -/
def units (value divisor : Nat) : BitVec 8 :=
  BitVec.ofNat 8 (min (satAdd64 value (divisor - 1) / divisor) 255)

/-- The change to the parameters. -/
def mutate (p : StylusParams) : StylusSetter → StylusParams
  | .setInkPrice price => { p with inkPrice := price }
  | .setWasmMaxStackDepth depth => { p with maxStackDepth := depth }
  | .setWasmFreePages pages => { p with freePages := pages }
  | .setWasmPageGas gas => { p with pageGas := gas }
  | .setWasmPageLimit limit => { p with pageLimit := limit }
  | .setWasmMinInitGas gas cached =>
    { p with minInitGas := units gas.toNat 128, minCachedInitGas := units cached.toNat 32 }
  | .setWasmInitCostScalar percent => { p with initCostScalar := units percent.toNat 2 }
  | .setWasmExpiryDays days => { p with expiryDays := days }
  | .setWasmKeepaliveDays days => { p with keepaliveDays := days }
  | .setWasmBlockCacheSize count => { p with blockCacheSize := count }
  | .setWasmMaxSize size => { p with maxWasmSize := size }
  | .setMaxStylusContractFragments count => { p with maxFragmentCount := count }

/-- The version a setter is there from. -/
def minVersion : StylusSetter → Nat
  | .setWasmMaxSize _ => 40
  | .setMaxStylusContractFragments _ => 60
  | _ => 30

/-- Only the ink price is checked. -/
def accepted : StylusSetter → Bool
  | .setInkPrice price => price ≠ 0 ∧ price ≤ 0xFFFFFF
  | _ => true

end StylusSetter

/-- What the owner can change. -/
inductive OwnerOp where
  | stylus (setter : StylusSetter)
  | setPerBatchGasCharge (cost : Int)
  | setAmortizedCostCapBips (cap : Nat)
  | setMaxTxGasLimit (limit : Nat)
  | setBrotliCompressionLevel (level : Nat)
  | releaseL1PricerSurplusFunds (maxWei : U256)
  | addChainOwner (owner : Address)
  | removeChainOwner (owner : Address)
  | addTransactionFilterer (filterer : Address)
  | removeTransactionFilterer (filterer : Address)
  | write (l : Location) (value : U256)

/-- A call of the owner; one that reverts changes nothing. -/
def ownerStep (s : ArbosState) (c : Core) : OwnerOp → Core
  | .stylus setter =>
    if s.arbosVersion < setter.minVersion ∨ ¬ setter.accepted then c
    else { c with params := (setter.mutate (load s.programs c.params)).saved }
  | .setPerBatchGasCharge cost => { c with perBatchGasCost := cost }
  | .setAmortizedCostCapBips cap => { c with amortizedCostCapBips := cap }
  | .setMaxTxGasLimit limit =>
    -- before version 50 this was the limit of a block
    if s.arbosVersion < 50 then
      { c with
        rest := Function.update c.rest ⟨Subspace.l2Pricing.path, .offset 1⟩
          (BitVec.ofNat 256 limit) }
    else { c with perTxGasLimit := limit }
  | .setBrotliCompressionLevel level =>
    if s.arbosVersion < 20 then c
    else
      match c.setBrotliCompressionLevel level with
      | .ok c' => c'
      | .error _ => c
  | .releaseL1PricerSurplusFunds maxWei =>
    let pool := c.balance l1PricerFundsPoolAddress
    if s.arbosVersion < 10 ∨ pool ≤ c.l1FeesAvailable then c
    else
      let due := pool - c.l1FeesAvailable
      { c with l1FeesAvailable := c.l1FeesAvailable + if due > maxWei then maxWei else due }
  | .addChainOwner owner => { c with chainOwners := c.chainOwners.add owner }
  | .removeChainOwner owner =>
    if c.chainOwners.isMember owner then
      { c with chainOwners := c.chainOwners.remove owner s.arbosVersion }
    else c
  | .addTransactionFilterer filterer =>
    if s.arbosVersion < 60 then c
    else { c with transactionFilterers := c.transactionFilterers.add filterer }
  | .removeTransactionFilterer filterer =>
    if s.arbosVersion < 60 ∨ ¬ c.transactionFilterers.isMember filterer then c
    else
      { c with transactionFilterers := c.transactionFilterers.remove filterer s.arbosVersion }
  | .write l value => { c with rest := Function.update c.rest l value }

/-! ## Reachable states -/

/-- Bootstrapped, and then changed by the owner and by upgrades, each after the state was
    opened. -/
inductive Reachable : World → Prop
  | bootstrap {w w' : World} {s : ArbosState} (writes : List (Location × U256)) {target : Nat}
      (htarget : target ≤ 60) (h : Upgrade.bootstrap w writes target = .ok (s, w')) : Reachable w'
  | owner {w w' : World} {s : ArbosState} (hw : Reachable w) (hopen : openState w = .ok (s, w'))
      (op : OwnerOp) : Reachable { w' with core := ownerStep s w'.core op }
  | upgrade {w w' w'' : World} {s s' : ArbosState} (hw : Reachable w)
      (hopen : openState w = .ok (s, w')) {target : Nat} (htarget : target ≤ 60)
      (h : upgradeArbosVersion s w' target false = .ok (s', w'')) : Reachable w''

/-- The version of the Stylus parameters at an ArbOS version. -/
def stylusVersion (v : Nat) : BitVec 16 := if v < 31 then 1 else if v < 59 then 2 else 3

/-- The parameters are there from version 30 on, in the version that belongs to it. -/
def ParamsOk (v : Nat) (word : U256) : Prop :=
  30 ≤ v → (load v word).version = stylusVersion v

/-- What every reachable state satisfies. -/
structure Inv (w : World) : Prop where
  pos : 1 ≤ w.version
  le : w.version ≤ 60
  params : ParamsOk w.version w.core.params

/-- A step to one of these versions is among those from `a` to `b`. -/
def Named (versions : List Nat) (a b : Nat) : Prop := ∃ v ∈ versions, a < v ∧ v ≤ b

/-- The parameters with those that some upgrade step names set to fixed values. -/
def StylusParams.unnamed (p : StylusParams) : StylusParams :=
  { p with
    arbosVersion := 0, version := 0, maxStackDepth := 0, minInitGas := 0, maxWasmSize := 0
    maxFragmentCount := 0 }

/-- Between two ArbOS versions the parameters keep their values. Those that no step names are
    the ink price, the free pages, page gas and page limit, the cached init gas, the cost
    scalars, the expiry and keepalive days and the block cache size; each of the others is
    kept unless a step that names it is between the two. -/
structure Kept (a b : Nat) (p q : StylusParams) : Prop where
  unnamed : q.unnamed = p.unnamed
  version : ¬ Named [31, 59] a b → q.version = p.version
  maxStackDepth : ¬ Named [50] a b → q.maxStackDepth = p.maxStackDepth
  minInitGas : ¬ Named [31] a b → q.minInitGas = p.minInitGas
  maxWasmSize : ¬ Named [40, 60] a b → q.maxWasmSize = p.maxWasmSize
  maxFragmentCount : ¬ Named [60] a b → q.maxFragmentCount = p.maxFragmentCount

variable {versions : List Nat} {v : Nat} {p : StylusParams}

theorem Named.mono {a a' b b' : Nat} (h : Named versions a b) (ha : a' ≤ a) (hb : b ≤ b') :
    Named versions a' b' := by
  obtain ⟨v, hv, hlt, hle⟩ := h
  exact ⟨v, hv, by omega, by omega⟩

theorem Named.step (h : v + 1 ∈ versions) :
    Named versions v (v + 1) := ⟨v + 1, h, by omega, by omega⟩

theorem Kept.refl (a b : Nat) (p : StylusParams) : Kept a b p p :=
  ⟨rfl, fun _ => rfl, fun _ => rfl, fun _ => rfl, fun _ => rfl, fun _ => rfl⟩

theorem Kept.trans {a b d : Nat} {p q r : StylusParams} (hab : a ≤ b) (hbd : b ≤ d)
    (h : Kept a b p q) (h' : Kept b d q r) : Kept a d p r := by
  have hleft {versions : List Nat} (hn : ¬ Named versions a d) : ¬ Named versions a b :=
    fun hab' => hn (hab'.mono (by omega) hbd)
  have hright {versions : List Nat} (hn : ¬ Named versions a d) : ¬ Named versions b d :=
    fun hbd' => hn (hbd'.mono hab (by omega))
  exact
    { unnamed := h'.unnamed.trans h.unnamed
      version := fun hn => (h'.version (hright hn)).trans (h.version (hleft hn))
      maxStackDepth := fun hn => (h'.maxStackDepth (hright hn)).trans (h.maxStackDepth (hleft hn))
      minInitGas := fun hn => (h'.minInitGas (hright hn)).trans (h.minInitGas (hleft hn))
      maxWasmSize := fun hn => (h'.maxWasmSize (hright hn)).trans (h.maxWasmSize (hleft hn))
      maxFragmentCount := fun hn =>
        (h'.maxFragmentCount (hright hn)).trans (h.maxFragmentCount (hleft hn)) }

theorem Kept.inkPrice {a b : Nat} {p q : StylusParams} (h : Kept a b p q) :
    q.inkPrice = p.inkPrice := by
  show q.unnamed.inkPrice = p.unnamed.inkPrice
  rw [h.unnamed]

/-! ## One step -/

/-- What the steps from version `a` to version `b` do to the parameters and to the one nonce
    that `open` also sets. -/
structure Upgraded (a b : Nat) (c c' : Core) : Prop where
  params : ParamsOk b c'.params
  kept : 30 ≤ a → Kept a b (load a c.params) (load b c'.params)
  nonce : c'.nonce filteredTxStateAddress = c.nonce filteredTxStateAddress

/-- A step that leaves the parameters alone and changes neither their layout nor their
    version. -/
theorem Upgraded.of_same {c c' : Core} (h : ParamsOk v c.params) (hparams : c'.params = c.params)
    (hnonce : c'.nonce filteredTxStateAddress = c.nonce filteredTxStateAddress)
    (hv : v + 1 ≠ 30 ∧ v + 1 ≠ 31 ∧ v + 1 ≠ 40 ∧ v + 1 ≠ 59 ∧ v + 1 ≠ 60) :
    Upgraded v (v + 1) c c' := by
  have hload : load (v + 1) c'.params =
      { load v c.params with arbosVersion := v + 1 } := by
    rw [hparams]
    exact load_of_sameLayout ⟨by omega, by omega⟩ _
  have hversion : stylusVersion (v + 1) = stylusVersion v := by
    unfold stylusVersion
    split_ifs <;> first | rfl | omega
  refine ⟨fun h30 => ?_, fun _ => ?_, hnonce⟩
  · rw [hload, hversion]
    exact h (by omega)
  · rw [hload]
    exact ⟨rfl, fun _ => rfl, fun _ => rfl, fun _ => rfl, fun _ => rfl, fun _ => rfl⟩

/-- Saving drops no parameter that the step does not name. -/
theorem Kept.asOf {word : U256} (h : Kept v (v + 1) (load v word) p) :
    Kept v (v + 1) (load v word) (p.asOf (v + 1)) := by
  have hload := asOf_load v word
  refine
    { h with
      unnamed := h.unnamed
      maxWasmSize := fun hn => ?_
      maxFragmentCount := fun hn => ?_ }
  · have h40 : v + 1 ≠ 40 := fun heq => hn (.step (by simp [heq]))
    rw [← h.maxWasmSize hn]
    show (if 40 ≤ v + 1 then _ else _) = _
    split
    · rfl
    · rw [h.maxWasmSize hn, ← hload]
      exact (if_neg (by omega)).symm
  · have h60 : v + 1 ≠ 60 := fun heq => hn (.step (by simp [heq]))
    show (if 60 ≤ v + 1 then _ else _) = _
    split
    · exact h.maxFragmentCount hn
    · rw [← hload]
      exact (if_neg (by omega)).symm

/-- A step that saves changed parameters. -/
theorem Upgraded.of_saved {c c' : Core} (hparams : c'.params = p.saved)
    (hlayout : StylusParams.SameLayout (v + 1) p.arbosVersion)
    (hversion : p.version = stylusVersion (v + 1))
    (hkept : Kept v (v + 1) (load v c.params) p)
    (hnonce : c'.nonce filteredTxStateAddress = c.nonce filteredTxStateAddress) :
    Upgraded v (v + 1) c c' := by
  have hload : load (v + 1) c'.params = p.asOf (v + 1) := by
    rw [hparams]
    refine load_saved p hlayout ?_
    rw [hkept.inkPrice]
    exact load_inkPrice_lt _ _
  refine ⟨fun _ => ?_, fun _ => ?_, hnonce⟩
  · rw [hload]
    exact hversion
  · rw [hload]
    exact hkept.asOf

theorem updateParams_ok {s : ArbosState} {c : Core}
    {upgrade : StylusParams → Except ProgramsError StylusParams}
    (h : upgrade (load s.programs c.params) = .ok p) :
    c.updateParams s upgrade = .ok { c with params := p.saved } := by
  rw [Core.updateParams, h]

section Arms

/-- What is kept by a step that does not name it is free where the step names it. -/
theorem of_named {versions : List Nat} {v : Nat} {P : Prop} (h : v + 1 ∈ versions) :
    ¬ Named versions v (v + 1) → P := fun hn => absurd (.step h) hn

variable {c : Core} (firstTime : Bool)

theorem upgradeArm_30 :
    ∃ c', upgradeArm (.ofVersion 29) c 30 firstTime = .ok c' ∧ Upgraded 29 30 c c' := by
  refine ⟨_, rfl, ⟨fun _ => ?_, fun h => absurd h (by decide), rfl⟩⟩
  rw [load_saved _ ⟨by decide, by decide⟩ (by decide)]
  rfl

theorem upgradeArm_31 (h : ParamsOk 30 c.params) :
    ∃ c', upgradeArm (.ofVersion 30) c 31 firstTime = .ok c' ∧ Upgraded 30 31 c c' := by
  have hversion : (load 30 c.params).version = 1 := h (by decide)
  have harm : upgradeArm (.ofVersion 30) c 31 firstTime =
      c.updateParams (.ofVersion 30) (·.upgradeToVersion 2) := rfl
  rw [harm, updateParams_ok (upgradeToVersion_two hversion)]
  exact ⟨_, rfl, .of_saved rfl (⟨by decide, by decide⟩ : StylusParams.SameLayout 31 30) rfl
    ⟨rfl, of_named (by decide), fun _ => rfl, of_named (by decide), fun _ => rfl, fun _ => rfl⟩ rfl⟩

theorem upgradeArm_40 (h : ParamsOk 39 c.params) :
    ∃ c', upgradeArm (.ofVersion 39) c 40 firstTime = .ok c' ∧ Upgraded 39 40 c c' := by
  have hversion : (load 39 c.params).version = 2 := h (by decide)
  have hne : filteredTxStateAddress ≠ historyStorageAddress := by decide
  have hnonce : c.installHistory.nonce filteredTxStateAddress = c.nonce filteredTxStateAddress :=
    Function.update_of_ne hne 1 c.nonce
  have harm : upgradeArm (.ofVersion 39) c 40 firstTime =
      c.installHistory.updateParams (.ofVersion 39) (·.upgradeToArbosVersion 40) := rfl
  rw [harm, updateParams_ok
    (upgradeToArbosVersion_40 (by decide : 39 < 40) hversion)]
  exact ⟨_, rfl, .of_saved rfl (⟨by decide, by decide⟩ : StylusParams.SameLayout 40 40) hversion
    ⟨rfl, fun _ => rfl, fun _ => rfl, fun _ => rfl, of_named (by decide), fun _ => rfl⟩ hnonce⟩

theorem upgradeArm_50 (h : ParamsOk 49 c.params) :
    ∃ c', upgradeArm (.ofVersion 49) c 50 firstTime = .ok c' ∧ Upgraded 49 50 c c' := by
  have hversion : (load 49 c.params).version = 2 := h (by decide)
  have harm : upgradeArm (.ofVersion 49) c 50 firstTime =
      (c.updateParams (.ofVersion 49) (·.upgradeToArbosVersion 50)).map
        ({ · with perTxGasLimit := 32000000 }) := rfl
  rw [harm, updateParams_ok (upgradeToArbosVersion_50 (by decide : 49 < 50))]
  exact ⟨_, rfl, .of_saved rfl (⟨by decide, by decide⟩ : StylusParams.SameLayout 50 50) hversion
    ⟨rfl, fun _ => rfl, of_named (by decide), fun _ => rfl, fun _ => rfl, fun _ => rfl⟩ rfl⟩

theorem upgradeArm_59 (h : ParamsOk 58 c.params) :
    ∃ c', upgradeArm (.ofVersion 58) c 59 firstTime = .ok c' ∧ Upgraded 58 59 c c' := by
  have hversion : (load 58 c.params).version = 2 := h (by decide)
  have harm : upgradeArm (.ofVersion 58) c 59 firstTime =
      c.updateParams (.ofVersion 58) (·.upgradeToVersion 3) := rfl
  rw [harm, updateParams_ok (upgradeToVersion_three hversion)]
  exact ⟨_, rfl, .of_saved rfl (⟨by decide, by decide⟩ : StylusParams.SameLayout 59 58) rfl
    ⟨rfl, of_named (by decide), fun _ => rfl, fun _ => rfl, fun _ => rfl, fun _ => rfl⟩ rfl⟩

theorem upgradeArm_60 (h : ParamsOk 59 c.params) :
    ∃ c', upgradeArm (.ofVersion 59) c 60 firstTime = .ok c' ∧ Upgraded 59 60 c c' := by
  have hversion : (load 59 c.params).version = 3 := h (by decide)
  have harm : upgradeArm (.ofVersion 59) c 60 firstTime =
      (c.updateParams (.ofVersion 59) (·.upgradeToArbosVersion 60)).map fun c =>
        { c with transactionFilterers := { c.transactionFilterers with size := 0 } } := rfl
  rw [harm, updateParams_ok (upgradeToArbosVersion_60 (by decide : 59 < 60))]
  exact ⟨_, rfl, .of_saved rfl (⟨by decide, by decide⟩ : StylusParams.SameLayout 60 60) hversion
    ⟨rfl, fun _ => rfl, fun _ => rfl, fun _ => rfl, of_named (by decide), of_named (by decide)⟩ rfl⟩

/-- The parameters and the nonces are left alone. -/
def Leaves (c : Core) (r : Except ArbosStateError Core) : Prop :=
  ∃ c', r = .ok c' ∧ c'.params = c.params ∧ c'.nonce = c.nonce

theorem Leaves.ite {p : Prop} [Decidable p] {r r' : Except ArbosStateError Core}
    (h : p → Leaves c r) (h' : ¬ p → Leaves c r') : Leaves c (if p then r else r') := by
  split
  · next hp => exact h hp
  · next hp => exact h' hp

theorem Leaves.refl : Leaves c (.ok c) := ⟨c, rfl, rfl, rfl⟩

theorem leaves_setLastSurplus (s : ArbosState) : Leaves c (.ok (c.setLastSurplus s 0 false)) := by
  refine ⟨_, rfl, ?_⟩
  unfold Core.setLastSurplus
  split
  · exact ⟨rfl, rfl⟩
  · exact ⟨rfl, rfl⟩

theorem upgradeArm_other {v : Nat} (hpos : 1 ≤ v) (hlt : v < 60)
    (hv : v + 1 ≠ 30 ∧ v + 1 ≠ 31 ∧ v + 1 ≠ 40 ∧ v + 1 ≠ 50 ∧ v + 1 ≠ 59 ∧ v + 1 ≠ 60) :
    Leaves c (upgradeArm (.ofVersion v) c (v + 1) firstTime) := by
  obtain ⟨h30, h31, h40, h50, h59, h60⟩ := hv
  refine .ite (fun _ => leaves_setLastSurplus _) fun h2 => ?_
  refine .ite (fun _ => ⟨_, rfl, rfl, rfl⟩) fun h3 => ?_
  refine .ite (fun _ => .refl) fun h9 => ?_
  refine .ite (fun _ => ⟨_, rfl, rfl, rfl⟩) fun h10 => ?_
  refine .ite (fun _ => ⟨_, rfl, rfl, rfl⟩) fun h11 => ?_
  refine .ite (fun _ => .refl) fun h19 => ?_
  refine .ite (fun _ => ⟨_, rfl, rfl, rfl⟩) fun h20 => ?_
  refine .ite (fun _ => .refl) fun h29 => ?_
  refine .ite (fun h => absurd h h30) fun _ => ?_
  refine .ite (fun h => absurd h h31) fun _ => ?_
  refine .ite (fun _ => .refl) fun h39 => ?_
  refine .ite (fun h => absurd h h40) fun _ => ?_
  refine .ite (fun _ => .refl) fun h49 => ?_
  refine .ite (fun h => absurd h h50) fun _ => ?_
  refine .ite (fun _ => .refl) fun h58 => ?_
  refine .ite (fun h => absurd h h59) fun _ => ?_
  refine .ite (fun h => absurd h h60) fun _ => ?_
  omega

end Arms

/-- Every step from a version below 60 succeeds and keeps what it must. -/
theorem upgradeStep_ok (hpos : 1 ≤ v) (hlt : v < 60) {c : Core} (h : ParamsOk v c.params)
    (firstTime : Bool) :
    ∃ c', upgradeStep (.ofVersion v) c firstTime = .ok c' ∧ Upgraded v (v + 1) c c' := by
  have harm : ∃ c', upgradeArm (.ofVersion v) c (v + 1) firstTime = .ok c' ∧
      Upgraded v (v + 1) c c' := by
    by_cases hv : v + 1 ≠ 30 ∧ v + 1 ≠ 31 ∧ v + 1 ≠ 40 ∧ v + 1 ≠ 50 ∧ v + 1 ≠ 59 ∧ v + 1 ≠ 60
    · obtain ⟨c', hok, hparams, hnonce⟩ := upgradeArm_other (c := c) firstTime hpos hlt hv
      refine ⟨c', hok, .of_same h hparams (by rw [hnonce]) ?_⟩
      exact ⟨hv.1, hv.2.1, hv.2.2.1, hv.2.2.2.2⟩
    · have hcases : v = 29 ∨ v = 30 ∨ v = 39 ∨ v = 49 ∨ v = 58 ∨ v = 59 := by omega
      rcases hcases with rfl | rfl | rfl | rfl | rfl | rfl
      · exact upgradeArm_30 firstTime
      · exact upgradeArm_31 firstTime h
      · exact upgradeArm_40 firstTime h
      · exact upgradeArm_50 firstTime h
      · exact upgradeArm_59 firstTime h
      · exact upgradeArm_60 firstTime h
  obtain ⟨c', hok, hstep⟩ := harm
  refine ⟨c'.installPrecompiles (v + 1), ?_, hstep.params, hstep.kept, hstep.nonce⟩
  show (upgradeArm (.ofVersion v) c (v + 1) firstTime).map _ = _
  rw [hok]
  rfl

end Arbreth.Upgrade
