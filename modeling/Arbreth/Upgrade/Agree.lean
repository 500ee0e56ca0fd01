/-
  Upgrading at once and in two parts (arbos, arbos_state/mod.rs).

  The steps from one version to another are those up to a version between them followed by the
  remaining ones, and the versions in memory are the same whether they are kept or read back
  from the state. Every step of a reachable state succeeds (`upgradeLoop_ok`), so both ways
  return. They can differ only where `open` does more than read: from version 60 on it gives
  the account of the filtered transactions the nonce 1, which the step to 60 does not.
-/
import Arbreth.Upgrade.Reachable

namespace Arbreth.Upgrade

open Arbreth.Lib Function StylusParams

/-! ## Runs of steps -/

variable (setter : StylusSetter) (firstTime : Bool) {w : World} {v : Nat} (c : Core)
  {s : ArbosState} (p : StylusParams) {target : Nat}

theorem Upgraded.refl {c : Core} (h : ParamsOk v c.params) : Upgraded v v c c :=
  ⟨h, fun _ => .refl _ _ _, rfl⟩

theorem Upgraded.trans {a b d : Nat} {c c' c'' : Core} (hab : a ≤ b) (hbd : b ≤ d)
    (h : Upgraded a b c c') (h' : Upgraded b d c' c'') : Upgraded a d c c'' where
  params := h'.params
  kept h30 := (h.kept h30).trans hab hbd (h'.kept (by omega))
  nonce := h'.nonce.trans h.nonce

/-- The loop reaches every version up to 60. -/
theorem upgradeLoop_ok (n : Nat) (hpos : 1 ≤ v) (hle : v + n ≤ 60) {c : Core}
    (h : ParamsOk v c.params) :
    ∃ c', upgradeLoop firstTime n (.ofVersion v) c = .ok (.ofVersion (v + n), c') ∧
      Upgraded v (v + n) c c' := by
  induction n generalizing v c with
  | zero => exact ⟨c, rfl, .refl h⟩
  | succ n ih =>
    obtain ⟨c₁, hstep, hup⟩ := upgradeStep_ok hpos (by omega) h firstTime
    obtain ⟨c', hloop, hup'⟩ := ih (by omega) (by omega) hup.params
    have hadd : v + 1 + n = v + (n + 1) := by omega
    rw [hadd] at hloop hup'
    refine ⟨c', ?_, hup.trans (by omega) (by omega) hup'⟩
    rw [upgradeLoop, hstep, ok_bind]
    exact hloop

theorem upgradeLoop_add (m n : Nat) (s : ArbosState) (c : Core) :
    upgradeLoop firstTime (m + n) s c =
      upgradeLoop firstTime m s c >>= fun r => upgradeLoop firstTime n r.1 r.2 := by
  induction m generalizing s c with
  | zero => rw [Nat.zero_add]; rfl
  | succ m ih =>
    rw [Nat.succ_add, upgradeLoop, upgradeLoop]
    cases hstep : upgradeStep s c firstTime with
    | error e => rfl
    | ok c' => exact ih (.ofVersion (s.arbosVersion + 1)) c'

theorem upgradeArbosVersion_of_loop {c : Core}
    (h : upgradeLoop false (target - s.arbosVersion) s w.core = .ok (.ofVersion target, c)) :
    upgradeArbosVersion s w target false = .ok (.ofVersion target, ⟨target, c⟩) := by
  rw [upgradeArbosVersion, h]
  rfl

/-! ## Opening the state -/

/-- The state after `open`. -/
def World.opened (w : World) : World :=
  if 60 ≤ w.version then { w with core := w.core.setFilteredNonce } else w

open World

theorem World.opened_of_lt (h : w.version < 60) : w.opened = w :=
  if_neg (Nat.not_le.mpr h)

theorem World.opened_of_eq (h : w.version = 60) :
    w.opened = { w with core := w.core.setFilteredNonce } := if_pos h.ge

@[simp]
theorem World.opened_version (w : World) : w.opened.version = w.version := by
  unfold opened
  split <;> rfl

theorem World.opened_params (w : World) : w.opened.core.params = w.core.params := by
  unfold opened
  split <;> rfl

theorem Core.setFilteredNonce_nonce : c.setFilteredNonce.nonce filteredTxStateAddress = 1 :=
  update_self filteredTxStateAddress 1 c.nonce

theorem Core.setFilteredNonce_idem : c.setFilteredNonce.setFilteredNonce = c.setFilteredNonce := by
  simp [Core.setFilteredNonce]

theorem Core.eq_setFilteredNonce_iff :
    c = c.setFilteredNonce ↔ c.nonce filteredTxStateAddress = 1 := by
  constructor
  · intro h
    have hnonce := congrArg (fun c => c.nonce filteredTxStateAddress) h
    exact hnonce.trans c.setFilteredNonce_nonce
  · intro h
    have hnonce : c.nonce = update c.nonce filteredTxStateAddress 1 := by
      rw [← h, update_eq_self]
    rw [setFilteredNonce, ← hnonce]

theorem openState_of_inv (hw : Inv w) : openState w = .ok (.ofVersion w.version, w.opened) := by
  have hpos : w.version ≠ 0 := Nat.one_le_iff_ne_zero.mp hw.pos
  exact (if_neg hpos).trans (if_neg (Nat.not_lt.mpr hw.le))

theorem Inv.opened (hw : Inv w) : Inv w.opened := by
  refine ⟨?_, ?_, ?_⟩
  · rw [opened_version]
    exact hw.pos
  · rw [opened_version]
    exact hw.le
  · rw [opened_version, opened_params]
    exact hw.params

/-! ## The invariant -/

theorem StylusSetter.mutate_arbosVersion : (setter.mutate p).arbosVersion = p.arbosVersion := by
  cases setter <;> rfl

theorem StylusSetter.mutate_version : (setter.mutate p).version = p.version := by
  cases setter <;> rfl

/-- What an accepted setter leaves fits the 24 bits of the ink price. -/
theorem StylusSetter.mutate_inkPrice_lt {setter : StylusSetter} (haccepted : setter.accepted)
    {p : StylusParams} (h : p.inkPrice.toNat < 2 ^ 24) :
    (setter.mutate p).inkPrice.toNat < 2 ^ 24 := by
  cases setter with
  | setInkPrice price =>
    have hle : price ≤ 0xFFFFFF := (of_decide_eq_true haccepted).2
    have hnat : price.toNat ≤ 0xFFFFFF := hle
    show price.toNat < 2 ^ 24
    omega
  | _ => exact h

/-- Only the Stylus setters touch the parameters. -/
theorem ownerStep_params (s : ArbosState) (c : Core) {op : OwnerOp}
    (hop : ∀ setter, op ≠ .stylus setter) : (ownerStep s c op).params = c.params := by
  cases op with
  | stylus setter => exact absurd rfl (hop setter)
  | setBrotliCompressionLevel level =>
    unfold ownerStep Core.setBrotliCompressionLevel
    dsimp only
    split_ifs <;> rfl
  | _ => simp only [ownerStep, apply_ite Core.params, ite_self]

/-- No call of the owner changes the version of the parameters. -/
theorem ParamsOk.ownerStep {c : Core} (h : ParamsOk v c.params) (op : OwnerOp) :
    ParamsOk v (ownerStep (.ofVersion v) c op).params := by
  cases op with
  | stylus setter =>
    unfold Upgrade.ownerStep
    dsimp only
    split
    · exact h
    · next hcalled =>
        rw [not_or, not_not] at hcalled
        intro h30
        have hsame : StylusParams.SameLayout v
            (setter.mutate (load v c.params)).arbosVersion := by
          rw [setter.mutate_arbosVersion]
          exact ⟨Iff.rfl, Iff.rfl⟩
        have hink := StylusSetter.mutate_inkPrice_lt hcalled.2
          (load_inkPrice_lt v c.params)
        show (load v (setter.mutate (load v c.params)).saved).version = _
        rw [load_saved _ hsame hink]
        show (setter.mutate (load v c.params)).version = _
        rw [setter.mutate_version]
        exact h h30
  | _ =>
    refine (congrArg (ParamsOk v) (ownerStep_params _ _ ?_)).mpr h
    intro setter heq
    cases heq

theorem Inv.upgrade {w w' : World} (hw : Inv w) (ht : target ≤ 60) {firstTime : Bool}
    (h : upgradeArbosVersion (.ofVersion w.version) w target firstTime = .ok (s, w')) : Inv w' := by
  have hpos := hw.pos
  have hle := hw.le
  obtain ⟨c, hloop, hup⟩ := upgradeLoop_ok firstTime (target - w.version) hpos (by omega) hw.params
  have harbos : (ArbosState.ofVersion w.version).arbosVersion = w.version := rfl
  rw [upgradeArbosVersion, harbos, hloop, ok_bind] at h
  cases h
  refine ⟨?_, ?_, ?_⟩
  · show 1 ≤ w.version + (target - w.version)
    omega
  · show w.version + (target - w.version) ≤ 60
    omega
  · have hparams : (if firstTime ∧ 6 ≤ target then firstTimeExtras c target else c).params =
        c.params := by
      split <;> rfl
    rw [hparams]
    exact hup.params

theorem Inv.first : Inv ⟨1, c⟩ where
  pos := le_refl 1
  le := (by decide : 1 ≤ 60)
  params h30 := absurd h30 (by decide : ¬ 30 ≤ 1)

theorem Inv.owner (hw : Inv w) (op : OwnerOp) :
    Inv { w with core := ownerStep (.ofVersion w.version) w.core op } :=
  ⟨hw.pos, hw.le, hw.params.ownerStep op⟩

theorem Reachable.inv (hw : Reachable w) : Inv w := by
  induction hw with
  | bootstrap writes htarget h => exact (Inv.first _).upgrade htarget h
  | owner hw hopen op ih =>
    rw [openState_of_inv ih, ← opened_version] at hopen
    cases hopen
    exact ih.opened.owner op
  | upgrade hw hopen htarget h ih =>
    rw [openState_of_inv ih, ← opened_version] at hopen
    cases hopen
    exact ih.opened.upgrade htarget h

/-! ## At once and in two parts -/

/-- The upgrade of a state to a version, in one call. -/
def directUpgrade (w : World) (c : Nat) : Except ArbosStateError (ArbosState × World) := do
  let (s, w) ← openState w
  upgradeArbosVersion s w c false

/-- The upgrade to one version, the state opened again, and then to another. -/
def stepwiseUpgrade (w : World) (b c : Nat) : Except ArbosStateError (ArbosState × World) := do
  let (s, w) ← openState w
  let (_, w) ← upgradeArbosVersion s w b false
  let (s, w) ← openState w
  upgradeArbosVersion s w c false

/-- Equal but for the nonce of the account of the filtered transactions. -/
def SameButFilteredNonce (w w' : World) : Prop :=
  w.version = w'.version ∧ w.core.setFilteredNonce = w'.core.setFilteredNonce

theorem directUpgrade_ok (hw : Inv w) {c : Nat} (hle : w.version ≤ c) (hc : c ≤ 60) :
    ∃ core, upgradeLoop false (c - w.version) (.ofVersion w.version) w.opened.core =
        .ok (.ofVersion c, core) ∧
      directUpgrade w c = .ok (.ofVersion c, ⟨c, core⟩) ∧
      Upgraded w.version c w.opened.core core := by
  have hpos := hw.pos
  have hparams : ParamsOk w.version w.opened.core.params := by
    rw [opened_params]
    exact hw.params
  obtain ⟨core, hloop, hup⟩ := upgradeLoop_ok false (c - w.version) hpos (by omega) hparams
  have hadd : w.version + (c - w.version) = c := by omega
  rw [hadd] at hloop hup
  refine ⟨core, hloop, ?_, hup⟩
  rw [directUpgrade, openState_of_inv hw, ok_bind]
  exact upgradeArbosVersion_of_loop hloop

/-- In two parts it is the upgrade to the first version, and then, from that state, the
    upgrade to the second. -/
theorem stepwiseUpgrade_eq (w : World) (b c : Nat) :
    stepwiseUpgrade w b c = directUpgrade w b >>= fun r => directUpgrade r.2 c := by
  unfold stepwiseUpgrade directUpgrade
  cases openState w with
  | error e => rfl
  | ok r => rfl

theorem stepwiseUpgrade_of_lt (hw : Inv w) {b c : Nat} (hb : w.version ≤ b) (hbc : b ≤ c)
    (hc : c ≤ 60) (hlt : b < 60) : stepwiseUpgrade w b c = directUpgrade w c := by
  obtain ⟨core, hloop, hdirect, hup⟩ := directUpgrade_ok hw hb (by omega)
  have hpos := hw.pos
  have hinv : Inv ⟨b, core⟩ := ⟨by show 1 ≤ b; omega, hlt.le, hup.params⟩
  obtain ⟨core', hloop', hdirect', _⟩ := directUpgrade_ok hinv hbc hc
  rw [opened_of_lt hlt] at hloop'
  have hsplit : c - w.version = (b - w.version) + (c - b) := by omega
  have hwhole : upgradeLoop false (c - w.version) (.ofVersion w.version) w.opened.core =
      .ok (.ofVersion c, core') := by
    rw [hsplit, upgradeLoop_add, hloop, ok_bind]
    exact hloop'
  rw [stepwiseUpgrade_eq, hdirect, ok_bind, hdirect', directUpgrade, openState_of_inv hw, ok_bind]
  exact (upgradeArbosVersion_of_loop hwhole).symm

theorem stepwiseUpgrade_60 {w w' : World} (hw : Inv w) (h : directUpgrade w 60 = .ok (s, w')) :
    stepwiseUpgrade w 60 60 = .ok (s, { w' with core := w'.core.setFilteredNonce }) := by
  obtain ⟨core, hloop, hdirect, hup⟩ := directUpgrade_ok hw hw.le (le_refl 60)
  have hinv : Inv ⟨60, core⟩ := ⟨(by decide : 1 ≤ 60), le_refl 60, hup.params⟩
  rw [stepwiseUpgrade_eq, h]
  rw [hdirect] at h
  cases h
  rw [ok_bind, directUpgrade, openState_of_inv hinv]
  rfl

/-- Below 60 the nonce is that of the state before. -/
theorem World.opened_nonce (hw : Inv w) :
    w.opened.core.nonce filteredTxStateAddress = 1 ↔
      w.version = 60 ∨ w.core.nonce filteredTxStateAddress = 1 := by
  rcases hw.le.lt_or_eq with hlt | heq
  · rw [opened_of_lt hlt]
    simp [hlt.ne]
  · rw [opened_of_eq heq]
    simp [heq, Core.setFilteredNonce_nonce]

/-- From every reachable state both ways return, with the same versions in memory. They agree
    in the stored version, the storage, the codes, and the nonces but that of the account of
    the filtered transactions; in that one too exactly if the first part ends below 60, the
    state was at 60 before, or the nonce was 1 already. Opening either state gives the same.
    The parameters that no step between names keep their values. -/
theorem stepwise_upgrade_agrees {w : World} (hw : Reachable w) {b c : Nat} (hb : w.version ≤ b)
    (hbc : b ≤ c) (hc : c ≤ 60) :
    ∃ wd ws, directUpgrade w c = .ok (.ofVersion c, wd) ∧
      stepwiseUpgrade w b c = .ok (.ofVersion c, ws) ∧
      SameButFilteredNonce wd ws ∧
      (wd = ws ↔ b < 60 ∨ w.version = 60 ∨ w.core.nonce filteredTxStateAddress = 1) ∧
      openState wd = openState ws ∧
      (30 ≤ w.version → Kept w.version c (load w.version w.core.params)
        (load c wd.core.params)) := by
  obtain ⟨core, -, hdirect, hup⟩ := directUpgrade_ok hw.inv (hb.trans hbc) hc
  have hkept := hup.kept
  rw [opened_params] at hkept
  rcases Nat.lt_or_ge b 60 with hlt | hge
  · refine ⟨_, _, hdirect, ?_, ⟨rfl, rfl⟩, by simp [hlt], rfl, hkept⟩
    rw [stepwiseUpgrade_of_lt hw.inv hb hbc hc hlt, hdirect]
  · obtain rfl : b = 60 := by omega
    obtain rfl : c = 60 := by omega
    have hsame : SameButFilteredNonce ⟨60, core⟩ ⟨60, core.setFilteredNonce⟩ :=
      ⟨rfl, core.setFilteredNonce_idem.symm⟩
    refine ⟨_, _, hdirect, stepwiseUpgrade_60 hw.inv hdirect, hsame, ?_, ?_, hkept⟩
    · rw [World.mk.injEq, core.eq_setFilteredNonce_iff, hup.nonce, opened_nonce hw.inv]
      simp
    · show Except.ok (_, World.mk 60 core.setFilteredNonce) =
        .ok (_, World.mk 60 core.setFilteredNonce.setFilteredNonce)
      rw [core.setFilteredNonce_idem]

/-! ## Starting a chain -/

/-- A chain starts at every version up to 60; the account of the filtered transactions is not
    touched. -/
theorem bootstrap_ok (w : World) (writes : List (Location × U256)) (hpos : 1 ≤ target)
    (hle : target ≤ 60) :
    ∃ w', bootstrap w writes target = .ok (.ofVersion target, w') ∧ w'.version = target ∧
      w'.core.nonce filteredTxStateAddress = w.core.nonce filteredTxStateAddress := by
  have hne : filteredTxStateAddress ≠ arbosStateAddress := by decide
  let core : Core :=
    { w.core with
      nonce := update w.core.nonce arbosStateAddress 1
      rest := writes.foldl (fun rest entry => update rest entry.1 entry.2) w.core.rest }
  obtain ⟨c', hloop, hup⟩ := upgradeLoop_ok true (target - 1) (le_refl 1) (by omega)
    (Inv.first core).params
  have hadd : 1 + (target - 1) = target := by omega
  rw [hadd] at hloop hup
  have hopen : openState ⟨1, core⟩ = .ok (.ofVersion 1, ⟨1, core⟩) :=
    openState_of_inv (Inv.first core)
  have harbos : (ArbosState.ofVersion 1).arbosVersion = 1 := rfl
  have hbootstrap : bootstrap w writes target =
      upgradeArbosVersion (.ofVersion 1) ⟨1, core⟩ target true := by
    rw [bootstrap, hopen, ok_bind]
  rw [hbootstrap, upgradeArbosVersion, harbos, hloop]
  refine ⟨_, rfl, rfl, ?_⟩
  have hnonce : (if true ∧ 6 ≤ target then firstTimeExtras c' target else c').nonce = c'.nonce := by
    split <;> rfl
  rw [hnonce, hup.nonce]
  exact update_of_ne hne 1 w.core.nonce

/-- An empty state. -/
def blankWorld : World where
  version := 0
  core :=
    { lastSurplus := 0
      perBatchGasCost := 0
      amortizedCostCapBips := 0
      l1FeesAvailable := 0
      chainOwners := .init
      brotliCompressionLevel := 0
      params := 0
      dataPricer := ⟨0, 0, 0, 0, 0⟩
      perTxGasLimit := 0
      transactionFilterers := .init
      rest := fun _ => 0
      code := fun _ => []
      nonce := fun _ => 0
      balance := fun _ => 0 }

/-- The chain that starts at a version. -/
def chainAt (v : Nat) : World :=
  match bootstrap blankWorld [] v with
  | .ok r => r.2
  | .error _ => blankWorld

theorem chainAt_spec (hpos : 1 ≤ v) (hle : v ≤ 60) :
    Reachable (chainAt v) ∧ (chainAt v).version = v ∧
      (chainAt v).core.nonce filteredTxStateAddress = 0 := by
  obtain ⟨w, hok, hversion, hnonce⟩ := bootstrap_ok blankWorld [] hpos hle
  have hchain : chainAt v = w := by rw [chainAt, hok]
  rw [hchain]
  exact ⟨.bootstrap [] hle hok, hversion, hnonce⟩

/-- At version 59 the filtered transactions' account has nonce 0. Upgraded to 60 at once it
    keeps it; opened again at 60 it has nonce 1. -/
theorem reopened_upgrade_sets_nonce :
    Reachable (chainAt 59) ∧
      ∃ wd ws, directUpgrade (chainAt 59) 60 = .ok (.ofVersion 60, wd) ∧
        stepwiseUpgrade (chainAt 59) 60 60 = .ok (.ofVersion 60, ws) ∧
        wd.core.nonce filteredTxStateAddress = 0 ∧ ws.core.nonce filteredTxStateAddress = 1 := by
  obtain ⟨hw, hversion, hnonce⟩ := chainAt_spec (by decide : 1 ≤ 59) (by decide)
  obtain ⟨core, -, hdirect, hup⟩ := directUpgrade_ok hw.inv hw.inv.le (le_refl 60)
  refine ⟨hw, _, _, hdirect, stepwiseUpgrade_60 hw.inv hdirect, ?_, core.setFilteredNonce_nonce⟩
  rw [hup.nonce, opened_of_lt (by omega), hnonce]

/-- From 30 to 60, stopping at 40. -/
theorem stepwise_upgrade_agrees_thirty :
    Reachable (chainAt 30) ∧
      ∃ wd ws, directUpgrade (chainAt 30) 60 = .ok (.ofVersion 60, wd) ∧
        stepwiseUpgrade (chainAt 30) 40 60 = .ok (.ofVersion 60, ws) ∧ wd = ws ∧
        Kept 30 60 (load 30 (chainAt 30).core.params)
          (load 60 wd.core.params) := by
  obtain ⟨hw, hversion, -⟩ := chainAt_spec (by decide : 1 ≤ 30) (by decide)
  obtain ⟨wd, ws, hdirect, hstepwise, -, heq, -, hkept⟩ :=
    stepwise_upgrade_agrees hw (by omega : (chainAt 30).version ≤ 40) (by decide) (le_refl 60)
  rw [hversion] at hkept
  exact ⟨hw, wd, ws, hdirect, hstepwise, heq.mpr (.inl (by decide)), hkept (le_refl 30)⟩

end Arbreth.Upgrade
