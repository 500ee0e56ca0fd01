/-
  Collected tips and the network account.

  Where tips are collected revm pays the tip of the gas the EVM used to the coinbase, and
  `commit_transaction` moves it on. The amount is worked out again, from the gas of the receipt
  without the poster's part. That is the EVM's gas unless the calldata floor was higher: then the
  tip of the top-up is taken as well, out of what the coinbase had before, or, where it does not
  have that much, nothing is moved at all.
-/
import Arbreth.Exec.Conserve

namespace Arbreth.Exec

open Arbreth.Lib Arbreth.Tx Function

/-! ## The balance of one account -/

/-- What an account gets of an amount paid to `b`. -/
def gets (a b : Address) (amount : U256) : Nat := if a = b then amount.toNat else 0

/-- What the fees of a transaction pay to an account. -/
def EndTxFeeDistribution.paidTo (d : EndTxFeeDistribution) (a : Address) : Nat :=
  gets a d.networkFeeAccount d.networkFeeAmount + gets a d.infraFeeAccount d.infraFeeAmount +
    gets a d.posterFeeDestination d.posterFeeAmount

/-- All that the fees mint. -/
def EndTxFeeDistribution.minted (d : EndTxFeeDistribution) : Nat :=
  d.networkFeeAmount.toNat + d.infraFeeAmount.toNat + d.posterFeeAmount.toNat

variable {w : World} {a : Address}

theorem gets_le (a b : Address) (amount : U256) : gets a b amount ≤ amount.toNat := by
  unfold gets
  split <;> omega

theorem paidTo_le_minted (d : EndTxFeeDistribution) (a : Address) : d.paidTo a ≤ d.minted :=
  Nat.add_le_add (Nat.add_le_add (gets_le _ _ _) (gets_le _ _ _)) (gets_le _ _ _)

theorem balance_mintBalance (w : World) (b : Address) (amount : U256)
    (hfits : (w.getBalance a).toNat + gets a b amount < 2 ^ 256) :
    ((mintBalance w b amount).getBalance a).toNat = (w.getBalance a).toNat + gets a b amount := by
  rw [mintBalance_eq, World.getBalance_applyMint]
  unfold gets at hfits ⊢
  by_cases hab : a = b
  · subst hab
    rw [if_pos rfl] at hfits ⊢
    rw [update_self, toNat_satAdd256, Nat.min_eq_left (by unfold u256Max; omega)]
  · rw [if_neg hab, update_of_ne hab, Nat.add_zero]

theorem balance_applyFeeDistribution {d : EndTxFeeDistribution}
    (hfits : (w.getBalance a).toNat + d.paidTo a < 2 ^ 256) :
    ((applyFeeDistribution w d).getBalance a).toNat = (w.getBalance a).toNat + d.paidTo a := by
  unfold EndTxFeeDistribution.paidTo at hfits ⊢
  have hnetwork := balance_mintBalance (a := a) w d.networkFeeAccount d.networkFeeAmount (by omega)
  have hinfra := balance_mintBalance (a := a) (mintBalance w d.networkFeeAccount d.networkFeeAmount)
    d.infraFeeAccount d.infraFeeAmount (by omega)
  unfold applyFeeDistribution
  rw [balance_mintBalance _ _ _ (by omega)]
  omega

theorem balance_transferBalance {src dst : Address} (amount : U256) (hdst : a ≠ dst) :
    ((transferBalance w src dst amount).getBalance a).toNat +
        gets a src (if w.getBalance src < amount then 0 else amount) = (w.getBalance a).toNat := by
  by_cases hlt : w.getBalance src < amount
  · rw [transferBalance_short hlt, if_pos hlt]
    unfold gets
    split <;> rfl
  · rw [transferBalance_covered hlt, if_neg hlt, World.getBalance_applyMint,
      update_of_ne hdst, World.getBalance_applyBurn]
    unfold gets
    by_cases hsrc : a = src
    · subst hsrc
      rw [if_pos rfl, update_self, toNat_satSub256]
      have hle : amount.toNat ≤ (w.getBalance a).toNat := BitVec.not_lt.mp hlt
      omega
    · rw [if_neg hsrc, update_of_ne hsrc, Nat.add_zero]

/-! ## The stages of a commit -/

variable {x : Externals} {s : Executor} {p : Pending} {r : TxResult}

/-- What the refund of ArbOS 60 takes from the network account. -/
def multiGasRefund (s : Executor) (p : Pending) (networkFeeAccount : Address) (gasUsed : Nat) :
    U256 :=
  let totalCost := satMul256 s.ctx.basefee gasUsed
  if 60 ≤ s.ctx.arbosVersion ∧ multiCost s p < totalCost then
    if s.world.getBalance networkFeeAccount < satSub256 totalCost (multiCost s p) then 0
    else satSub256 totalCost (multiCost s p)
  else 0

theorem balance_refundMultiGas (networkFeeAccount : Address) (gasUsed : Nat) (ha : a ≠ p.sender) :
    ((refundMultiGas s p networkFeeAccount gasUsed).world.getBalance a).toNat +
        gets a networkFeeAccount (multiGasRefund s p networkFeeAccount gasUsed) =
      (s.world.getBalance a).toNat := by
  unfold refundMultiGas multiGasRefund
  dsimp only
  split
  · exact balance_transferBalance _ ha
  · unfold gets
    split <;> rfl

/-- The executor with the fees distributed. -/
def feesPaid (s : Executor) (d : EndTxFeeDistribution) : Executor :=
  { s with world := applyFeeDistribution s.world d }

/-- Distribution of the fees: an account gets its shares; the refund is the network account's. -/
theorem balance_settleNormal {h : Hooks} (hh : s.hooks = some h) (gasUsed : Nat) (ha : a ≠ p.sender)
    {d : EndTxFeeDistribution} (hd : computeEndTxFees h gasUsed s.ctx.basefee = d)
    (hfits : (s.world.getBalance a).toNat + d.paidTo a < 2 ^ 256) :
    ((settleNormal s p gasUsed).world.getBalance a).toNat +
        gets a h.networkFeeAccount
          (multiGasRefund (feesPaid s d) p h.networkFeeAccount gasUsed) =
      (s.world.getBalance a).toNat + d.paidTo a := by
  have hrefund : ∀ s' : Executor, s'.world = (feesPaid s d).world → s'.ctx = s.ctx →
      s'.multiGasCurrentFees = s.multiGasCurrentFees →
      ((refundMultiGas s' p h.networkFeeAccount gasUsed).world.getBalance a).toNat +
        gets a h.networkFeeAccount
          (multiGasRefund (feesPaid s d) p h.networkFeeAccount gasUsed) =
        (s.world.getBalance a).toNat + d.paidTo a := by
    intro s' hworld hctx hfees
    have hsame : multiGasRefund s' p h.networkFeeAccount gasUsed =
        multiGasRefund (feesPaid s d) p h.networkFeeAccount gasUsed := by
      unfold multiGasRefund multiCost
      rw [hworld, hctx, hfees]
      rfl
    have hstep := balance_refundMultiGas (s := s') h.networkFeeAccount gasUsed ha
    rw [hsame, hworld] at hstep
    exact hstep.trans (balance_applyFeeDistribution hfits)
  subst hd
  unfold settleNormal
  simp only [hh]
  refine hrefund _ ?_ ?_ ?_ <;> split <;> rfl

/-- The executor when the fees come to be distributed. -/
def settling (s : Executor) (p : Pending) (r : TxResult) : Executor :=
  let s := payStylusDataFee (redirectTip (commitRun s r) p r.gasUsed) p
  let s := burnWithdrawn (sweepCancelled s) ((withdrawals r).foldl satAdd256 0)
  chargeExtraGas s p r.gasUsed

theorem commitTransaction_normal (hpending : s.pending = some p) (hretry : p.retryContext = none)
    (hnormal : isNormalType p.arbTxType = true) :
    commitTransaction x s r =
      finalise (chargeBlockGas (settleNormal (settling s p r) p r.gasUsed) p r.gasUsed) := by
  unfold commitTransaction settling settle
  rw [hpending]
  simp only [hretry, hnormal, if_true]

/-- A transaction that has been executed and is to be committed, with the ArbOS hooks that
    distribute its fees. -/
structure Committing where
  state : Executor
  result : TxResult
  pending : Pending
  hooks : Hooks

/-- What `execute_transaction_without_commit` leaves to `commit_transaction`. -/
def committing (x : Externals) (s : Executor) (t : ExecutableTx x) : Option Committing :=
  match executeTransactionWithoutCommit x s t with
  | (s', .ok r) =>
    match s'.pending, (commitRun s' r).hooks with
    | some p, some h => some ⟨s', r, p, h⟩
    | _, _ => none
  | (_, .error _) => none

namespace Committing

variable (x : Externals) (s : Executor) (c : Committing)

/-- The executor with the run's changes. -/
def ran : Executor := commitRun c.state c.result

/-- The executor with the tip moved. -/
def redirected : Executor := redirectTip c.ran c.pending c.result.gasUsed

/-- The network account the tip goes to. -/
def network : Address := c.ran.ctx.networkFeeAccount

/-- `compute_end_tx_fee_distribution` for this transaction. -/
def fees : EndTxFeeDistribution :=
  computeEndTxFees c.hooks c.result.gasUsed c.ran.ctx.basefee

/-- What the network account gives back. -/
def refund : U256 :=
  multiGasRefund (feesPaid (settling c.state c.pending c.result) c.fees) c.pending
    c.hooks.networkFeeAccount c.result.gasUsed

/-- The executor after the commit. -/
def final : Executor := commitTransaction x c.state c.result

/-- The tip of the gas the EVM used. -/
def tip : Nat := c.pending.coinbaseTipPerGas * c.pending.evmGasUsed

/-- The coinbase ends with what it had and what the fees pay to it. The network account gains
    the tip, besides its share, the Stylus data fee and less what it gives back. -/
def TipReaches : Prop :=
  ((c.final x).world.getBalance s.ctx.coinbase).toNat =
      (s.world.getBalance s.ctx.coinbase).toNat + c.fees.paidTo s.ctx.coinbase ∧
    ((c.final x).world.getBalance c.network).toNat + c.refund.toNat =
      (c.ran.world.getBalance c.network).toNat + c.tip +
        (c.pending.stylusDataFee.toNat + c.fees.paidTo c.network)

instance : Decidable (c.TipReaches x s) := inferInstanceAs (Decidable (_ ∧ _))

end Committing

/-- An account that is neither the sender nor an end of the swept escrow nor ArbSys. -/
structure Apart (s : Executor) (p : Pending) (a : Address) : Prop where
  sender : a ≠ p.sender
  arbsys : a ≠ arbsysAddress
  sweep : ∀ e b, s.cancelEscrowSweep = some (e, b) → a ≠ e ∧ a ≠ b

theorem balance_payStylusDataFee (ha : a ≠ p.sender)
    (hfits : (s.world.getBalance a).toNat + gets a s.ctx.networkFeeAccount p.stylusDataFee < 2 ^ 256) :
    ((payStylusDataFee s p).world.getBalance a).toNat =
      (s.world.getBalance a).toNat + gets a s.ctx.networkFeeAccount p.stylusDataFee := by
  unfold payStylusDataFee
  split
  · have hburn : (burnBalance s.world p.sender p.stylusDataFee).getBalance a =
        s.world.getBalance a := by
      rw [burnBalance_eq, World.getBalance_applyBurn, update_of_ne ha]
    exact (balance_mintBalance _ _ _ (by rw [hburn]; exact hfits)).trans (by rw [hburn])
  · next h0 =>
    rw [not_not.mp h0]
    unfold gets
    split <;> rfl

variable {c : Committing}

/-- Between the tip and the fees an account apart gets the data fee at most. -/
theorem balance_settling (ha : Apart c.ran c.pending a)
    (hfits : (c.redirected.world.getBalance a).toNat +
      gets a c.network c.pending.stylusDataFee < 2 ^ 256) :
    let settled := settling c.state c.pending c.result
    (settled.world.getBalance a).toNat =
        (c.redirected.world.getBalance a).toNat + gets a c.network c.pending.stylusDataFee ∧
      settled.ctx = c.ran.ctx ∧ settled.hooks = c.ran.hooks := by
  have htip : c.redirected.shell = c.ran.shell := shell_redirectTip _ _ _
  have hpaid := (shell_payStylusDataFee c.redirected c.pending).trans htip
  have hnetwork : c.redirected.ctx.networkFeeAccount = c.network := by
    rw [ctx_of_shell htip, Committing.network]
  have hdata := balance_payStylusDataFee (s := c.redirected) ha.sender (by rw [hnetwork]; exact hfits)
  rw [hnetwork] at hdata
  have hsettling : settling c.state c.pending c.result = chargeExtraGas (burnWithdrawn
      (sweepCancelled (payStylusDataFee c.redirected c.pending))
      ((withdrawals c.result).foldl satAdd256 0)) c.pending c.result.gasUsed := rfl
  rw [hsettling]
  generalize payStylusDataFee c.redirected c.pending = s₁ at *
  generalize (withdrawals c.result).foldl satAdd256 0 = value
  obtain ⟨-, hsweepHooks, hsweepCtx⟩ := sweepCancelled_spec s₁
  have hcharge := (shell_chargeExtraGas (burnWithdrawn (sweepCancelled s₁) value) c.pending
    c.result.gasUsed).trans (shell_burnWithdrawn _ value)
  have hswept : (sweepCancelled s₁).world.getBalance a = s₁.world.getBalance a :=
    (frame_sweepCancelled (A := fun b => b ≠ a) (T := fun _ => True) fun e b he =>
      have hends := ha.sweep e b (by rw [← sweep_of_shell hpaid]; exact he)
      ⟨hends.1.symm, hends.2.symm⟩).balance a fun h => h rfl
  have hburnt := (frame_burnWithdrawn (A := fun b => b ≠ a) (T := fun _ => True)
    (s := sweepCancelled s₁) value ha.arbsys.symm).balance a fun h => h rfl
  have hcharged := (frame_chargeExtraGas (A := fun b => b ≠ a) (T := fun _ => True)
    (s := burnWithdrawn (sweepCancelled s₁) value) (p := c.pending) c.result.gasUsed
    ha.sender.symm).balance a fun h => h rfl
  refine ⟨?_, ?_, ?_⟩
  · rw [hcharged, hburnt, hswept, hdata]
  · rw [ctx_of_shell hcharge, hsweepCtx, ctx_of_shell hpaid]
  · rw [hooks_of_shell hcharge, hsweepHooks, hooks_of_shell hpaid]

/-- The ledger of an account apart: what the tip's move left, the data fee and its shares. -/
theorem balance_final (hpending : c.state.pending = some c.pending)
    (hretry : c.pending.retryContext = none) (hnormal : isNormalType c.pending.arbTxType = true)
    (hh : c.ran.hooks = some c.hooks) (ha : Apart c.ran c.pending a)
    (hfits : (c.redirected.world.getBalance a).toNat +
      gets a c.network c.pending.stylusDataFee + c.fees.paidTo a < 2 ^ 256) :
    ((c.final x).world.getBalance a).toNat + gets a c.hooks.networkFeeAccount c.refund =
      (c.redirected.world.getBalance a).toNat + gets a c.network c.pending.stylusDataFee +
        c.fees.paidTo a := by
  obtain ⟨hbalance, hctx, hhooks⟩ := balance_settling ha (by omega)
  have hsettled := balance_settleNormal (p := c.pending) (hhooks.trans hh)
    c.result.gasUsed ha.sender (congrArg _ (congrArg _ hctx)) (by rw [hbalance]; exact hfits)
  rw [hbalance] at hsettled
  rw [Committing.final, commitTransaction_normal hpending hretry hnormal,
    (frame_finalise (A := fun _ => False) (T := fun _ => False) _).balance a id]
  exact hsettled

/-! ## The move of the tip -/

/-- What is moved of a tip that is due: all of it or nothing. -/
def tipMoved (due balance : Nat) : Nat := if due ≤ balance then due else 0

theorem balance_redirectTip (gasUsed : Nat) (hcollected : p.cappedGasPrice = false)
    (hne : s.ctx.coinbase ≠ s.ctx.networkFeeAccount)
    (hprice : p.coinbaseTipPerGas ≤ u128Max) (hgas : gasUsed ≤ u64Max)
    (hsupply : s.world.supply < 2 ^ 256) :
    let moved := tipMoved (p.coinbaseTipPerGas * (gasUsed - p.posterGas))
      (s.world.getBalance s.ctx.coinbase).toNat
    ((redirectTip s p gasUsed).world.getBalance s.ctx.coinbase).toNat + moved =
        (s.world.getBalance s.ctx.coinbase).toNat ∧
      ((redirectTip s p gasUsed).world.getBalance s.ctx.networkFeeAccount).toNat =
        (s.world.getBalance s.ctx.networkFeeAccount).toNat + moved := by
  have hdue : p.coinbaseTipPerGas * (gasUsed - p.posterGas) ≤ u128Max * u64Max :=
    Nat.mul_le_mul hprice ((Nat.sub_le _ _).trans hgas)
  have hword : u128Max * u64Max < 2 ^ 256 := by decide
  have hsmall : u128Max < 2 ^ 256 := by decide
  have htip : (satMul256 (BitVec.ofNat 256 p.coinbaseTipPerGas) (gasUsed - p.posterGas)).toNat =
      p.coinbaseTipPerGas * (gasUsed - p.posterGas) := by
    have hnat : (BitVec.ofNat 256 p.coinbaseTipPerGas).toNat = p.coinbaseTipPerGas := by
      rw [BitVec.toNat_ofNat, Nat.mod_eq_of_lt (by omega)]
    rw [toNat_satMul256_of_lt (by rw [hnat]; omega), hnat]
  unfold tipMoved redirectTip
  generalize satMul256 (BitVec.ofNat 256 p.coinbaseTipPerGas) (gasUsed - p.posterGas) = tip at htip ⊢
  rw [← htip]
  by_cases hcovers : tip.toNat ≤ (s.world.getBalance s.ctx.coinbase).toNat
  · have hlt : ¬ s.world.getBalance s.ctx.coinbase < tip := BitVec.not_lt.mpr hcovers
    rw [if_pos hcovers]
    by_cases h0 : tip = 0
    · rw [if_neg fun h => h.2.2.2.2.1 h0, h0]
      exact ⟨rfl, rfl⟩
    · have hpos : 0 < p.coinbaseTipPerGas * (gasUsed - p.posterGas) := by
        rw [← htip]
        exact Nat.pos_of_ne_zero fun hz => h0 (BitVec.eq_of_toNat_eq hz)
      have htipPos : 0 < p.coinbaseTipPerGas := Nat.pos_of_mul_pos_right hpos
      have hgasPos : 0 < gasUsed := by
        have := Nat.pos_of_mul_pos_left hpos
        omega
      rw [if_pos ⟨hcollected, htipPos, hgasPos, hne, h0, hlt⟩]
      change ((transferBalance s.world _ _ tip).getBalance _).toNat + _ = _ ∧
        ((transferBalance s.world _ _ tip).getBalance _).toNat = _
      -- Both ends lie within the supply, so that the mint does not saturate.
      have hburn := supply_applyBurn (w := s.world) s.ctx.coinbase tip
      have hends := getBalance_le_supply (s.world.applyBurn s.ctx.coinbase tip) s.ctx.networkFeeAccount
      rw [World.getBalance_applyBurn, update_of_ne hne.symm] at hends
      rw [transferBalance_covered hlt, World.getBalance_applyMint, update_of_ne hne,
        update_self, World.getBalance_applyBurn, update_self,
        update_of_ne hne.symm, toNat_satSub256, toNat_satAdd256]
      unfold u256Max
      omega
  · rw [if_neg hcovers, if_neg fun h => hcovers (BitVec.not_lt.mp h.2.2.2.2.2)]
    exact ⟨rfl, rfl⟩

theorem supply_redirectTip (gasUsed : Nat) (h : s.world.supply < 2 ^ 256) :
    (redirectTip s p gasUsed).world.supply = s.world.supply := by
  unfold redirectTip
  dsimp only
  split
  · exact supply_transferBalance _ _ _ h
  · rfl

/-- Exactly the tip of the gas is moved where the gas due is the gas used or no tip is paid. -/
theorem tipMoved_eq_iff {tip due used before : Nat} (hused : 0 < used) :
    tipMoved (tip * due) (before + tip * used) = tip * used ↔ tip = 0 ∨ due = used := by
  unfold tipMoved
  constructor
  · intro h
    by_cases h0 : tip = 0
    · exact .inl h0
    · refine .inr ?_
      split at h
      · exact Nat.eq_of_mul_eq_mul_left (Nat.pos_of_ne_zero h0) h
      · have := Nat.mul_pos (Nat.pos_of_ne_zero h0) hused
        omega
  · rintro (rfl | rfl)
    · simp
    · rw [if_pos (Nat.le_add_left _ _)]

/-- The receipt's gas without the poster's is the EVM's where the floor is reached without a
    top-up. -/
theorem receiptGas_sub_iff {evmGasUsed posterGas floor : Nat} (hsum : evmGasUsed + posterGas ≤ u64Max)
    (hfloor : floor ≤ u64Max) :
    receiptGas evmGasUsed posterGas floor - posterGas = evmGasUsed ↔
      floor ≤ evmGasUsed + posterGas := by
  have hgas : (if 0 < posterGas then satAdd64 evmGasUsed posterGas else evmGasUsed) =
      evmGasUsed + posterGas := by
    unfold satAdd64
    split <;> omega
  unfold receiptGas
  dsimp only
  rw [hgas]
  unfold satAdd64
  split <;> omega

/-! ## Executing and committing -/

/-- What is assumed of the run: it uses some gas, no more than it was given, and the coinbase
    gets the tip of that gas and is not touched otherwise. -/
def CreditsTip (x : Externals) (s : Executor) (t : ExecutableTx x) : Prop :=
  ∀ out, normalRun x s t = .ok out →
    0 < out.gasUsed ∧ out.gasUsed ≤ (normalInput x s t).env.gasLimit ∧
      (out.world.getBalance s.ctx.coinbase).toNat =
        (s.world.getBalance s.ctx.coinbase).toNat + effectiveTipPerGas x s t * out.gasUsed

instance (x : Externals) (s : Executor) (t : ExecutableTx x) : Decidable (CreditsTip x s t) := by
  delta CreditsTip
  infer_instance

/-- The calldata floor is reached without a top-up. -/
def NoTopUp (x : Externals) (s : Executor) (t : ExecutableTx x) : Prop :=
  ∀ out, normalRun x s t = .ok out → calldataFloorGas x s t ≤ out.gasUsed + posterGasFor x s t

/-- A normal transaction with tips collected, executed and to be committed. Hooks and context
    agree on the network account, coinbase and network account differ and take no other part, and
    all ether fits a word. -/
structure TipCollected (x : Externals) (s : Executor) (t : ExecutableTx x) (c : Committing) :
    Prop where
  executed : committing x s t = some c
  normal : isNormalType (ArbTxType.fromU8 t.tx.ty) = true
  collects : shouldDropTip s = false
  priceWidth : t.env.gasPrice ≤ u128Max
  limitWidth : t.env.gasLimit ≤ u64Max
  credits : CreditsTip x s t
  agree : c.hooks.networkFeeAccount = c.network
  differ : s.ctx.coinbase ≠ c.network
  coinbase : Apart c.ran c.pending s.ctx.coinbase
  network : Apart c.ran c.pending c.network
  room : c.ran.world.supply + c.pending.stylusDataFee.toNat + c.fees.minted < 2 ^ 256

variable {t : ExecutableTx x}

theorem committing_eq_some (h : committing x s t = some c) :
    executeTransactionWithoutCommit x s t = (c.state, .ok c.result) ∧
      c.state.pending = some c.pending ∧ c.ran.hooks = some c.hooks := by
  unfold committing at h
  generalize executeTransactionWithoutCommit x s t = o at h ⊢
  obtain ⟨s', result⟩ := o
  cases result with
  | error e => cases h
  | ok r =>
    dsimp only at h
    cases hp : s'.pending with
    | none => rw [hp] at h; cases h
    | some p =>
      cases hh : (commitRun s' r).hooks with
      | none => rw [hp, hh] at h; cases h
      | some h' =>
        rw [hp, hh] at h
        cases h
        exact ⟨rfl, hp, hh⟩

theorem effectiveTipPerGas_le (h : t.env.gasPrice ≤ u128Max) : effectiveTipPerGas x s t ≤ u128Max := by
  unfold effectiveTipPerGas
  dsimp only
  split <;> omega

/-- The balances at the end, given what the move of the tip left: the tip has reached the
    network account if exactly its amount was moved. -/
theorem TipCollected.reaches_iff (hc : TipCollected x s t c) (moved : Nat)
    (hretry : c.pending.retryContext = none) (hty : c.pending.arbTxType = ArbTxType.fromU8 t.tx.ty)
    (hran : (c.ran.world.getBalance s.ctx.coinbase).toNat =
      (s.world.getBalance s.ctx.coinbase).toNat + c.tip)
    (hcoinbase : (c.redirected.world.getBalance s.ctx.coinbase).toNat + moved =
      (c.ran.world.getBalance s.ctx.coinbase).toNat)
    (hnetwork : (c.redirected.world.getBalance c.network).toNat =
      (c.ran.world.getBalance c.network).toNat + moved) :
    c.TipReaches x s ↔ moved = c.tip := by
  obtain ⟨-, hpending, hhooks⟩ := committing_eq_some hc.executed
  have hnormal : isNormalType c.pending.arbTxType = true := hty ▸ hc.normal
  have hroom := hc.room
  have hsupply : c.redirected.world.supply = c.ran.world.supply :=
    supply_redirectTip c.result.gasUsed (by omega)
  have hledger : ∀ a, Apart c.ran c.pending a →
      ((c.final x).world.getBalance a).toNat + gets a c.network c.refund =
        (c.redirected.world.getBalance a).toNat + gets a c.network c.pending.stylusDataFee +
          c.fees.paidTo a := by
    intro a ha
    have hbalance := getBalance_le_supply c.redirected.world a
    have hdata := gets_le a c.network c.pending.stylusDataFee
    have hfees := paidTo_le_minted c.fees a
    have hfinal := balance_final (x := x) hpending hretry hnormal hhooks ha (by omega)
    rwa [hc.agree] at hfinal
  have hpaid := hledger s.ctx.coinbase hc.coinbase
  have hgained := hledger c.network hc.network
  unfold gets at hpaid hgained
  rw [if_neg hc.differ, if_neg hc.differ] at hpaid
  rw [if_pos rfl, if_pos rfl] at hgained
  unfold Committing.TipReaches
  omega

variable {l1PricePerUnit : U256} {out : EvmOutput}

/-- Where the run used gas, poster and EVM gas together stay within the limit. -/
theorem CreditsTip.gas_le (hcredits : CreditsTip x s t) (hrun : normalRun x s t = .ok out)
    (hlimit : t.env.gasLimit ≤ u64Max) : out.gasUsed + posterGasFor x s t ≤ u64Max := by
  obtain ⟨hpos, hused, -⟩ := hcredits out hrun
  obtain ⟨hposter, -⟩ := charges_resetTx (x := x) s t
  have hle := posterGasFor_le x s t
  change out.gasUsed ≤ t.env.gasLimit - satAdd64 (posterGasFor x s.resetTx t) _ at hused
  rw [hposter] at hused
  unfold satAdd64 at hused
  omega

/-- What a transaction the hook reverts leaves to its commit. -/
structure ForcedCommit (x : Externals) (s : Executor) (t : ExecutableTx x) (c : Committing) :
    Prop where
  hook : hookAction x s t ≠ .none
  retry : c.pending.retryContext = none
  ty : c.pending.arbTxType = ArbTxType.fromU8 t.tx.ty
  noTip : c.pending.coinbaseTipPerGas = 0
  balances : c.ran.world.getBalance = s.world.getBalance

/-- What a transaction that ran leaves to its commit. -/
structure RanCommit (x : Externals) (s : Executor) (t : ExecutableTx x) (c : Committing)
    (out : EvmOutput) : Prop where
  hook : hookAction x s t = .none
  run : normalRun x s t = .ok out
  retry : c.pending.retryContext = none
  ty : c.pending.arbTxType = ArbTxType.fromU8 t.tx.ty
  tip : c.pending.coinbaseTipPerGas = effectiveTipPerGas x s t
  capped : c.pending.cappedGasPrice = shouldDropTip s
  evmGas : c.pending.evmGasUsed = out.gasUsed
  posterGas : c.pending.posterGas = posterGasFor x s t
  receipt : c.result.gasUsed = receiptGas out.gasUsed (posterGasFor x s t) (calldataFloorGas x s t)
  world : c.ran.world = out.world
  coinbase : c.ran.ctx.coinbase = s.ctx.coinbase

theorem committing_cases (hexecuted : committing x s t = some c)
    (hnormal : isNormalType (ArbTxType.fromU8 t.tx.ty) = true) :
    ForcedCommit x s t c ∨ ∃ out, RanCommit x s t c out := by
  obtain ⟨hexec, hpending, -⟩ := committing_eq_some hexecuted
  have hok : returnsOk x s t = true := by
    unfold returnsOk
    rw [hexec]
    rfl
  have hpath := userPath_of_ok (isNormalType_eq t.tx ▸ hnormal) hok
  rw [hexec] at hpath
  generalize ho : (c.state, Except.ok c.result) = o at hpath
  obtain ⟨s', r, p, h⟩ := c
  cases hpath with
  | forced _ output hne =>
    cases ho
    cases hpending
    exact .inl ⟨hne, rfl, rfl, rfl, World.getBalance_incrementNonce _ _⟩
  | ran out hhook _ hrun =>
    cases ho
    cases hpending
    obtain ⟨hposter, -, hfloor, hdrop⟩ := charges_resetTx (x := x) s t
    obtain ⟨hfloor', hdrop'⟩ := charges_chargeGas s.resetTx t
    obtain ⟨hworld, -, -, hcoinbase⟩ := commitRun_kept
      (finishEvm x (chargeGas x s.resetTx t) t none (posterGasFor x s.resetTx t) out).1 _
    refine .inr ⟨out, hhook, hrun, rfl, rfl, rfl, hdrop'.trans hdrop, rfl, hposter, ?_, hworld,
      hcoinbase⟩
    rw [← hposter, ← hfloor, ← hfloor']

/-- The tip of a normal transaction reaches the network account, no more and no less, exactly if
    the hook reverts the transaction, no tip is paid, or the calldata floor needs no top-up. -/
theorem tip_reaches_network_iff (hc : TipCollected x s t c) :
    c.TipReaches x s ↔
      (hookAction x s t = .none → effectiveTipPerGas x s t = 0 ∨ NoTopUp x s t) := by
  have hroom := hc.room
  rcases committing_cases hc.executed hc.normal with hforced | ⟨out, hran⟩
  · -- Nothing ran: no tip was paid and none is moved.
    have hkept : c.redirected = c.ran :=
      redirectTip_dropped c.result.gasUsed (.inr hforced.noTip)
    have htip : c.tip = 0 := by
      unfold Committing.tip
      rw [hforced.noTip, Nat.zero_mul]
    have hreaches := hc.reaches_iff 0 hforced.retry hforced.ty
      (by rw [hforced.balances, htip, Nat.add_zero]) (by rw [hkept, Nat.add_zero])
      (by rw [hkept, Nat.add_zero])
    exact ⟨fun _ hhook => absurd hhook hforced.hook, fun _ => hreaches.mpr htip.symm⟩
  · obtain ⟨hpos, -, hcredited⟩ := hc.credits out hran.run
    have hsum := hc.credits.gas_le hran.run hc.limitWidth
    have hreceipt := receiptGas_bounds (calldataFloorGas x s t) out.gasUsed_le (posterGasFor_le x s t)
    have htip : c.tip = effectiveTipPerGas x s t * out.gasUsed := by
      unfold Committing.tip
      rw [hran.tip, hran.evmGas]
    have hmove := balance_redirectTip (s := c.ran) (p := c.pending) c.result.gasUsed
      (hran.capped.trans hc.collects) (by rw [hran.coinbase]; exact hc.differ)
      (by rw [hran.tip]; exact effectiveTipPerGas_le hc.priceWidth)
      (by rw [hran.receipt]; exact hreceipt.2) (by omega)
    rw [hran.coinbase] at hmove
    have hreaches := hc.reaches_iff _ hran.retry hran.ty
      (by rw [hran.world, hcredited, htip]) hmove.1 hmove.2
    have htopUp : NoTopUp x s t ↔ calldataFloorGas x s t ≤ out.gasUsed + posterGasFor x s t := by
      constructor
      · exact fun h => h out hran.run
      · intro h out' hrun'
        obtain rfl : out = out' := Except.ok.inj (hran.run.symm.trans hrun')
        exact h
    rw [hreaches, htip, hran.world, hcredited, hran.tip, hran.receipt, hran.posterGas,
      tipMoved_eq_iff hpos, receiptGas_sub_iff hsum (calldataFloorGas_le x s t), htopUp]
    exact ⟨fun h _ => h, fun h => h hran.hook⟩

/-! ## A run -/

/-- A call that also pays the tip of its gas to the batch poster. -/
def tippedCall (gasUsed : Nat) (i : EvmInput) (w : World) : World :=
  mintBalance (transferCall i w) batchPosterAddress
    (satMul256 (BitVec.ofNat 256 (i.env.gasPrice - i.basefee.toNat)) gasUsed)

def tippedRun : EvmInput → World → Except String EvmOutput := revmRun 21064 (tippedCall 21064)

/-- A transfer with four bytes of data at twice the base fee: 21064 gas, floor 21160. -/
def tippedTx : ExecutableTx (sampleExternals tippedRun) where
  tx := ⟨.legacy ⟨some 42161, 3, 200000000, 100000, some 0xb0b, 1000000000000000000, [1, 2, 3, 4]⟩,
    ⟨1, 1, false⟩⟩
  env := ⟨0, sampleSender, 100000, 3, some 42161, some 0xb0b, [1, 2, 3, 4], 200000000, none,
    1000000000000000000, [], []⟩
  env_eq := rfl

/-- ArbOS 60 with tips collected and the higher calldata price; the batch poster has one ether. -/
def tippedExecutor (l1PricePerUnit : U256) : Executor :=
  { fundedExecutor false with
    world := mintBalance (fundedExecutor false).world batchPosterAddress 1000000000000000000
    ctx := { sampleCtx with l1PricePerUnit := l1PricePerUnit, arbosVersion := 60 }
    hooks := some { sampleHooks with
      arbosVersion := 60, calldataPricingIncreaseEnabled := true, collectTipsEnabled := true } }

theorem supply_tippedExecutor (l1PricePerUnit : U256) :
    (tippedExecutor l1PricePerUnit).world.supply = 3000000000000000000 := by
  have hsupply := supply_fundedExecutor false
  have hworld : (tippedExecutor l1PricePerUnit).world =
      mintBalance (fundedExecutor false).world batchPosterAddress 1000000000000000000 := rfl
  rw [hworld, supply_mintBalance _ (by rw [hsupply]; decide +kernel), hsupply]
  decide +kernel

theorem supply_mintBalance_le (w : World) (a : Address) (m : U256) :
    (mintBalance w a m).supply ≤ w.supply + m.toNat := by
  have hupd := supply_update (w.getBalance_applyMint a m)
  rw [toNat_satAdd256] at hupd
  rw [mintBalance_eq]
  omega

theorem toNat_price_le (price gas : Nat) :
    (satMul256 (BitVec.ofNat 256 price) gas).toNat ≤ price * gas := by
  rw [toNat_satMul256, BitVec.toNat_ofNat]
  exact (Nat.min_le_left _ _).trans (Nat.mul_le_mul_right _ (Nat.mod_le _ _))

/-- A tipped run adds at most the tip and the gas paid back. -/
theorem supply_tippedRun_le {gasUsed : Nat} {i : EvmInput}
    (h : revmRun gasUsed (tippedCall gasUsed) i w = .ok out) (hfits : w.supply < 2 ^ 256) :
    out.world.supply ≤ w.supply + i.env.gasPrice * gasUsed + i.env.gasPrice * i.env.gasLimit := by
  obtain ⟨-, -, -, w₁, hsame, hworld⟩ := revmRun_ok h
  have hburn := supply_burnBalance (w := w₁) i.env.caller
    (satMul256 (BitVec.ofNat 256 i.env.gasPrice) i.env.gasLimit)
  rw [supply_congr hsame] at hburn
  rw [hworld]
  refine (supply_mintBalance_le _ _ _).trans (Nat.add_le_add ?_ ?_)
  · refine (supply_mintBalance_le _ _ _).trans (Nat.add_le_add ?_ ?_)
    · rw [supply_transferCall _ _ (by omega)]
      omega
    · exact (toNat_price_le _ _).trans (Nat.mul_le_mul_right _ (Nat.sub_le _ _))
  · exact (toNat_price_le _ _).trans (Nat.mul_le_mul_left _ (Nat.sub_le _ _))

theorem normalInput_le (s : Executor) (t : ExecutableTx x) :
    (normalInput x s t).env.gasPrice ≤ t.env.gasPrice ∧
      (normalInput x s t).env.gasLimit ≤ t.env.gasLimit := by
  refine ⟨?_, Nat.sub_le _ _⟩
  unfold normalInput evmInput
  dsimp only
  split
  · next hcapped => exact Nat.le_of_lt hcapped.2
  · exact Nat.le_refl _

theorem supply_chargeGas (s : Executor) (t : ExecutableTx x) :
    (chargeGas x s.resetTx t).world.supply = s.world.supply := supply_congr rfl

/-- A tipped transaction leaves little more ether than there was to its commit. -/
theorem supply_tipped_le
    (h : committing (sampleExternals tippedRun) (tippedExecutor l1PricePerUnit) tippedTx = some c) :
    c.ran.world.supply ≤ 2 ^ 64 := by
  have hsupply := supply_tippedExecutor l1PricePerUnit
  rcases committing_cases h (by decide +kernel) with hforced | ⟨out, hran⟩
  · rw [supply_congr hforced.balances, hsupply]
    decide
  · have hcharged := (supply_chargeGas (tippedExecutor l1PricePerUnit) tippedTx).trans hsupply
    obtain ⟨hprice, hlimit⟩ := normalInput_le (tippedExecutor l1PricePerUnit) tippedTx
    have hrun : revmRun 21064 (tippedCall 21064) _ _ = _ := hran.run
    have hle := supply_tippedRun_le hrun (hcharged.trans_lt (by decide))
    have htip := Nat.mul_le_mul_right 21064 hprice
    have hgas := Nat.mul_le_mul hprice hlimit
    have hcost : tippedTx.env.gasPrice * 21064 + tippedTx.env.gasPrice * tippedTx.env.gasLimit ≤
        2 ^ 48 := by decide +kernel
    rw [hran.world]
    omega

/-- The fees are small, the hooks agree on the network account and nothing is swept. -/
abbrev Plain (c : Committing) : Prop :=
  c.pending.stylusDataFee.toNat + c.fees.minted ≤ 2 ^ 64 ∧ c.hooks.networkFeeAccount = 0xfee ∧
    c.network = 0xfee ∧ c.pending.sender = sampleSender ∧ c.ran.cancelEscrowSweep = none

/-- Both ends take no other part. -/
theorem tipped_collected (hexecuted :
      committing (sampleExternals tippedRun) (tippedExecutor l1PricePerUnit) tippedTx = some c)
    (hcredits : CreditsTip (sampleExternals tippedRun) (tippedExecutor l1PricePerUnit) tippedTx)
    (hplain : Plain c) :
    TipCollected (sampleExternals tippedRun) (tippedExecutor l1PricePerUnit) tippedTx c := by
  obtain ⟨hfees, hhooks, hnetwork, hsender, hsweep⟩ := hplain
  have hsupply := supply_tipped_le hexecuted
  have hnone : ∀ e b, ¬ c.ran.cancelEscrowSweep = some (e, b) := by
    intro e b he
    rw [hsweep] at he
    cases he
  have hcoinbase : (tippedExecutor l1PricePerUnit).ctx.coinbase = batchPosterAddress := rfl
  have hapart : ∀ a, a ≠ sampleSender → a ≠ arbsysAddress → Apart c.ran c.pending a :=
    fun a hs harbsys => ⟨hsender ▸ hs, harbsys, fun e b he => absurd he (hnone e b)⟩
  exact
    { executed := hexecuted
      normal := by decide +kernel
      collects := rfl
      priceWidth := by decide +kernel
      limitWidth := by decide +kernel
      credits := hcredits
      agree := hhooks.trans hnetwork.symm
      differ := by rw [hnetwork, hcoinbase]; decide +kernel
      coinbase := hapart _ (by rw [hcoinbase]; decide +kernel) (by rw [hcoinbase]; decide +kernel)
      network := hapart _ (by rw [hnetwork]; decide +kernel) (by rw [hnetwork]; decide +kernel)
      room := by omega }

/-- With 800 poster gas the floor is reached, and the tip of 21064 gas reaches the network
    account. -/
theorem tip_reaches_network_with_poster :
    ∃ c, TipCollected (sampleExternals tippedRun) (tippedExecutor 100000000) tippedTx c ∧
      c.pending.posterGas = 800 ∧ c.tip = 21064 * 100000000 ∧
      c.TipReaches (sampleExternals tippedRun) (tippedExecutor 100000000) := by
  have hsome : (committing (sampleExternals tippedRun) (tippedExecutor 100000000) tippedTx).isSome := by
    decide +kernel
  obtain ⟨c, hexecuted⟩ := Option.isSome_iff_exists.mp hsome
  have hread : ∀ c ∈ committing (sampleExternals tippedRun) (tippedExecutor 100000000) tippedTx,
      c.pending.posterGas = 800 ∧ c.tip = 21064 * 100000000 ∧ Plain c := by
    decide +kernel
  obtain ⟨hposter, htip, hplain⟩ := hread c hexecuted
  have hc := tipped_collected hexecuted (by decide +kernel) hplain
  have hfloor : NoTopUp (sampleExternals tippedRun) (tippedExecutor 100000000) tippedTx := by
    unfold NoTopUp
    decide +kernel
  exact ⟨c, hc, hposter, htip, (tip_reaches_network_iff hc).mpr fun _ => .inr hfloor⟩

/-- Without poster gas the floor adds 96 gas, whose tip the coinbase pays out of its own. -/
theorem topped_up_tip_drains_coinbase :
    ∃ c, TipCollected (sampleExternals tippedRun) (tippedExecutor 0) tippedTx c ∧
      ¬ c.TipReaches (sampleExternals tippedRun) (tippedExecutor 0) ∧
      c.fees.paidTo batchPosterAddress = 0 ∧
      ((c.final (sampleExternals tippedRun)).world.getBalance batchPosterAddress).toNat +
          96 * 100000000 = ((tippedExecutor 0).world.getBalance batchPosterAddress).toNat := by
  have hsome : (committing (sampleExternals tippedRun) (tippedExecutor 0) tippedTx).isSome := by
    decide +kernel
  obtain ⟨c, hexecuted⟩ := Option.isSome_iff_exists.mp hsome
  have hread : ∀ c ∈ committing (sampleExternals tippedRun) (tippedExecutor 0) tippedTx,
      (¬ c.TipReaches (sampleExternals tippedRun) (tippedExecutor 0) ∧
        c.fees.paidTo batchPosterAddress = 0 ∧
        ((c.final (sampleExternals tippedRun)).world.getBalance batchPosterAddress).toNat +
          96 * 100000000 = ((tippedExecutor 0).world.getBalance batchPosterAddress).toNat) ∧
        Plain c := by
    decide +kernel
  obtain ⟨hfails, hplain⟩ := hread c hexecuted
  exact ⟨c, tipped_collected hexecuted (by decide +kernel) hplain, hfails⟩

end Arbreth.Exec
