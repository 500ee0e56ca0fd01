/-
  Retryable tickets in the executor (arbos, retryables/mod.rs; arb-evm, build.rs:
  create_zombie_if_deleted and the transfer closures).

  A ticket is opened by its timeout: zero means there is none. Cancelling clears the fields and
  leaves the escrow to the executor; deleting also empties the escrow into the beneficiary.
-/
import Arbreth.Exec.State

namespace Arbreth.Exec

open Arbreth.Lib

/-- What a cleared ticket reads as; the zero word is the zero address, not the word for none. -/
def Ticket.cleared : Ticket := ⟨0, 0, some 0, 0, 0, [], 0, 0⟩

/-- `open_retryable`. Past the raw timeout a ticket kept alive survives from ArbOS 60 on. -/
def openRetryable (arbosVersion : Nat) (w : World) (id : B256) (now : Nat) : Option Ticket :=
  let t := w.tickets id
  if t.timeout = 0 then none
  else if t.timeout < now then
    let effective :=
      if 60 ≤ arbosVersion then
        satAdd64 t.timeout (satMul64 t.timeoutWindowsLeft retryableLifetimeSeconds)
      else t.timeout
    if effective < now then none else some t
  else some t

theorem openRetryable_some {v : Nat} {w : World} {id : B256} {now : Nat} {t : Ticket}
    (h : openRetryable v w id now = some t) : t = w.tickets id ∧ (w.tickets id).timeout ≠ 0 := by
  unfold openRetryable at h
  dsimp only at h
  split at h
  · cases h
  · next hlive =>
    split at h
    · generalize (if 60 ≤ v then _ else _) = effective at h
      split at h
      · cases h
      · cases h
        exact ⟨rfl, hlive⟩
    · cases h
      exact ⟨rfl, hlive⟩

namespace World

def setTicket (w : World) (id : B256) (t : Ticket) : World :=
  { w with tickets := Function.update w.tickets id t }

/-- `clear_ticket_fields`. -/
def clearTicketFields (w : World) (id : B256) : World := w.setTicket id Ticket.cleared

/-- `create_retryable`, without the timeout queue. -/
def createRetryable (w : World) (id : B256) (timeout : Nat) (sender : Address)
    (toAddr : Option Address) (callvalue : U256) (beneficiary : Address) (calldata : Bytes) : World :=
  w.setTicket id ⟨0, sender, toAddr, callvalue, beneficiary, calldata, timeout, 0⟩

end World

/-- `CancelOutcome`, without the calldata size the precompile's gas is computed from. -/
inductive CancelOutcome where
  | cleared (beneficiary : Address)
  | noTicket
  | notBeneficiary
  deriving DecidableEq

/-- `RetryableState::cancel`. -/
def cancel (arbosVersion : Nat) (w : World) (id : B256) (caller : Address) (now : Nat) :
    CancelOutcome × World :=
  match openRetryable arbosVersion w id now with
  | none => (.noTicket, w)
  | some t =>
    if caller ≠ t.beneficiary then (.notBeneficiary, w)
    else (.cleared t.beneficiary, w.clearTicketFields id)

namespace Executor

def touch (s : Executor) (accounts : List Address) : Executor :=
  { s with touchedAccounts := accounts ++ s.touchedAccounts }

def unzombie (s : Executor) (a : Address) : Executor :=
  { s with zombieAccounts := s.zombieAccounts.filter (· ≠ a) }

/-- A best-effort transfer after which both ends count as touched. -/
def pay (s : Executor) (src dst : Address) (amount : U256) : Executor :=
  { s with world := transferBalance s.world src dst amount }.touch [src, dst]

/-- `create_zombie_if_deleted`. -/
def createZombieIfDeleted (s : Executor) (a : Address) : Executor :=
  if (s.world.accounts a).isNone ∧ a ∈ s.finaliseDeleted then
    { s with
      world := s.world.materialiseEmpty a
      zombieAccounts := a :: s.zombieAccounts
      touchedAccounts := a :: s.touchedAccounts }
  else s

/-- The transfer closure of internal transactions, redemptions, deletions and sweeps: best
    effort, and from ArbOS 30 on an empty amount no longer revives a deleted source. -/
def doTransfer (s : Executor) (src dst : Address) (amount : U256) : Executor :=
  let s := if amount = 0 ∧ s.ctx.arbosVersion < 30 then s.createZombieIfDeleted src else s
  let s := { s with world := transferBalance s.world src dst amount }
  let s := if amount ≠ 0 then s.unzombie src else s
  (s.unzombie dst).touch [src, dst]

/-- `delete_retryable`. -/
def deleteRetryable (x : Externals) (s : Executor) (id : B256) : Executor :=
  let t := s.world.tickets id
  if t.timeout = 0 then s
  else
    let escrow := retryableEscrowAddress x.keccak256 id
    let s := s.doTransfer escrow t.beneficiary (s.world.getBalance escrow)
    { s with world := s.world.clearTicketFields id }

end Executor

/-! ## What they change -/

section Frame

variable {A : Address → Prop} {T : B256 → Prop}

theorem frame_setTicket {w : World} {id : B256} (t : Ticket) (hid : T id) :
    Frame A T w (w.setTicket id t) where
  nonce _ := rfl
  balance _ _ := rfl
  ticket id' hid' := by
    have hne : id' ≠ id := fun he => hid' (he ▸ hid)
    exact Function.update_of_ne hne _ _
  filtered := rfl

theorem frame_createZombieIfDeleted (s : Executor) (a : Address) :
    Frame A T s.world (s.createZombieIfDeleted a).world := by
  unfold Executor.createZombieIfDeleted
  split
  · exact frame_materialiseEmpty s.world a
  · exact .refl s.world

variable {src dst : Address}

theorem frame_pay {s : Executor} (amount : U256) (hsrc : A src) (hdst : A dst) :
    Frame A T s.world (s.pay src dst amount).world :=
  frame_transferBalance amount hsrc hdst

theorem frame_doTransfer {s : Executor} (amount : U256) (hsrc : A src) (hdst : A dst) :
    Frame A T s.world (s.doTransfer src dst amount).world := by
  have hzombie : Frame A T s.world
      (if amount = 0 ∧ s.ctx.arbosVersion < 30 then s.createZombieIfDeleted src else s).world := by
    split
    · exact frame_createZombieIfDeleted s src
    · exact .refl s.world
  have hmove := hzombie.trans (frame_transferBalance amount hsrc hdst)
  unfold Executor.doTransfer
  dsimp only
  split <;> exact hmove

/-- The balances after a transfer, whatever it does to the zombies. -/
theorem getBalance_doTransfer (s : Executor) (src dst : Address) (amount : U256) :
    (s.doTransfer src dst amount).world.getBalance =
      (transferBalance s.world src dst amount).getBalance := by
  have hzombie : Frame (fun _ => False) (fun _ => False) s.world
      (if amount = 0 ∧ s.ctx.arbosVersion < 30 then s.createZombieIfDeleted src else s).world := by
    split
    · exact frame_createZombieIfDeleted s src
    · exact .refl s.world
  have hbal := funext fun a => hzombie.balance a id
  have hworld : (s.doTransfer src dst amount).world = transferBalance
      (if amount = 0 ∧ s.ctx.arbosVersion < 30 then s.createZombieIfDeleted src else s).world
      src dst amount := by
    unfold Executor.doTransfer
    dsimp only
    split <;> rfl
  rw [hworld]
  exact getBalance_transferBalance_congr hbal src dst amount

theorem frame_deleteRetryable {x : Externals} {s : Executor} {id : B256} (hid : T id)
    (hescrow : A (retryableEscrowAddress x.keccak256 id))
    (hbeneficiary : A (s.world.tickets id).beneficiary) :
    Frame A T s.world (s.deleteRetryable x id).world := by
  unfold Executor.deleteRetryable
  dsimp only
  split
  · exact .refl s.world
  · exact (frame_doTransfer _ hescrow hbeneficiary).trans (frame_setTicket _ hid)

end Frame

/-! ## What they leave alone -/

/-- All of the executor but the world, the lists of accounts and the pending transaction. -/
structure Shell where
  hooks : Option Hooks
  ctx : BlockCtx
  cancelEscrowSweep : Option (Address × Address)
  blockGasLeft : Nat
  userTxsProcessed : Nat

def Executor.shell (s : Executor) : Shell :=
  ⟨s.hooks, s.ctx, s.cancelEscrowSweep, s.blockGasLeft, s.userTxsProcessed⟩

section Shell

variable {s s' : Executor}

theorem hooks_of_shell (h : s'.shell = s.shell) : s'.hooks = s.hooks := congrArg Shell.hooks h

theorem ctx_of_shell (h : s'.shell = s.shell) : s'.ctx = s.ctx := congrArg Shell.ctx h

theorem sweep_of_shell (h : s'.shell = s.shell) : s'.cancelEscrowSweep = s.cancelEscrowSweep :=
  congrArg Shell.cancelEscrowSweep h

theorem shell_ite {c : Prop} [Decidable c] {s₁ s₂ : Executor} {shell : Shell}
    (h₁ : s₁.shell = shell) (h₂ : s₂.shell = shell) : (if c then s₁ else s₂).shell = shell := by
  split
  · exact h₁
  · exact h₂

theorem shell_createZombieIfDeleted (s : Executor) (a : Address) :
    (s.createZombieIfDeleted a).shell = s.shell := shell_ite rfl rfl

theorem shell_doTransfer (s : Executor) (src dst : Address) (amount : U256) :
    (s.doTransfer src dst amount).shell = s.shell := by
  have hzombie : (if amount = 0 ∧ s.ctx.arbosVersion < 30 then s.createZombieIfDeleted src
      else s).shell = s.shell := shell_ite (shell_createZombieIfDeleted s src) rfl
  exact shell_ite hzombie hzombie

theorem shell_deleteRetryable (x : Externals) (s : Executor) (id : B256) :
    (s.deleteRetryable x id).shell = s.shell := shell_ite rfl (shell_doTransfer _ _ _ _)

end Shell

end Arbreth.Exec
