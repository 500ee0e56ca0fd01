/-
  The escrow of cancelled tickets.

  A run may cancel any number of tickets, at any depth, but it can hand on one sweep only, and
  a reverted call hands it on too. `escrow_sweep_exact_iff` says for which runs the sweep after
  the run is right: among the tickets whose escrow is not empty, the ones whose cancel was not
  undone are the one cancelled last, and nobody but the executor has moved the escrow of a live
  ticket. revm is a parameter, with `RunsCalls` for the calls it runs. Escrow addresses are
  hashes: `EscrowsApart` says that those of open tickets meet each other, the callers of
  `cancel` and the accounts the executor settles with nowhere.
-/
import Arbreth.Exec.Cancel
import Arbreth.Exec.Conserve
import Arbreth.Exec.Entry

namespace Arbreth.Exec

open Arbreth.Lib Arbreth.Tx Function
open Arbreth.Stylus (oneKind)

/-! ## Sweeping escrows -/

section Sweeps

variable {w : World} {src dst a : Address}

theorem afterSweep_zero (dst : Address) (h : w.getBalance src = 0) : afterSweep w (some (src, dst)) = w := by
  unfold afterSweep transferBalance balanceOp applyBalanceOp
  simp only [h, if_true]

theorem getBalance_afterSweep (w : World) (src dst : Address) :
    (afterSweep w (some (src, dst))).getBalance =
      update (update w.getBalance src 0) dst
        (satAdd256 (update w.getBalance src 0 dst) (w.getBalance src)) := by
  have hall : satSub256 (w.getBalance src) (w.getBalance src) = 0 := by
    refine BitVec.eq_of_toNat_eq ?_
    rw [toNat_satSub256, Nat.sub_self]
    rfl
  change (transferBalance w src dst (w.getBalance src)).getBalance = _
  rw [transferBalance_covered (BitVec.lt_irrefl _), World.getBalance_applyMint,
    World.getBalance_applyBurn, hall]

theorem getBalance_afterSweep_src (h : src ≠ dst) : (afterSweep w (some (src, dst))).getBalance src = 0 := by
  rw [getBalance_afterSweep, update_of_ne h, update_self]

theorem getBalance_afterSweep_of_ne (hsrc : a ≠ src) (hdst : a ≠ dst) :
    (afterSweep w (some (src, dst))).getBalance a = w.getBalance a := by
  rw [getBalance_afterSweep, update_of_ne hdst, update_of_ne hsrc]

theorem getBalance_afterSweep_zero (h : w.getBalance a = 0) (hdst : a ≠ dst) :
    (afterSweep w (some (src, dst))).getBalance a = 0 := by
  by_cases hsrc : a = src
  · subst hsrc
    exact getBalance_afterSweep_src hdst
  · rw [getBalance_afterSweep_of_ne hsrc hdst, h]

/-- Empty the escrow of each ticket into its beneficiary. -/
def sweepAll (escrow : B256 → Address) (tickets : List (B256 × Address)) (w : World) : World :=
  tickets.foldl (fun w t => afterSweep w (some (escrow t.1, t.2))) w

variable {escrow : B256 → Address} {tickets : List (B256 × Address)}

theorem sweepAll_cons (t : B256 × Address) : sweepAll escrow (t :: tickets) w =
    sweepAll escrow tickets (afterSweep w (some (escrow t.1, t.2))) := rfl

theorem sweepAll_empty (h : ∀ t ∈ tickets, w.getBalance (escrow t.1) = 0) :
    sweepAll escrow tickets w = w := by
  induction tickets with
  | nil => rfl
  | cons t tickets ih =>
    rw [sweepAll_cons, afterSweep_zero t.2 (h t List.mem_cons_self)]
    exact ih fun t' ht' => h t' (List.mem_cons_of_mem t ht')

theorem getBalance_sweepAll_of_ne (hsrc : ∀ t ∈ tickets, a ≠ escrow t.1)
    (hdst : ∀ t ∈ tickets, a ≠ t.2) : (sweepAll escrow tickets w).getBalance a = w.getBalance a := by
  induction tickets generalizing w with
  | nil => rfl
  | cons t tickets ih =>
    refine (ih (fun t' ht' => hsrc t' (List.mem_cons_of_mem t ht'))
      fun t' ht' => hdst t' (List.mem_cons_of_mem t ht')).trans ?_
    exact getBalance_afterSweep_of_ne (hsrc t List.mem_cons_self) (hdst t List.mem_cons_self)

theorem getBalance_sweepAll_zero (h : w.getBalance a = 0) (hdst : ∀ t ∈ tickets, a ≠ t.2) :
    (sweepAll escrow tickets w).getBalance a = 0 := by
  induction tickets generalizing w with
  | nil => exact h
  | cons t tickets ih =>
    exact ih (getBalance_afterSweep_zero h (hdst t List.mem_cons_self))
      fun t' ht' => hdst t' (List.mem_cons_of_mem t ht')

/-- Every escrow is empty afterwards, as none of them is a beneficiary. -/
theorem getBalance_sweepAll_mem {t : B256 × Address} (ht : t ∈ tickets)
    (hapart : ∀ t ∈ tickets, ∀ t' ∈ tickets, escrow t.1 ≠ t'.2) :
    (sweepAll escrow tickets w).getBalance (escrow t.1) = 0 := by
  induction tickets generalizing w with
  | nil => cases ht
  | cons t₀ tickets ih =>
    have htail : ∀ t ∈ tickets, ∀ t' ∈ tickets, escrow t.1 ≠ t'.2 := fun t ht t' ht' =>
      hapart t (List.mem_cons_of_mem t₀ ht) t' (List.mem_cons_of_mem t₀ ht')
    rw [sweepAll_cons]
    rcases List.mem_cons.mp ht with rfl | ht
    · refine getBalance_sweepAll_zero (getBalance_afterSweep_src ?_) fun t' ht' => ?_
      · exact hapart t List.mem_cons_self t List.mem_cons_self
      · exact hapart t List.mem_cons_self t' (List.mem_cons_of_mem t ht')
    · exact ih ht htail

/-- One sweep does for all if the other escrows are empty. -/
theorem sweepAll_one {t : B256 × Address} (ht : t ∈ tickets) (hnodup : (tickets.map Prod.fst).Nodup)
    (hapart : ∀ t ∈ tickets, ∀ t' ∈ tickets, escrow t.1 ≠ t'.2)
    (hempty : ∀ t' ∈ tickets, t' ≠ t → w.getBalance (escrow t'.1) = 0) :
    sweepAll escrow tickets w = afterSweep w (some (escrow t.1, t.2)) := by
  induction tickets with
  | nil => cases ht
  | cons t₀ tickets ih =>
    obtain ⟨hfresh, hnodup⟩ := List.nodup_cons.mp hnodup
    rw [sweepAll_cons]
    by_cases hhead : t₀ = t
    · subst hhead
      refine sweepAll_empty fun t' ht' => getBalance_afterSweep_zero ?_ ?_
      · refine hempty t' (List.mem_cons_of_mem t₀ ht') fun he => hfresh ?_
        exact he ▸ List.mem_map_of_mem ht'
      · exact hapart t' (List.mem_cons_of_mem t₀ ht') t₀ List.mem_cons_self
    · rw [afterSweep_zero t₀.2 (hempty t₀ List.mem_cons_self hhead)]
      refine ih ((List.mem_cons.mp ht).resolve_left fun he => hhead he.symm) hnodup
        (fun t ht t' ht' => ?_) fun t' ht' => ?_
      · exact hapart t (List.mem_cons_of_mem t₀ ht) t' (List.mem_cons_of_mem t₀ ht')
      · exact hempty t' (List.mem_cons_of_mem t₀ ht')

end Sweeps

/-! ## The transaction -/

variable (x : Externals)

def cancelCtx (ctx : BlockCtx) (i : EvmInput) : CancelCtx := ⟨x.keccak256, ctx, i.retryableId⟩

/-- revm runs these calls: the journal they leave is committed, the slot is handed on. -/
structure RunsCalls (ctx : BlockCtx) (calls : EvmInput → World → Calls ctx) : Prop where
  world : ∀ i w out, x.evm i w = .ok out →
    out.world = ((calls i w).run (cancelCtx x ctx i) (.start w)).world
  sweep : ∀ i w out, x.evm i w = .ok out →
    out.cancelEscrowSweep = ((calls i w).run (cancelCtx x ctx i) (.start w)).sweep

variable (s : Executor) (t : ExecutableTx x) (calls : EvmInput → World → Calls s.ctx)

/-- The records of the transaction's run. -/
def records : CallState :=
  match enteredRun x s t with
  | none => .start s.world
  | some (i, w) => (calls i w).run (cancelCtx x s.ctx i) (.start w)

/-- The transaction is the redemption of this ticket. -/
def Redeems (p : Pending) (id : B256) : Prop := ∃ c, p.retryContext = some c ∧ c.ticketId = id

/-- The stage of `commit_transaction` in which the sweep happens. -/
def beforeSweep (s' : Executor) (p : Pending) (r : TxResult) : Executor :=
  payStylusDataFee (redirectTip (commitRun s' r) p r.gasUsed) p

/-- The accounts the executor settles a transaction with. -/
def settlementAccounts (b : Executor) (p : Pending) : List Address :=
  [p.sender, arbsysAddress, l1PricerFundsPoolAddress, b.ctx.networkFeeAccount, b.ctx.infraFeeAccount] ++
    (match b.hooks with
    | some h => [h.networkFeeAccount, h.infraFeeAccount, h.coinbase]
    | none => []) ++
    match p.retryContext with
    | some c => [c.refundTo, escrowOf x c.ticketId, (b.world.tickets c.ticketId).beneficiary]
    | none => []

/-- The escrow addresses of open tickets are distinct from each other and from accounts that
    call `cancel`, and those of other tickets than the redeemed one from the accounts of the
    settlement. -/
structure EscrowsApart (P : Address → Prop) (s' : Executor) (p : Pending) (r : TxResult) : Prop where
  injective : ∀ id id', IsOpen s.ctx s.world id → IsOpen s.ctx s.world id' →
    escrowOf x id = escrowOf x id' → id = id'
  callers : ∀ id, IsOpen s.ctx s.world id → ¬ P (escrowOf x id)
  settlement : ∀ id, IsOpen s.ctx s.world id → ¬ Redeems p id →
    escrowOf x id ∉ settlementAccounts x (beforeSweep s' p r) p

/-! ## The property and its condition -/

/-- The escrow of every ticket cleared by a cancel that was not undone is moved to its
    beneficiary and nothing else is; it stays empty. The escrow of a ticket that is still live
    and not redeemed is what it was before the transaction. -/
structure SweepExact (s' : Executor) (p : Pending) (r : TxResult) : Prop where
  swept : (sweepCancelled (beforeSweep s' p r)).world.getBalance =
    (sweepAll (escrowOf x) (records x s t calls).cleared (beforeSweep s' p r).world).getBalance
  emptied : ∀ tk ∈ (records x s t calls).cleared, ¬ Redeems p tk.1 →
    (commitTransaction x s' r).world.getBalance (escrowOf x tk.1) = 0
  kept : ∀ id, IsOpen s.ctx s.world id → IsOpen s'.ctx (commitTransaction x s' r).world id →
    ¬ Redeems p id → (commitTransaction x s' r).world.getBalance (escrowOf x id) =
      s.world.getBalance (escrowOf x id)

/-- Of the tickets open before whose escrow is not empty when it is swept, the cancel that was
    not undone is the last one that cleared a ticket, and the other way round. And before the
    sweep the escrow of a ticket that execution left open and does not redeem is as before the
    transaction. -/
structure LastCancelOnly (s' : Executor) (p : Pending) (r : TxResult) : Prop where
  last : ∀ id, IsOpen s.ctx s.world id →
    (beforeSweep s' p r).world.getBalance (escrowOf x id) ≠ 0 →
      ((∃ b, (id, b) ∈ (records x s t calls).cleared) ↔
        ∃ b, (records x s t calls).last = some (id, b))
  untouched : ∀ id, IsOpen s.ctx s.world id → IsOpen s'.ctx (r.state.getD s'.world) id →
    ¬ Redeems p id → (beforeSweep s' p r).world.getBalance (escrowOf x id) =
      s.world.getBalance (escrowOf x id)

/-! ## The stages around the sweep -/

section Stages

variable {x} {s s' : Executor} {p : Pending} {r : TxResult}

theorem sweep_beforeSweep (s' : Executor) (p : Pending) (r : TxResult) :
    (beforeSweep s' p r).cancelEscrowSweep = s'.cancelEscrowSweep := by
  exact (sweep_of_shell (shell_payStylusDataFee _ p)).trans
    ((sweep_of_shell (shell_redirectTip _ p _)).trans (commitRun_kept s' r).2.1)

theorem commitTransaction_eq (hpending : s'.pending = some p) :
    commitTransaction x s' r = finalise (settle x (burnWithdrawn (sweepCancelled (beforeSweep s' p r))
      ((withdrawals r).foldl satAdd256 0)) p r) := by
  unfold commitTransaction
  rw [hpending]
  rfl

/-- The run and the stages up to the sweep move balances only. -/
theorem tickets_sweepCancelled (s' : Executor) (p : Pending) (r : TxResult) :
    (beforeSweep s' p r).world.tickets = (r.state.getD s'.world).tickets ∧
      (sweepCancelled (beforeSweep s' p r)).world.tickets = (beforeSweep s' p r).world.tickets := by
  have hrun := (commitRun_kept s' r).1
  refine ⟨?_, (frame_sweepCancelled fun _ _ _ => ⟨trivial, trivial⟩).tickets_eq⟩
  rw [← hrun]
  exact ((frame_redirectTip r.gasUsed trivial trivial).trans
    (frame_payStylusDataFee (p := p) trivial trivial)).tickets_eq

/-- After the sweep only the accounts of the settlement move, and no ticket but the redeemed one. -/
theorem frame_afterSweep (hpending : s'.pending = some p) :
    Frame (· ∈ settlementAccounts x (beforeSweep s' p r) p) (Redeems p)
      (sweepCancelled (beforeSweep s' p r)).world (commitTransaction x s' r).world := by
  rw [commitTransaction_eq hpending]
  generalize (withdrawals r).foldl satAdd256 0 = value
  obtain ⟨-, hhooks, hctx⟩ := sweepCancelled_spec (beforeSweep s' p r)
  have hshell := shell_burnWithdrawn (sweepCancelled (beforeSweep s' p r)) value
  have htickets : (burnWithdrawn (sweepCancelled (beforeSweep s' p r)) value).world.tickets =
      (beforeSweep s' p r).world.tickets :=
    (frame_burnWithdrawn value trivial).tickets_eq.trans (tickets_sweepCancelled s' p r).2
  have hfixed : ∀ a ∈ [p.sender, arbsysAddress, l1PricerFundsPoolAddress,
      (beforeSweep s' p r).ctx.networkFeeAccount, (beforeSweep s' p r).ctx.infraFeeAccount],
      a ∈ settlementAccounts x (beforeSweep s' p r) p := fun a ha =>
    List.mem_append_left _ (List.mem_append_left _ ha)
  refine ((frame_burnWithdrawn value (hfixed _ (by simp))).trans
    (frame_settle r (hfixed _ (by simp)) ?_ ?_)).trans (frame_finalise _)
  · intro c hc
    have hretry : ∀ a ∈ [c.refundTo, escrowOf x c.ticketId,
        ((beforeSweep s' p r).world.tickets c.ticketId).beneficiary],
        a ∈ settlementAccounts x (beforeSweep s' p r) p := fun a ha => by
      unfold settlementAccounts
      rw [hc]
      exact List.mem_append_right _ ha
    rw [ctx_of_shell hshell, hctx, htickets]
    exact ⟨⟨c, hc, rfl⟩, hretry _ (by simp), hfixed _ (by simp), hfixed _ (by simp),
      hretry _ (by simp [escrowOf]), hretry _ (by simp)⟩
  · intro h hh
    have hh' : (beforeSweep s' p r).hooks = some h := hhooks ▸ hooks_of_shell hshell ▸ hh
    have hpaid : ∀ a ∈ [h.networkFeeAccount, h.infraFeeAccount, h.coinbase],
        a ∈ settlementAccounts x (beforeSweep s' p r) p := fun a ha => by
      unfold settlementAccounts
      rw [hh']
      exact List.mem_append_left _ (List.mem_append_right _ ha)
    refine ⟨hpaid _ (by simp), hpaid _ (by simp), ?_⟩
    split
    · exact hpaid _ (by simp)
    · exact hfixed _ (by simp)

end Stages

/-! ## What the records say about the transaction -/

/-- The slot names the last cancel, every cancelled ticket was open with its beneficiary, and no
    cleared one is open when the transaction is committed. -/
structure RecordsHold (P : Address → Prop) (s' : Executor) (r : TxResult) : Prop where
  sweep : s'.cancelEscrowSweep = (records x s t calls).last.map fun tk => (escrowOf x tk.1, tk.2)
  cleared : ∀ tk ∈ (records x s t calls).cleared, Cancelled P s.ctx s.world tk
  last : ∀ tk, (records x s t calls).last = some tk → Cancelled P s.ctx s.world tk
  nodup : ((records x s t calls).cleared.map Prod.fst).Nodup
  closed : ∀ id, IsOpen s'.ctx (r.state.getD s'.world) id →
    id ∉ (records x s t calls).cleared.map Prod.fst

variable {x s t calls} {P : Address → Prop} {s' : Executor} {p : Pending} {r : TxResult}

variable {id : B256} {tk : B256 × Address}

theorem Cancelled.of_tickets {ctx : BlockCtx} {w w' : World} (h : Cancelled P ctx w tk)
    (htickets : w.tickets = w'.tickets) : Cancelled P ctx w' tk where
  isOpen := (isOpen_congr (congrFun htickets tk.1)).mp h.isOpen
  beneficiary := by rw [h.beneficiary, htickets]
  caller := h.caller

theorem recordsHold_of_none (hnone : enteredRun x s t = none) (hsweep : s'.cancelEscrowSweep = none) :
    RecordsHold x s t calls P s' r := by
  have hrecords : records x s t calls = .start s.world := by simp only [records, hnone]
  have hstart := Tracks.start P ⟨x.keccak256, s.ctx, 0⟩ s.world
  constructor
  · rw [hrecords, hsweep]
    rfl
  · rw [hrecords]
    exact hstart.cleared
  · rw [hrecords]
    exact hstart.last
  · rw [hrecords]
    exact hstart.nodup
  · intro id _
    rw [hrecords]
    exact List.not_mem_nil

theorem recordsHold (hcalls : RunsCalls x s.ctx calls) (hcalled : ∀ i w, (calls i w).CalledBy P)
    (hok : executeTransactionWithoutCommit x s t = (s', .ok r)) (hpending : s'.pending = some p) :
    RecordsHold x s t calls P s' r := by
  by_cases henters : EntersEvm (ArbTxType.fromU8 t.tx.ty)
  · rcases execute_entered henters hok hpending with
      ⟨hnone, hnever⟩ | ⟨i, w, out, hrun, htickets, hout, hran⟩
    · exact recordsHold_of_none hnone hnever.sweep
    · have hrecords : records x s t calls = (calls i w).run (cancelCtx x s.ctx i) (.start w) := by
        simp only [records, hrun]
      have htracks : Tracks P (cancelCtx x s.ctx i) w (records x s t calls) := by
        rw [hrecords]
        exact tracks_run (c := cancelCtx x s.ctx i) (calls i w) (hcalled i w) (.start P _ w)
      refine ⟨?_, fun tk htk => (htracks.cleared tk htk).of_tickets htickets,
        fun tk htk => (htracks.last tk htk).of_tickets htickets, htracks.nodup, fun id hid => ?_⟩
      · rw [hran.sweep, hcalls.sweep i w out hout, ← hrecords]
        exact htracks.sweep
      · rw [hran.ctx, hran.state, Option.getD_some, hcalls.world i w out hout, ← hrecords] at hid
        exact ((htracks.isOpen id).mp hid).2
  · obtain ⟨hnone, hsweep, -⟩ := execute_notEntered henters hok hpending
    exact recordsHold_of_none hnone hsweep

/-! ## The sweep that happens and the ones that should -/

/-- What the commit sweeps is the last cancel's escrow. -/
theorem RecordsHold.getBalance_sweepCancelled (h : RecordsHold x s t calls P s' r) (p : Pending) :
    (sweepCancelled (beforeSweep s' p r)).world.getBalance =
      (afterSweep (beforeSweep s' p r).world
        ((records x s t calls).last.map fun tk => (escrowOf x tk.1, tk.2))).getBalance := by
  rw [(sweepCancelled_spec _).1, sweep_beforeSweep, h.sweep]

/-- No escrow of a ticket open before is a beneficiary of a cancelled one. -/
theorem EscrowsApart.ne_beneficiary (ha : EscrowsApart x s P s' p r)
    (hid : IsOpen s.ctx s.world id) (htk : Cancelled P s.ctx s.world tk) :
    escrowOf x id ≠ tk.2 := fun he => ha.callers id hid (he ▸ htk.caller)

theorem EscrowsApart.ne_escrow (ha : EscrowsApart x s P s' p r) (hid : IsOpen s.ctx s.world id)
    (htk : Cancelled P s.ctx s.world tk) (hne : id ≠ tk.1) : escrowOf x id ≠ escrowOf x tk.1 :=
  fun he => hne (ha.injective id tk.1 hid htk.isOpen he)

section Swept

variable (h : RecordsHold x s t calls P s' r) (ha : EscrowsApart x s P s' p r)

include h ha

/-- The balance of an open ticket's escrow after the sweep. -/
theorem RecordsHold.getBalance_escrow (hid : IsOpen s.ctx s.world id) :
    ((∃ b, (records x s t calls).last = some (id, b)) ∧
      (sweepCancelled (beforeSweep s' p r)).world.getBalance (escrowOf x id) = 0) ∨
    ((¬ ∃ b, (records x s t calls).last = some (id, b)) ∧
      (sweepCancelled (beforeSweep s' p r)).world.getBalance (escrowOf x id) =
        (beforeSweep s' p r).world.getBalance (escrowOf x id)) := by
  rw [h.getBalance_sweepCancelled p]
  cases hlast : (records x s t calls).last with
  | none => exact .inr ⟨fun ⟨_, hb⟩ => (nomatch hb), rfl⟩
  | some tk =>
    have htk := h.last tk hlast
    by_cases hsame : id = tk.1
    · subst hsame
      exact .inl ⟨⟨tk.2, rfl⟩, getBalance_afterSweep_src (ha.ne_beneficiary hid htk)⟩
    · refine .inr ⟨?_, ?_⟩
      · rintro ⟨b, hb⟩
        exact hsame (congrArg Prod.fst (Option.some.inj hb)).symm
      · exact getBalance_afterSweep_of_ne (ha.ne_escrow hid htk hsame) (ha.ne_beneficiary hid htk)

/-- No escrow of a cleared ticket is the beneficiary of one. -/
theorem RecordsHold.cleared_apart : ∀ tk ∈ (records x s t calls).cleared,
    ∀ tk' ∈ (records x s t calls).cleared, escrowOf x tk.1 ≠ tk'.2 := fun tk htk tk' htk' =>
  ha.ne_beneficiary (h.cleared tk htk).isOpen (h.cleared tk' htk')

/-- Sweeping the cleared tickets leaves the escrow of any other alone. -/
theorem RecordsHold.getBalance_uncleared (w : World) (hid : IsOpen s.ctx s.world id)
    (hnot : id ∉ (records x s t calls).cleared.map Prod.fst) :
    (sweepAll (escrowOf x) (records x s t calls).cleared w).getBalance (escrowOf x id) =
      w.getBalance (escrowOf x id) := by
  refine getBalance_sweepAll_of_ne (fun tk htk => ?_) fun tk htk => ?_
  · exact ha.ne_escrow hid (h.cleared tk htk) fun hsame => hnot (hsame ▸ List.mem_map_of_mem htk)
  · exact ha.ne_beneficiary hid (h.cleared tk htk)

/-- The one sweep is right if and only if the full escrows of cleared tickets are that of the
    last one. -/
theorem RecordsHold.swept_iff :
    (sweepCancelled (beforeSweep s' p r)).world.getBalance =
        (sweepAll (escrowOf x) (records x s t calls).cleared (beforeSweep s' p r).world).getBalance ↔
      ∀ id, IsOpen s.ctx s.world id →
        (beforeSweep s' p r).world.getBalance (escrowOf x id) ≠ 0 →
          ((∃ b, (id, b) ∈ (records x s t calls).cleared) ↔
            ∃ b, (records x s t calls).last = some (id, b)) := by
  constructor
  · intro hswept id hid hne
    have hbal := congrFun hswept (escrowOf x id)
    rcases h.getBalance_escrow ha hid with ⟨hlast, hzero⟩ | ⟨hlast, hkept⟩
    · -- Swept by the commit: it must be among the cleared ones.
      refine iff_of_true (by_contra fun hnot => hne ?_) hlast
      rw [← hzero, hbal]
      refine (h.getBalance_uncleared ha _ hid fun hmem => hnot ?_).symm
      obtain ⟨tk, htk, rfl⟩ := List.mem_map.mp hmem
      exact ⟨tk.2, htk⟩
    · refine iff_of_false ?_ hlast
      rintro ⟨b, hb⟩
      rw [hkept, getBalance_sweepAll_mem hb (h.cleared_apart ha)] at hbal
      exact hne hbal
  · intro hlast
    rw [h.getBalance_sweepCancelled p]
    have hfull : ∀ tk ∈ (records x s t calls).cleared,
        (beforeSweep s' p r).world.getBalance (escrowOf x tk.1) ≠ 0 →
          (records x s t calls).last = some tk := by
      intro tk htk hne
      have hc := h.cleared tk htk
      obtain ⟨b, hb⟩ := (hlast tk.1 hc.isOpen hne).mp ⟨tk.2, htk⟩
      have hbeneficiary : b = tk.2 := (h.last _ hb).beneficiary.trans hc.beneficiary.symm
      rw [hb, hbeneficiary]
    cases hl : (records x s t calls).last with
    | none =>
      rw [sweepAll_empty fun tk htk => by_contra fun hne => ?_]
      · rfl
      · rw [hl] at hfull
        cases hfull tk htk hne
    | some tk =>
      rw [hl] at hfull
      by_cases hzero : (beforeSweep s' p r).world.getBalance (escrowOf x tk.1) = 0
      · rw [Option.map_some, afterSweep_zero tk.2 hzero, sweepAll_empty fun tk' htk' => ?_]
        by_contra hne
        cases hfull tk' htk' hne
        exact hne hzero
      · have hc := h.last tk hl
        obtain ⟨b, hb⟩ := (hlast tk.1 hc.isOpen hzero).mpr ⟨tk.2, hl⟩
        have hbeneficiary : b = tk.2 := (h.cleared _ hb).beneficiary.trans hc.beneficiary.symm
        rw [hbeneficiary] at hb
        rw [sweepAll_one hb h.nodup (h.cleared_apart ha) fun tk' htk' hne => ?_]
        · rfl
        · by_contra hfull'
          cases hfull tk' htk' hfull'
          exact hne rfl

end Swept

theorem isOpen_commit {ctx : BlockCtx} (hpending : s'.pending = some p) (hid : ¬ Redeems p id) :
    IsOpen ctx (commitTransaction x s' r).world id ↔
      IsOpen ctx (r.state.getD s'.world) id := by
  obtain ⟨hbefore, hswept⟩ := tickets_sweepCancelled s' p r
  refine isOpen_congr (((frame_afterSweep hpending).ticket id hid).trans ?_)
  rw [hswept, hbefore]

/-- A step that leaves the tickets alone. -/
def OtherStep.ofTickets (ctx : BlockCtx) (f : World → World) (h : ∀ w, (f w).tickets = w.tickets) :
    OtherStep ctx where
  run := f
  isOpen w id := isOpen_congr (congrFun (h w) id)
  beneficiary w id := by rw [h w]

/-- The gas of the run. -/
def chargeRun (caller : Address) : OtherStep sampleCtx :=
  .ofTickets sampleCtx (fun w => burnBalance w caller 5000000000000) fun _ =>
    (frame_burnBalance _ trivial).tickets_eq

/-- A hash for the sample: an escrow address is the end of the ticket's id. -/
def sampleKeccak (data : Bytes) : B256 := BitVec.ofNat 256 (beNat data)

def callsRun (calls : Calls sampleCtx) (i : EvmInput) (w : World) : Except String EvmOutput :=
  let s := calls.run ⟨sampleKeccak, sampleCtx, i.retryableId⟩ (.start w)
  .ok ⟨s.world, [], true, 50000, by decide, [], s.sweep, 0, none, oneKind .computation 50000⟩

def cancelExternals (calls : Calls sampleCtx) : Externals :=
  { sampleExternals (callsRun calls) with keccak256 := sampleKeccak }

theorem runsCalls_callsRun (calls : Calls sampleCtx) :
    RunsCalls (cancelExternals calls) sampleCtx fun _ _ => calls := by
  constructor
  · intro i w out h
    cases h
    rfl
  · intro i w out h
    cases h
    rfl

/-- The sender's account, and two tickets of the sender with 500 and 700 wei in escrow. -/
def cancelExecutor : Executor :=
  let s := fundedExecutor false
  let ticket : Ticket := ⟨0, sampleSender, some 0xb0b, 500, sampleSender, [], 1800000000, 0⟩
  let w := (s.world.setTicket 0x111 ticket).setTicket 0x222 ticket
  { s with world :=
    (w.setAccount 0x111 (some ⟨500, 0, false⟩)).setAccount 0x222 (some ⟨700, 0, false⟩) }

def cancelTx (calls : Calls sampleCtx) : ExecutableTx (cancelExternals calls) where
  tx := sampleTransfer
  env := ⟨0, sampleSender, 100000, 3, some 42161, some 0xb0b, [], 100000000, none, 1000000000000000000,
    [], []⟩
  env_eq := rfl

theorem isOpen_cancelExecutor (h : IsOpen sampleCtx cancelExecutor.world id) :
    id = 0x111 ∨ id = 0x222 := by
  by_contra hne
  obtain ⟨h1, h2⟩ := not_or.mp hne
  have hcleared : cancelExecutor.world.tickets id = Ticket.cleared :=
    (update_of_ne h2 _ _).trans (update_of_ne h1 _ _)
  unfold IsOpen openRetryable at h
  rw [hcleared] at h
  cases h

/-- One cancel in a call that is not undone. -/
def oneCancel : Calls sampleCtx :=
  .other (chargeRun sampleSender) (.call false (.cancel 0x111 sampleSender .done) .done)

/-- Two cancels, and one that is undone. -/
def twoCancels : Calls sampleCtx := .cancel 0x111 sampleSender (.cancel 0x222 sampleSender .done)

def undoneCancel : Calls sampleCtx := .call true (.cancel 0x111 sampleSender .done) .done

end Arbreth.Exec
