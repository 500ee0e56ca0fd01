/-
  The two countings of a try (arb-evm, build.rs: the scan in execute_transaction_without_commit,
  commit_transaction; arb-precompiles, arbretryabletx.rs; arbos, retryables/mod.rs).

  A redeem counts its try in the run, and the scan counts it once more in the database, before
  the run's changes are committed. The commit then writes the slots whose value at the end of
  the run differs from the one at its start. For a ticket that is live at the end, both
  countings give the same number, so that whichever of them stays is right. For a ticket that
  was cancelled after its redeem, the run's number is back at what a ticket that was never
  redeemed has, is not written, and the scan's stays; and the scan has scheduled a retry of a
  ticket that is gone.

  Slots are named by ticket and field; different names are different slots
  (`slot_determines_location`).
-/
import Arbreth.Exec.Sweep
import Arbreth.Redeem.Schedule
import Arbreth.Retryable.Multiplicity
import Arbreth.Storage.Fields

namespace Arbreth.Redeem

open Arbreth.Lib Arbreth.Exec Arbreth.Retryable Arbreth.Storage

/-! ## Slots -/

/-- The slots of a ticket. -/
inductive TicketField where
  | numTries | fromAddr | toAddr | callvalue | beneficiary | timeout | timeoutWindowsLeft
  | calldataSize
  | calldataWord (n : Nat)
  deriving DecidableEq

open TicketField

/-- The slots of the retryables subspace: the tickets and the timeout queue. -/
inductive RetryableSlot where
  | ticket (id : B256) (field : TicketField)
  | nextPut
  | nextGet
  | cell (n : Nat)
  deriving DecidableEq

/-- The word in a ticket's slot. -/
def TicketField.word (t : Ticket) : TicketField → U256
  | .numTries => BitVec.ofNat 256 t.numTries
  | .fromAddr => t.fromAddr.setWidth 256
  | .toAddr =>
    match t.toAddr with
    | none => nilAddressRepresentation
    | some addr => addr.setWidth 256
  | .callvalue => t.callvalue
  | .beneficiary => t.beneficiary.setWidth 256
  | .timeout => BitVec.ofNat 256 t.timeout
  | .timeoutWindowsLeft => BitVec.ofNat 256 t.timeoutWindowsLeft
  | .calldataSize => BitVec.ofNat 256 t.calldata.length
  | .calldataWord n => StorageBackedBytes.chunkWord t.calldata n

/-- The words of a state. -/
def slotValue (s : RetryableState) : RetryableSlot → U256
  | .ticket id field => field.word (s.world.tickets id)
  | .nextPut => BitVec.ofNat 256 s.queue.nextPut
  | .nextGet => BitVec.ofNat 256 s.queue.nextGet
  | .cell n => s.queue.cells n

/-- revm's commit: the slots that the run changed are written over the database. -/
def commitSlots (start final db : RetryableSlot → U256) (l : RetryableSlot) : U256 :=
  if final l = start l then db l else final l

/-- `delete_retryable` at the end of a successful redemption. -/
def deleteSlots (id : B256) (slots : RetryableSlot → U256) : RetryableSlot → U256
  | .ticket id' field =>
    if slots (.ticket id .timeout) ≠ 0 ∧ id' = id then 0 else slots (.ticket id' field)
  | l => slots l

theorem word_cleared (field : TicketField) : field.word Ticket.cleared = 0 := by
  cases field with
  | calldataWord n => simp [word, Ticket.cleared, StorageBackedBytes.chunkWord, beNat, leNat]
  | _ => rfl

/-- A database that differs from the start of the run only where it has the value of its end
    ends up with that value everywhere. -/
theorem commitSlots_eq {start final db : RetryableSlot → U256} {l : RetryableSlot}
    (h : db l = start l ∨ db l = final l) : commitSlots start final db l = final l := by
  unfold commitSlots
  split
  · next hsame =>
    rcases h with h | h
    · rw [h, hsame]
    · exact h
  · rfl

/-! ## A transaction -/

section Transaction

variable (chainId : Nat) (c : CancelCtx) (start : RetryableState) (calls : RetryCalls)

/-- The state at the end of the run, with what survived. -/
def runEnd : RunState := calls.run c (.start start)

/-- The scan of the surviving logs, in the database before the run is committed. -/
def runScan : World × List (Log × Option Tx.ArbRetryTx) :=
  scanLogs chainId c.block start.world ((runEnd c start calls).redeems.map Redeemed.log)

/-- The slots after the commit of a successful transaction. A redemption deletes its ticket. -/
def committedSlots : RetryableSlot → U256 :=
  let committed := commitSlots (slotValue start) (slotValue (runEnd c start calls).state)
    (slotValue ⟨(runScan chainId c start calls).1, start.queue⟩)
  if c.retryableId ≠ 0 then deleteSlots c.retryableId committed else committed

/-- The tickets of the surviving redeems. -/
def redeemedIds (redeems : List Redeemed) : List B256 :=
  (redeems.map Redeemed.log).filterMap logTicket

/-- The bookkeeping of redeems agrees with the committed state. -/
structure BookkeepingAgrees : Prop where
  slots : ∀ l, committedSlots chainId c start calls l = slotValue (runEnd c start calls).state l
  cancelled : ∀ id ∈ (runEnd c start calls).cancelled, ∀ field,
    committedSlots chainId c start calls (.ticket id field) = 0
  tries : ∀ id, IsOpen c.block (runEnd c start calls).state.world id →
    (start.world.tickets id).numTries + (redeemedIds (runEnd c start calls).redeems).count id < 2 ^ 64 →
    committedSlots chainId c start calls (.ticket id .numTries) =
      BitVec.ofNat 256 ((start.world.tickets id).numTries +
        (redeemedIds (runEnd c start calls).redeems).count id)
  scheduled : ∀ e ∈ (runScan chainId c start calls).2, ∀ id, logTicket e.1 = some id →
    (e.2.isSome ↔ IsOpen c.block (runEnd c start calls).state.world id)

end Transaction

/-- Every window a live ticket has left stands in the timeout queue, beside its first entry. -/
def WindowsQueued (s : RetryableState) : Prop :=
  ∀ id, (s.world.tickets id).timeout ≠ 0 →
    s.queue.entries.count id = (s.world.tickets id).timeoutWindowsLeft + 1

/-- It is so in every state the operations on tickets lead to. -/
theorem windowsQueued_of_exec {e : Env} {w : World} {calls : List Call} {s : Sys}
    (h : exec (step e) (Sys.init w) calls = some s) : WindowsQueued s.state :=
  (queued_exec (queued_init w) h).count

/-! ## What a run does to the tickets -/

/-- The tickets and records of a run that began in `start`. -/
structure Tracked (c : CancelCtx) (start : RetryableState) (s : RunState) : Prop where
  queued : WindowsQueued s.state
  isOpen : ∀ id, IsOpen c.block s.state.world id ↔
    IsOpen c.block start.world id ∧ id ∉ s.cancelled
  cleared : ∀ id ∈ s.cancelled, s.state.world.tickets id = Ticket.cleared
  timeout : ∀ id, id ∉ s.cancelled →
    (s.state.world.tickets id).timeout = (start.world.tickets id).timeout
  tries : ∀ id, id ∉ s.cancelled → (s.state.world.tickets id).numTries =
    countTries (start.world.tickets id).numTries ((redeemedIds s.redeems).count id)
  redeemed : ∀ id ∈ redeemedIds s.redeems, IsOpen c.block start.world id
  kept : c.retryableId ≠ 0 → c.retryableId ∉ s.cancelled

section Tracked

variable {c : CancelCtx} {start : RetryableState} {s : RunState}

theorem tracked_start (c : CancelCtx) (h : WindowsQueued start) : Tracked c start (.start start) where
  queued := h
  isOpen _ := ⟨fun hopen => ⟨hopen, List.not_mem_nil⟩, And.left⟩
  cleared _ hid := absurd hid List.not_mem_nil
  timeout _ _ := rfl
  tries _ _ := rfl
  redeemed _ hid := absurd hid List.not_mem_nil
  kept _ := List.not_mem_nil

variable {id : B256} {t : Ticket}

theorem redeemedIds_append {i : RedeemCall} {w w' : World} {nonce donated : Nat} {r : Redeemed}
    (h : RedeemsAs c i id w t nonce donated r w') (redeems : List Redeemed) :
    redeemedIds (redeems ++ [r]) = redeemedIds redeems ++ [id] := by
  have hlog : logTicket r.log = some id := by rw [logTicket, parse_redeemed h, Option.map_some]
  rw [redeemedIds, List.map_append, List.filterMap_append, List.map_singleton, redeemedIds,
    List.filterMap_cons, hlog]
  rfl

/-- A step that writes one open ticket, gives it the windows its queue entries count and the tries
    its redeems count, and neither opens nor closes any ticket. -/
theorem Tracked.write (h : Tracked c start s) {q : Queue} {redeems : List Redeemed}
    (hopen : IsOpen c.block s.state.world id)
    (hsame : ∀ x, IsOpen c.block (s.state.world.setTicket id t) x ↔ IsOpen c.block s.state.world x)
    (htimeout : t.timeout = (s.state.world.tickets id).timeout)
    (hwindows : q.entries.count id = t.timeoutWindowsLeft + 1)
    (hentries : ∀ x, x ≠ id → q.entries.count x = s.state.queue.entries.count x)
    (htries : t.numTries = countTries (start.world.tickets id).numTries ((redeemedIds redeems).count id))
    (hcounts : ∀ x, x ≠ id → (redeemedIds redeems).count x = (redeemedIds s.redeems).count x)
    (hids : ∀ x ∈ redeemedIds redeems, x ∈ redeemedIds s.redeems ∨ x = id) :
    Tracked c start ⟨⟨s.state.world.setTicket id t, q⟩, redeems, s.cancelled⟩ := by
  have hlive := (h.isOpen id).mp hopen
  exact
    { queued := fun x hx => by
        by_cases hne : x = id
        · rw [hne, tickets_setTicket_self, hwindows]
        · rw [tickets_setTicket_of_ne _ hne] at hx ⊢
          rw [hentries x hne]
          exact h.queued x hx
      isOpen := fun x => (hsame x).trans (h.isOpen x)
      cleared := fun x hx => by
        -- A cancelled ticket is not open, so this is another one.
        have hne : x ≠ id := fun he => hlive.2 (he ▸ hx)
        rw [tickets_setTicket_of_ne _ hne]
        exact h.cleared x hx
      timeout := fun x hx => by
        by_cases hne : x = id
        · subst hne
          rw [tickets_setTicket_self, htimeout]
          exact h.timeout x hx
        · rw [tickets_setTicket_of_ne _ hne]
          exact h.timeout x hx
      tries := fun x hx => by
        by_cases hne : x = id
        · rw [hne, tickets_setTicket_self, htries]
        · rw [tickets_setTicket_of_ne _ hne, hcounts x hne]
          exact h.tries x hx
      redeemed := fun x hx => by
        rcases hids x hx with hx | hx
        · exact h.redeemed x hx
        · rw [hx]
          exact hlive.1
      kept := h.kept }

theorem Tracked.redeem (h : Tracked c start s) (i : RedeemCall) (id : B256) :
    Tracked c start (s.redeem c i id) := by
  rcases redeem_cases c s i id with hsame | ⟨t, nonce, donated, r, w', has, heq⟩
  · rw [hsame]
    exact h
  obtain ⟨ht, hlive⟩ := openRetryable_some has.opened
  have hopen : IsOpen c.block s.state.world id := isOpen_of_some has.opened
  have hids := redeemedIds_append has s.redeems
  rw [heq, has.world]
  refine h.write hopen (fun x => (sameButTries_setTicket ht _).isOpen c.block x) (by rw [ht]) ?_
    (fun x _ => rfl) ?_ (fun x hx => ?_) (fun x hx => ?_)
  · rw [ht]
    exact h.queued id hlive
  · rw [hids, List.count_append, List.count_singleton_self, countTries_succ, ht,
      ← h.tries id ((h.isOpen id).mp hopen).2]
  · rw [hids, count_queued _ hx]
  · rw [hids] at hx
    exact (List.mem_append.mp hx).imp_right List.mem_singleton.mp

theorem Tracked.cancel (h : Tracked c start s) (id : B256) (caller : Address) :
    Tracked c start (s.cancel c id caller) := by
  rcases cancel_cases c s id caller with hsame | ⟨hallowed, hopen, heq⟩
  · rw [hsame]
    exact h
  have hother : ∀ x, x ≠ id → (s.state.world.clearTicketFields id).tickets x = s.state.world.tickets x :=
    fun x hx => tickets_setTicket_of_ne _ hx _
  have hself : (s.state.world.clearTicketFields id).tickets id = Ticket.cleared :=
    tickets_setTicket_self _ _ _
  have hnot : ∀ {x}, x ∉ s.cancelled ++ [id] → x ∉ s.cancelled ∧ x ≠ id := fun hx =>
    ⟨fun hmem => hx (List.mem_append_left _ hmem),
      fun he => hx (he ▸ List.mem_append_right _ List.mem_cons_self)⟩
  rw [heq]
  exact
    { queued := fun x hx => by
        have hne : x ≠ id := fun he => hx (by rw [he, hself]; rfl)
        rw [hother x hne] at hx ⊢
        exact h.queued x hx
      isOpen := fun x => by
        rw [isOpen_clearTicketFields, h.isOpen x, List.mem_append, List.mem_singleton, not_or,
          and_assoc]
      cleared := fun x hx => by
        by_cases hne : x = id
        · rw [hne, hself]
        · rw [hother x hne]
          refine h.cleared x ((List.mem_append.mp hx).resolve_right fun hmem => ?_)
          exact hne (List.mem_singleton.mp hmem)
      timeout := fun x hx => by
        rw [hother x (hnot hx).2]
        exact h.timeout x (hnot hx).1
      tries := fun x hx => by
        rw [hother x (hnot hx).2]
        exact h.tries x (hnot hx).1
      redeemed := h.redeemed
      kept := fun hzero hmem => by
        rcases List.mem_append.mp hmem with hmem | hmem
        · exact h.kept hzero hmem
        · exact hallowed ⟨hzero, List.mem_singleton.mp hmem⟩ }

theorem isOpen_iff {ctx : BlockCtx} {w : World} (ht : w.tickets id = t) :
    IsOpen ctx w id ↔ t.timeout ≠ 0 ∧ (ctx.blockTimestamp ≤ t.timeout ∨ 60 ≤ ctx.arbosVersion ∧
      ctx.blockTimestamp ≤
        satAdd64 t.timeout (satMul64 t.timeoutWindowsLeft retryableLifetimeSeconds)) := by
  unfold Exec.IsOpen openRetryable
  rw [ht]
  by_cases hlive : t.timeout = 0
  · simp [hlive]
  · by_cases hpast : t.timeout < ctx.blockTimestamp
    · by_cases hversion : 60 ≤ ctx.arbosVersion
      · by_cases hover : satAdd64 t.timeout (satMul64 t.timeoutWindowsLeft retryableLifetimeSeconds) <
            ctx.blockTimestamp
        · simp [hlive, hpast, hversion, hover]
        · simp [hlive, hpast, hversion, hover, Nat.not_lt.mp hover]
      · simp [hlive, hpast, hversion]
    · simp [hlive, hpast, Nat.not_lt.mp hpast]

theorem isOpen_window {ctx : BlockCtx} {w : World}
    (hopen : openRetryable ctx.arbosVersion w id ctx.blockTimestamp = some t)
    (hfits : t.timeoutWindowsLeft + 1 < 2 ^ 64) (x : B256) :
    IsOpen ctx (w.setTicket id { t with timeoutWindowsLeft := wrap64 (t.timeoutWindowsLeft + 1) }) x ↔
      IsOpen ctx w x := by
  by_cases hx : x = id
  · subst hx
    have hbefore : IsOpen ctx w x := isOpen_of_some hopen
    refine iff_of_true ?_ hbefore
    obtain ⟨hlive, htime⟩ := (isOpen_iff (openRetryable_some hopen).1.symm).mp hbefore
    rw [isOpen_iff (tickets_setTicket_self _ _ _), wrap64_of_lt hfits]
    refine ⟨hlive, htime.imp_right fun h => ⟨h.1, h.2.trans ?_⟩⟩
    exact satAdd64_le_satAdd64 (Nat.le_refl _)
      (satMul64_le_satMul64 (Nat.le_succ _) (Nat.le_refl _))
  · exact isOpen_congr (tickets_setTicket_of_ne _ hx _)

theorem Tracked.keepalive (h : Tracked c start s) (id : B256) :
    Tracked c start (s.keepalive c id) := by
  rcases keepalive_cases c s id with hsame | ⟨t, q, hopened, hput, heq⟩
  · rw [hsame]
    exact h
  obtain ⟨ht, hlive⟩ := openRetryable_some hopened
  have hopen : IsOpen c.block s.state.world id := isOpen_of_some hopened
  have hcount := h.queued id hlive
  -- The windows are counted by the queue, whose positions are 64-bit.
  have hfits : t.timeoutWindowsLeft + 1 < 2 ^ 64 := by
    rw [ht, ← hcount]
    exact List.count_le_length.trans_lt (Queue.length_entries_lt _)
  have hentries := Queue.entries_put hput
  rw [heq]
  refine h.write hopen (isOpen_window hopened hfits) (by rw [ht]) ?_ (fun x hx => ?_) ?_
    (fun x _ => rfl) (fun x hx => .inl hx)
  · rw [hentries, List.count_append, List.count_singleton_self, hcount, wrap64_of_lt hfits, ht]
  · rw [hentries, count_queued _ hx]
  · rw [ht]
    exact h.tries id ((h.isOpen id).mp hopen).2

theorem tracked_runEnd (c : CancelCtx) (calls : RetryCalls) (h : WindowsQueued start) :
    Tracked c start (runEnd c start calls) :=
  run_invariant (Tracked c start) (fun _ i id hs => hs.redeem i id)
    (fun _ id caller hs => hs.cancel id caller) (fun _ id hs => hs.keepalive id) calls (tracked_start c h)

end Tracked

/-! ## Agreement -/

section Agreement

variable {chainId : Nat} {c : CancelCtx} {start : RetryableState} {calls : RetryCalls}

/-- The scan writes numbers of tries only. -/
theorem slotValue_scan {l : RetryableSlot} (h : ∀ id, l ≠ .ticket id .numTries) :
    slotValue ⟨(runScan chainId c start calls).1, start.queue⟩ l = slotValue start l := by
  have hsame : SameButTries start.world (runScan chainId c start calls).1 := sameButTries_scanLogs _ _
  cases l with
  | ticket id field =>
    simp only [slotValue]
    rw [hsame id]
    cases field with
    | numTries => exact absurd rfl (h id)
    | _ => rfl
  | nextPut => rfl
  | nextGet => rfl
  | cell n => rfl

/-- The scan counts the tries the run counted, where the run did not clear them. -/
theorem slotValue_scan_numTries (hrun : Tracked c start (runEnd c start calls)) (id : B256)
    (hid : id ∉ (runEnd c start calls).cancelled) :
    slotValue ⟨(runScan chainId c start calls).1, start.queue⟩ (.ticket id .numTries) =
      slotValue (runEnd c start calls).state (.ticket id .numTries) := by
  simp only [slotValue, word]
  rw [runScan, numTries_scanLogs hrun.redeemed, hrun.tries id hid, redeemedIds]

/-- Without a ticket that was redeemed and cancelled, the commit leaves what the run left. -/
theorem committed_eq (hrun : Tracked c start (runEnd c start calls))
    (hapart : ∀ id ∈ redeemedIds (runEnd c start calls).redeems,
      id ∉ (runEnd c start calls).cancelled) (l : RetryableSlot) :
    commitSlots (slotValue start) (slotValue (runEnd c start calls).state)
        (slotValue ⟨(runScan chainId c start calls).1, start.queue⟩) l =
      slotValue (runEnd c start calls).state l := by
  refine commitSlots_eq ?_
  by_cases hl : ∃ id, l = .ticket id .numTries
  · obtain ⟨id, rfl⟩ := hl
    by_cases hid : id ∈ (runEnd c start calls).cancelled
    · -- A cancelled ticket was not redeemed, and the scan counted nothing.
      have hcount : (redeemedIds (runEnd c start calls).redeems).count id = 0 :=
        List.count_eq_zero_of_not_mem fun hmem => hapart id hmem hid
      refine .inl ?_
      simp only [slotValue, word]
      rw [runScan, numTries_scanLogs hrun.redeemed, ← redeemedIds, hcount]
      rfl
    · exact .inr (slotValue_scan_numTries hrun id hid)
  · exact .inl (slotValue_scan fun id h => hl ⟨id, h⟩)

theorem committedSlots_eq (hrun : Tracked c start (runEnd c start calls)) (hzero : c.retryableId = 0)
    (hapart : ∀ id ∈ redeemedIds (runEnd c start calls).redeems,
      id ∉ (runEnd c start calls).cancelled) (l : RetryableSlot) :
    committedSlots chainId c start calls l = slotValue (runEnd c start calls).state l := by
  unfold committedSlots
  rw [if_neg (not_not_intro hzero)]
  exact committed_eq hrun hapart l

/-- A redemption deletes its own ticket, which the run has left alone. -/
theorem redemption_deletes (hrun : Tracked c start (runEnd c start calls)) (hzero : c.retryableId ≠ 0)
    (hstored : slotValue start (.ticket c.retryableId .timeout) ≠ 0) :
    committedSlots chainId c start calls (.ticket c.retryableId .timeout) ≠
      slotValue (runEnd c start calls).state (.ticket c.retryableId .timeout) := by
  have hend : slotValue (runEnd c start calls).state (.ticket c.retryableId .timeout) =
      slotValue start (.ticket c.retryableId .timeout) := by
    simp only [slotValue, word]
    rw [hrun.timeout _ (hrun.kept hzero)]
  have hscan : slotValue ⟨(runScan chainId c start calls).1, start.queue⟩
      (.ticket c.retryableId .timeout) = slotValue start (.ticket c.retryableId .timeout) :=
    slotValue_scan fun id h => by cases h
  have hcommit : commitSlots (slotValue start) (slotValue (runEnd c start calls).state)
      (slotValue ⟨(runScan chainId c start calls).1, start.queue⟩) (.ticket c.retryableId .timeout) =
        slotValue (runEnd c start calls).state (.ticket c.retryableId .timeout) :=
    commitSlots_eq (.inl hscan)
  have hgone : committedSlots chainId c start calls (.ticket c.retryableId .timeout) = 0 := by
    unfold committedSlots
    rw [if_pos hzero, deleteSlots, if_pos ⟨by rw [hcommit, hend]; exact hstored, rfl⟩]
  rw [hgone, hend]
  exact hstored.symm

end Agreement

/-- The bookkeeping of a successful transaction agrees with its committed state if and only if
    the transaction is no redemption, whose ticket is deleted, and no ticket is both redeemed and
    cancelled in it by calls that are not undone. -/
theorem redeem_bookkeeping_iff (chainId : Nat) (c : CancelCtx) (start : RetryableState)
    (calls : RetryCalls) (hqueued : WindowsQueued start)
    (hstored : c.retryableId ≠ 0 → slotValue start (.ticket c.retryableId .timeout) ≠ 0) :
    BookkeepingAgrees chainId c start calls ↔
      c.retryableId = 0 ∧ ∀ id ∈ redeemedIds (runEnd c start calls).redeems,
        id ∉ (runEnd c start calls).cancelled := by
  have hrun := tracked_runEnd c calls hqueued
  constructor
  · intro h
    refine ⟨by_contra fun hzero => redemption_deletes hrun hzero (hstored hzero) (h.slots _),
      fun id hid => ?_⟩
    -- The ticket was open before, so that its log scheduled a retry.
    obtain ⟨log, hlog, hticket⟩ := List.mem_filterMap.mp hid
    have hmem : (log, (scanLog chainId c.block start.world log).2) ∈
        (runScan chainId c start calls).2 := by
      rw [runScan, scanLogs_snd]
      exact List.mem_map_of_mem hlog
    have hopen := (h.scheduled _ hmem id hticket).mp
      ((scanLog_isSome hticket).mpr (hrun.redeemed id hid))
    exact ((hrun.isOpen id).mp hopen).2
  · rintro ⟨hzero, hapart⟩
    have hslots : ∀ l, committedSlots chainId c start calls l =
        slotValue (runEnd c start calls).state l := committedSlots_eq hrun hzero hapart
    refine ⟨hslots, fun id hid field => ?_, fun id hid hfits => ?_, fun e he id hid => ?_⟩
    · rw [hslots, slotValue, hrun.cleared id hid, word_cleared]
    · rw [hslots, slotValue, word, hrun.tries id ((hrun.isOpen id).mp hid).2,
        countTries_eq hfits]
    · rw [runScan, scanLogs_snd] at he
      obtain ⟨log, hlog, rfl⟩ := List.mem_map.mp he
      have hmem : id ∈ redeemedIds (runEnd c start calls).redeems :=
        List.mem_filterMap.mpr ⟨log, hlog, hid⟩
      refine (scanLog_isSome hid).trans ⟨fun hopen => ?_, fun _ => hrun.redeemed id hmem⟩
      exact (hrun.isOpen id).mpr ⟨hopen, hapart id hmem⟩

/-! ## Samples -/

def bookCtx : CancelCtx := ⟨sampleKeccak, sampleCtx, 0⟩

/-- Two tickets, created a day before. -/
def bookCalls : List Call :=
  [⟨1699900000, .create 0x111 1700504800 0xabc (some 0xdef) 0 sampleSender []⟩,
    ⟨1699900000, .create 0x222 1700504800 0xabc (some 0xdef) 0 sampleSender []⟩]

def bookStart : Option Sys := exec (step (callEnv bookCtx)) (Sys.init sampleWorld) bookCalls

def bookRedeem : RedeemCall := ⟨200000, sampleGas_le, 36, sampleSender, [], 0⟩

/-- A ticket is redeemed twice, once more in a call that is undone, and kept alive; the other one
    is cancelled. -/
def apartCalls : RetryCalls :=
  .redeem bookRedeem 0x111 (.call true (.redeem bookRedeem 0x111 (.cancel 0x111 sampleSender .done))
    (.keepalive 0x111 (.redeem bookRedeem 0x111 (.cancel 0x222 sampleSender .done))))

theorem redeem_bookkeeping_apart : ∃ s, bookStart = some s ∧
    redeemedIds (runEnd bookCtx s.state apartCalls).redeems = [0x111, 0x111] ∧
    (runEnd bookCtx s.state apartCalls).cancelled = [0x222] ∧
    BookkeepingAgrees 42161 bookCtx s.state apartCalls := by
  have hrun : bookStart.map (fun s => (redeemedIds (runEnd bookCtx s.state apartCalls).redeems,
      (runEnd bookCtx s.state apartCalls).cancelled)) = some ([0x111, 0x111], [0x222]) := by
    decide +kernel
  obtain ⟨s, hs, hout⟩ := Option.map_eq_some_iff.mp hrun
  obtain ⟨hids, hcancelled⟩ := Prod.mk.inj hout
  have hqueued : WindowsQueued s.state := windowsQueued_of_exec hs
  have hapart : ∀ id ∈ redeemedIds (runEnd bookCtx s.state apartCalls).redeems,
      id ∉ (runEnd bookCtx s.state apartCalls).cancelled := by
    rw [hids, hcancelled]
    intro id hid hcancel
    rw [List.mem_singleton.mp hcancel] at hid
    revert hid
    decide +kernel
  have hzero : bookCtx.retryableId = 0 := rfl
  exact ⟨s, hs, hids, hcancelled, (redeem_bookkeeping_iff 42161 bookCtx s.state apartCalls hqueued
    fun h => absurd hzero h).mpr ⟨hzero, hapart⟩⟩

/-- Redeemed, then cancelled by its beneficiary. -/
def redeemThenCancel : RetryCalls := .redeem bookRedeem 0x111 (.cancel 0x111 sampleSender .done)

/-- The cancelled ticket is left with one try, and a retry of it is scheduled. -/
theorem cancelled_ticket_keeps_try : ∃ s, bookStart = some s ∧
    (runEnd bookCtx s.state redeemThenCancel).cancelled = [0x111] ∧
    committedSlots 42161 bookCtx s.state redeemThenCancel (.ticket 0x111 .numTries) = 1 ∧
    ((runScan 42161 bookCtx s.state redeemThenCancel).2.map fun e => e.2.map Tx.ArbRetryTx.ticketId) =
      [some 0x111] ∧
    ¬ BookkeepingAgrees 42161 bookCtx s.state redeemThenCancel := by
  have hrun : bookStart.map (fun s => ((runEnd bookCtx s.state redeemThenCancel).cancelled,
      committedSlots 42161 bookCtx s.state redeemThenCancel (.ticket 0x111 .numTries),
      (runScan 42161 bookCtx s.state redeemThenCancel).2.map fun e =>
        e.2.map Tx.ArbRetryTx.ticketId)) = some ([0x111], 1, [some 0x111]) := by
    decide +kernel
  obtain ⟨s, hs, hout⟩ := Option.map_eq_some_iff.mp hrun
  simp only [Prod.mk.injEq] at hout
  obtain ⟨hcancelled, htries, hscan⟩ := hout
  refine ⟨s, hs, hcancelled, htries, hscan, fun h => ?_⟩
  have hzero := h.cancelled 0x111 (by rw [hcancelled]; exact List.mem_cons_self) .numTries
  rw [htries] at hzero
  exact absurd hzero (by decide)

end Arbreth.Redeem
