/-
  Cancelling tickets inside a run (arb-precompiles, arbretryabletx.rs: handle_cancel;
  arb-context, lib.rs: set_cancel_escrow_sweep).

  A run is a tree of calls. A call that reverts loses its storage writes, but not what it wrote
  to the transaction's context: the one slot that says which escrow to sweep. `cleared` and
  `last` record what happened: the tickets cleared by cancels that were not undone, and the
  last cancel that cleared a ticket, undone or not. `tracks_run` says that the slot always
  names the second, and the open tickets are those before without the first.
-/
import Arbreth.Exec.Retryables

namespace Arbreth.Exec

open Arbreth.Lib

/-- The ticket exists and has not expired. -/
def IsOpen (ctx : BlockCtx) (w : World) (id : B256) : Prop :=
  (openRetryable ctx.arbosVersion w id ctx.blockTimestamp).isSome = true

instance (ctx : BlockCtx) (w : World) (id : B256) : Decidable (IsOpen ctx w id) :=
  inferInstanceAs (Decidable (_ = true))

theorem isOpen_congr {ctx : BlockCtx} {w w' : World} {id : B256} (h : w'.tickets id = w.tickets id) :
    IsOpen ctx w' id ↔ IsOpen ctx w id := by
  unfold IsOpen openRetryable
  rw [h]

theorem isOpen_of_some {ctx : BlockCtx} {w : World} {id : B256} {t : Ticket}
    (h : openRetryable ctx.arbosVersion w id ctx.blockTimestamp = some t) : IsOpen ctx w id := by
  unfold IsOpen
  rw [h, Option.isSome_some]

/-- What the precompile reads of block and transaction. -/
structure CancelCtx where
  keccak256 : Bytes → B256
  block : BlockCtx
  retryableId : B256

def CancelCtx.escrow (c : CancelCtx) (id : B256) : Address := retryableEscrowAddress c.keccak256 id

/-! ## Runs -/

/-- A step of a run that is no cancel. It may move any balances, but opens or closes no ticket
    and leaves its beneficiary as it is. -/
structure OtherStep (ctx : BlockCtx) where
  run : World → World
  isOpen : ∀ w id, IsOpen ctx (run w) id ↔ IsOpen ctx w id
  beneficiary : ∀ w id, ((run w).tickets id).beneficiary = (w.tickets id).beneficiary

/-- The calls of a run, in order. -/
inductive Calls (ctx : BlockCtx) where
  | done
  | other (f : OtherStep ctx) (rest : Calls ctx)
  | cancel (id : B256) (caller : Address) (rest : Calls ctx)
  | call (reverted : Bool) (body rest : Calls ctx)

/-- The state of a run: the journaled world and the slot in the transaction's context. The
    tickets cleared so far and the last one cleared are kept to speak about. -/
structure CallState where
  world : World
  sweep : Option (Address × Address)
  cleared : List (B256 × Address)
  last : Option (B256 × Address)

def CallState.start (w : World) : CallState := ⟨w, none, [], none⟩

/-- `handle_cancel`: the ticket that is being redeemed is refused. -/
def handleCancel (c : CancelCtx) (id : B256) (caller : Address) (s : CallState) : CallState :=
  if c.retryableId ≠ 0 ∧ c.retryableId = id then s
  else
    match cancel c.block.arbosVersion s.world id caller c.block.blockTimestamp with
    | (.cleared beneficiary, w) =>
      { world := w
        sweep := some (c.escrow id, beneficiary)
        cleared := s.cleared ++ [(id, beneficiary)]
        last := some (id, beneficiary) }
    | _ => s

/-- A reverted call: the journal goes back to where the call began. -/
def CallState.revertTo (s' s : CallState) : CallState :=
  { s' with world := s.world, cleared := s.cleared }

def Calls.run (c : CancelCtx) : Calls c.block → CallState → CallState
  | .done, s => s
  | .other f rest, s => rest.run c { s with world := f.run s.world }
  | .cancel id caller rest, s => rest.run c (handleCancel c id caller s)
  | .call reverted body rest, s =>
    let s' := body.run c s
    rest.run c (if reverted then s'.revertTo s else s')

/-- Every cancel is called by an account with this property. -/
def Calls.CalledBy (P : Address → Prop) {ctx : BlockCtx} : Calls ctx → Prop
  | .done => True
  | .other _ rest => rest.CalledBy P
  | .cancel _ caller rest => P caller ∧ rest.CalledBy P
  | .call _ body rest => body.CalledBy P ∧ rest.CalledBy P

/-! ## What the records say -/

/-- A ticket that was open before, with its beneficiary, who called the cancel. -/
structure Cancelled (P : Address → Prop) (ctx : BlockCtx) (w : World) (t : B256 × Address) : Prop where
  isOpen : IsOpen ctx w t.1
  beneficiary : t.2 = (w.tickets t.1).beneficiary
  caller : P t.2

/-- The records of a run that began in `w`. -/
structure Tracks (P : Address → Prop) (c : CancelCtx) (w : World) (s : CallState) : Prop where
  sweep : s.sweep = s.last.map fun t => (c.escrow t.1, t.2)
  isOpen : ∀ id, IsOpen c.block s.world id ↔ IsOpen c.block w id ∧ id ∉ s.cleared.map Prod.fst
  beneficiary : ∀ id, IsOpen c.block s.world id →
    (s.world.tickets id).beneficiary = (w.tickets id).beneficiary
  cleared : ∀ t ∈ s.cleared, Cancelled P c.block w t
  nodup : (s.cleared.map Prod.fst).Nodup
  last : ∀ t, s.last = some t → Cancelled P c.block w t

variable {P : Address → Prop} {c : CancelCtx} {w : World} {s s' : CallState}

theorem Tracks.start (P : Address → Prop) (c : CancelCtx) (w : World) : Tracks P c w (.start w) where
  sweep := rfl
  isOpen _ := ⟨fun h => ⟨h, List.not_mem_nil⟩, And.left⟩
  beneficiary _ _ := rfl
  cleared _ h := absurd h List.not_mem_nil
  nodup := List.nodup_nil
  last _ h := by cases h

theorem Tracks.other (h : Tracks P c w s) (f : OtherStep c.block) :
    Tracks P c w { s with world := f.run s.world } where
  sweep := h.sweep
  isOpen id := (f.isOpen s.world id).trans (h.isOpen id)
  beneficiary id hid :=
    (f.beneficiary s.world id).trans (h.beneficiary id ((f.isOpen s.world id).mp hid))
  cleared := h.cleared
  nodup := h.nodup
  last := h.last

/-- A reverted call keeps the slot of its end and the journal of its beginning. -/
theorem Tracks.revertTo (h : Tracks P c w s) (h' : Tracks P c w s') : Tracks P c w (s'.revertTo s) where
  sweep := h'.sweep
  isOpen := h.isOpen
  beneficiary := h.beneficiary
  cleared := h.cleared
  nodup := h.nodup
  last := h'.last

/-- What a cancel does: nothing, or it clears an open ticket for its beneficiary. -/
theorem handleCancel_cases (c : CancelCtx) (id : B256) (caller : Address) (s : CallState) :
    handleCancel c id caller s = s ∨
      (IsOpen c.block s.world id ∧ caller = (s.world.tickets id).beneficiary ∧
        handleCancel c id caller s =
          ⟨s.world.clearTicketFields id, some (c.escrow id, caller), s.cleared ++ [(id, caller)],
            some (id, caller)⟩) := by
  unfold handleCancel cancel
  split
  · exact .inl rfl
  · cases hopen : openRetryable c.block.arbosVersion s.world id c.block.blockTimestamp with
    | none => exact .inl rfl
    | some t =>
      have ht := (openRetryable_some hopen).1
      dsimp only
      by_cases hcaller : caller = t.beneficiary
      · rw [if_neg (not_not_intro hcaller)]
        refine .inr ⟨isOpen_of_some hopen, hcaller.trans (by rw [ht]), ?_⟩
        rw [hcaller]
      · rw [if_pos hcaller]
        exact .inl rfl

theorem isOpen_clearTicketFields (ctx : BlockCtx) (w : World) (id id' : B256) :
    IsOpen ctx (w.clearTicketFields id) id' ↔ IsOpen ctx w id' ∧ id' ≠ id := by
  by_cases hid : id' = id
  · subst hid
    refine iff_of_false ?_ fun h => h.2 rfl
    simp [IsOpen, openRetryable, World.clearTicketFields, World.setTicket, Ticket.cleared]
  · have hsame : (w.clearTicketFields id).tickets id' = w.tickets id' := Function.update_of_ne hid _ _
    rw [isOpen_congr hsame]
    exact ⟨fun h => ⟨h, hid⟩, And.left⟩

theorem Tracks.cancel (h : Tracks P c w s) (id : B256) {caller : Address} (hcaller : P caller) :
    Tracks P c w (handleCancel c id caller s) := by
  rcases handleCancel_cases c id caller s with hsame | ⟨hopen, hbeneficiary, hclears⟩
  · rw [hsame]
    exact h
  rw [hclears]
  obtain ⟨hopen₀, hfresh⟩ := (h.isOpen id).mp hopen
  have hcancelled : Cancelled P c.block w (id, caller) :=
    ⟨hopen₀, hbeneficiary.trans (h.beneficiary id hopen), hcaller⟩
  refine ⟨rfl, fun id' => ?_, fun id' hid' => ?_, fun t ht => ?_, ?_, fun t ht => ?_⟩
  · rw [isOpen_clearTicketFields, h.isOpen id', List.map_append, List.mem_append, not_or,
      List.map_singleton, List.mem_singleton, and_assoc]
  · obtain ⟨hid', hne⟩ := (isOpen_clearTicketFields c.block s.world id id').mp hid'
    have hsame : (s.world.clearTicketFields id).tickets id' = s.world.tickets id' :=
      Function.update_of_ne hne _ _
    rw [hsame]
    exact h.beneficiary id' hid'
  · rcases List.mem_append.mp ht with ht | ht
    · exact h.cleared t ht
    · rw [List.mem_singleton.mp ht]
      exact hcancelled
  · rw [List.map_append, List.map_singleton]
    exact h.nodup.append (List.nodup_singleton id) (List.disjoint_singleton.mpr hfresh)
  · cases ht
    exact hcancelled

theorem tracks_run (calls : Calls c.block) (hcalled : calls.CalledBy P) (h : Tracks P c w s) :
    Tracks P c w (calls.run c s) := by
  induction calls generalizing s with
  | done => exact h
  | other f rest ih => exact ih hcalled (h.other f)
  | cancel id caller rest ih => exact ih hcalled.2 (h.cancel id hcalled.1)
  | call reverted body rest ihBody ihRest =>
    have hbody := ihBody hcalled.1 h
    refine ihRest hcalled.2 ?_
    split
    · exact h.revertTo hbody
    · exact hbody

end Arbreth.Exec
