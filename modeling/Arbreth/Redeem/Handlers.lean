/-
  The calls of ArbRetryableTx that change tickets (arb-precompiles, arbretryabletx.rs:
  handle_redeem, handle_cancel, handle_keepalive; arbos, retryables/mod.rs:
  increment_num_tries_for).

  `redeem` counts a try of the ticket, donates what is left of its gas after all it still has to
  pay for, and announces the retry by a log. The hash in that log and in the returned word is a
  placeholder: the retry does not exist yet. `Redeemed` is what one successful redeem leaves
  behind; `handleRedeem_some` is all later proofs need of the gas arithmetic.

  A transaction's calls form a tree. A reverted call leaves no trace. A call that the precompile
  refuses or that runs out of gas is such a call too, so the gas of cancel and keepalive, which
  nothing else depends on, is left out. Beside the state, `RunState` records the redeems and the
  cancelled tickets that survive.
-/
import Arbreth.Exec.Cancel
import Arbreth.Exec.Execute
import Arbreth.Retryable.Model

namespace Arbreth.Redeem

open Arbreth.Lib Arbreth.Exec Arbreth.Retryable

/-! ## Gas -/

def sloadGas : Nat := 800

def sstoreGas : Nat := 20000

def sstoreResetGas : Nat := 5000

def copyGas : Nat := 3

def logGas : Nat := 375

def logTopicGas : Nat := 375

def logDataGas : Nat := 8

def redeemScheduledDataBytes : Nat := 128

def paramsSloadGas : Nat := 50

def redeemScheduledEventCost : Nat :=
  logGas + 4 * logTopicGas + logDataGas * redeemScheduledDataBytes

def multiConstraintStaticBacklogUpdateCost : Nat := 20800

/-- What a call of `redeem` gets: gas, size of the input and caller, and what the pricing state
    holds at that moment, the backlogs of the gas constraints and the single backlog. -/
structure RedeemCall where
  gas : Nat
  gas_le : gas ≤ u64Max
  dataLength : Nat
  caller : Address
  constraintBacklogs : List Nat
  currentGasBacklog : Nat

theorem sampleGas_le : 200000 ≤ u64Max := by decide

/-- `init_precompile_gas`. -/
def initPrecompileGas (dataLength : Nat) : Nat := satAdd64 (3 * ((dataLength - 4 + 31) / 32)) sloadGas

/-- `compute_backlog_update_cost`: the gas used so far and the reservation. -/
def computeBacklogUpdateCost (arbosVersion : Nat) (i : RedeemCall) (gasUsed : Nat) : Nat × Nat :=
  if 60 ≤ arbosVersion then (gasUsed, multiConstraintStaticBacklogUpdateCost)
  else
    let result := if 50 ≤ arbosVersion then sloadGas else 0
    if 51 ≤ arbosVersion then
      let gasUsed := satAdd64 gasUsed sloadGas
      if i.constraintBacklogs ≠ [] then
        (gasUsed, wrap64 (result + sloadGas +
          satMul64 i.constraintBacklogs.length (sloadGas + sstoreGas)))
      else (gasUsed, result + (sloadGas + sstoreGas))
    else (gasUsed, result + (sloadGas + sstoreGas))

/-- The body `legacy_actual_backlog_cost` and `constraint_actual_backlog_cost` share. -/
def actualBacklogCost (currentBacklog gasToDonate : Nat) : Nat :=
  sloadGas + if currentBacklog - gasToDonate = 0 then sstoreResetGas else sstoreGas

/-- `compute_actual_backlog_cost`. -/
def computeActualBacklogCost (arbosVersion : Nat) (i : RedeemCall) (gasToDonate : Nat) : Nat :=
  if 60 ≤ arbosVersion then multiConstraintStaticBacklogUpdateCost
  else if 51 ≤ arbosVersion ∧ i.constraintBacklogs ≠ [] then
    wrap64 (2 * sloadGas + (i.constraintBacklogs.map (actualBacklogCost · gasToDonate)).sum)
  else
    actualBacklogCost i.currentGasBacklog gasToDonate + if 50 ≤ arbosVersion then sloadGas else 0

/-! ## Redeem -/

/-- The operations below transfer nothing. -/
def callEnv (c : CancelCtx) : Env :=
  ⟨c.block.arbosVersion, c.keccak256, fun w _ _ _ => w, fun _ _ _ _ => rfl⟩

/-- `increment_num_tries_for`: the number of tries before. -/
def incrementNumTriesFor (e : Env) (w : World) (id : B256) (now : Nat) :
    RetryableLookup Nat × World :=
  let opened := openRetryableMetered e w id now
  match opened.1 with
  | some t =>
    let newVal := wrap64 (t.numTries + 1)
    (⟨.found (wrap64 (newVal + u64Max)), opened.2⟩, w.setTicket id { t with numTries := newVal })
  | none => (⟨.noTicket, opened.2⟩, w)

/-- The hash `handle_redeem` announces. -/
def placeholderHash (keccak256 : Bytes → B256) (id : B256) (nonce : Nat) : B256 :=
  keccak256 (wordBytes id ++ beBytes 32 nonce)

/-- The `RedeemScheduled` log. -/
def redeemScheduledLog (id hash : B256) (nonce gas : Nat) (donor : Address)
    (maxRefund submissionFeeRefund : U256) : Log where
  address := arbretryabletxAddress
  topics := [redeemScheduledTopic, id, hash, BitVec.ofNat 256 nonce]
  data := beBytes 32 gas ++ beBytes 32 donor.toNat ++ wordBytes maxRefund ++
    wordBytes submissionFeeRefund

/-- What a redeem that went through leaves: the gas it reports, the word it returns, its log. -/
structure Redeemed where
  gasUsed : Nat
  output : B256
  log : Log

/-- The gas of an open ticket's redeem up to the backlog reservation. -/
def redeemReadGas (c : CancelCtx) (i : RedeemCall) (id : B256) (w : World) (t : Ticket) : Nat :=
  let extra := (openRetryableMetered (callEnv c) w id c.block.blockTimestamp).2
  let calldataRawSize := t.calldata.length
  let calldataWords := (calldataRawSize + 31) / 32
  let writeBytes := (6 * 32 + 32 + 32 * calldataWords + 31) / 32
  let gasUsed := satAdd64 (initPrecompileGas i.dataLength) sloadGas
  let gasUsed := satAdd64 gasUsed extra
  let gasUsed := satAdd64 gasUsed sloadGas
  let gasUsed := satAdd64 gasUsed (satMul64 paramsSloadGas writeBytes)
  -- the ticket is opened once more to count the try
  let gasUsed := satAdd64 gasUsed extra
  let gasUsed := satAdd64 gasUsed (2 * sloadGas)
  let gasUsed := satAdd64 gasUsed sstoreGas
  satAdd64 gasUsed (wrap64 ((5 + calldataRawSize / 32) * sloadGas))

/-- The gas to donate and the gas used in the end, after the `gas_check` of the handler. None:
    the call reverts or runs out of gas. -/
def redeemGas (c : CancelCtx) (i : RedeemCall) (id : B256) (w : World) (t : Ticket) :
    Option (Nat × Nat) :=
  let (gasUsed, backlogReservation) :=
    computeBacklogUpdateCost c.block.arbosVersion i (redeemReadGas c i id w t)
  let futureGasCosts := wrap64 (redeemScheduledEventCost + copyGas + backlogReservation)
  let gasRemaining := i.gas - gasUsed
  if gasRemaining < futureGasCosts then none
  else
    let gasToDonate := gasRemaining - futureGasCosts
    if gasToDonate < txGas then none
    else
      let gasUsed := satAdd64 gasUsed redeemScheduledEventCost
      let gasUsed := satAdd64 gasUsed gasToDonate
      let gasUsed := satAdd64 gasUsed (computeActualBacklogCost c.block.arbosVersion i gasToDonate)
      let gasUsed := satAdd64 gasUsed copyGas
      if i.gas < gasUsed then none else some (gasToDonate, min gasUsed i.gas)

/-- `handle_redeem`. -/
def handleRedeem (c : CancelCtx) (i : RedeemCall) (id : B256) (w : World) : Option (Redeemed × World) :=
  if c.retryableId ≠ 0 ∧ c.retryableId = id then none
  else
    let inc := incrementNumTriesFor (callEnv c) w id c.block.blockTimestamp
    match (openRetryableMetered (callEnv c) w id c.block.blockTimestamp).1, inc.1.outcome with
    | some t, .found nonce =>
      (redeemGas c i id w t).map fun (gasToDonate, gasUsed) =>
        let retryTxHash := placeholderHash c.keccak256 id nonce
        let maxRefund := BitVec.allOnes 256
        (⟨gasUsed, retryTxHash,
          redeemScheduledLog id retryTxHash nonce gasToDonate i.caller maxRefund 0⟩, inc.2)
    | _, _ => none

/-! ## Runs -/

/-- The calls of a run that change tickets, in order. -/
inductive RetryCalls where
  | done
  | redeem (i : RedeemCall) (id : B256) (rest : RetryCalls)
  | cancel (id : B256) (caller : Address) (rest : RetryCalls)
  | keepalive (id : B256) (rest : RetryCalls)
  | call (reverted : Bool) (body rest : RetryCalls)

/-- The journaled state, and what has survived so far. -/
structure RunState where
  state : RetryableState
  redeems : List Redeemed
  cancelled : List B256

def RunState.start (s : RetryableState) : RunState := ⟨s, [], []⟩

namespace RunState

variable (c : CancelCtx) (s : RunState)

def redeem (i : RedeemCall) (id : B256) : RunState :=
  match handleRedeem c i id s.state.world with
  | some (r, w) => { s with state := ⟨w, s.state.queue⟩, redeems := s.redeems ++ [r] }
  | none => s

/-- `handle_cancel`. -/
def cancel (id : B256) (caller : Address) : RunState :=
  if c.retryableId ≠ 0 ∧ c.retryableId = id then s
  else
    match Exec.cancel c.block.arbosVersion s.state.world id caller c.block.blockTimestamp with
    | (.cleared _, w) => { s with state := ⟨w, s.state.queue⟩, cancelled := s.cancelled ++ [id] }
    | _ => s

/-- `handle_keepalive`. -/
def keepalive (id : B256) : RunState :=
  let windowLimit := wrap64 (c.block.blockTimestamp + retryableLifetimeSeconds)
  match s.state.keepalive (callEnv c) id c.block.blockTimestamp windowLimit with
  | some (.ok ⟨.found _, _⟩, state) => { s with state := state }
  | _ => s

end RunState

def RetryCalls.run (c : CancelCtx) : RetryCalls → RunState → RunState
  | .done, s => s
  | .redeem i id rest, s => rest.run c (s.redeem c i id)
  | .cancel id caller rest, s => rest.run c (s.cancel c id caller)
  | .keepalive id rest, s => rest.run c (s.keepalive c id)
  | .call reverted body rest, s =>
    let s' := body.run c s
    rest.run c (if reverted then s else s')

/-! ## What a redeem does -/

theorem tickets_setTicket_self (w : World) (id : B256) (t : Ticket) :
    (w.setTicket id t).tickets id = t := Function.update_self _ _ _

theorem tickets_setTicket_of_ne (w : World) {id id' : B256} (h : id' ≠ id) (t : Ticket) :
    (w.setTicket id t).tickets id' = w.tickets id' := Function.update_of_ne h _ _

theorem le_satAdd64_left {a n : Nat} (b : Nat) (hn : n ≤ a) (hmax : n ≤ u64Max) : n ≤ satAdd64 a b :=
  Nat.le_min.mpr ⟨Nat.le_add_right_of_le hn, hmax⟩

/-- A donation pays for a transaction and is part of the gas reported. -/
theorem redeemGas_some {c : CancelCtx} {i : RedeemCall} {id : B256} {w : World} {t : Ticket}
    {donated gasUsed : Nat} (h : redeemGas c i id w t = some (donated, gasUsed)) :
    txGas ≤ donated ∧ donated ≤ gasUsed ∧ gasUsed ≤ i.gas := by
  unfold redeemGas at h
  dsimp only at h
  split at h
  · cases h
  split at h
  · cases h
  next hdonate =>
  generalize hgas : i.gas - _ - _ = gasToDonate at h hdonate
  split at h
  · cases h
  cases h
  have hle : donated ≤ i.gas := by omega
  have hmax : donated ≤ u64Max := hle.trans i.gas_le
  refine ⟨Nat.not_lt.mp hdonate, Nat.le_min.mpr ⟨?_, hle⟩, Nat.min_le_right _ _⟩
  refine le_satAdd64_left _ (le_satAdd64_left _ ?_ hmax) hmax
  exact Nat.le_min.mpr ⟨Nat.le_add_left _ _, hmax⟩

/-- A redeem of the open ticket `t` that donates `donated` gas. -/
structure RedeemsAs (c : CancelCtx) (i : RedeemCall) (id : B256) (w : World) (t : Ticket)
    (nonce donated : Nat) (r : Redeemed) (w' : World) : Prop where
  allowed : ¬ (c.retryableId ≠ 0 ∧ c.retryableId = id)
  opened : openRetryable c.block.arbosVersion w id c.block.blockTimestamp = some t
  previous : nonce = wrap64 (wrap64 (t.numTries + 1) + u64Max)
  world : w' = w.setTicket id { t with numTries := wrap64 (t.numTries + 1) }
  output : r.output = placeholderHash c.keccak256 id nonce
  log : r.log = redeemScheduledLog id r.output nonce donated i.caller (BitVec.allOnes 256) 0
  enough : txGas ≤ donated
  paid : donated ≤ r.gasUsed
  gasUsed_le : r.gasUsed ≤ i.gas

theorem handleRedeem_some {c : CancelCtx} {i : RedeemCall} {id : B256} {w w' : World} {r : Redeemed}
    (h : handleRedeem c i id w = some (r, w')) :
    ∃ t nonce donated, RedeemsAs c i id w t nonce donated r w' := by
  unfold handleRedeem incrementNumTriesFor at h
  split at h
  · cases h
  next hallowed =>
  simp only [openRetryableMetered_fst, callEnv] at h
  cases hopen : openRetryable c.block.arbosVersion w id c.block.blockTimestamp with
  | none =>
    simp only [hopen] at h
    cases h
  | some t =>
    simp only [hopen] at h
    obtain ⟨⟨donated, gasUsed⟩, hgas, hout⟩ := Option.map_eq_some_iff.mp h
    obtain ⟨henough, hpaid, hle⟩ := redeemGas_some hgas
    obtain ⟨hr, hw⟩ := Prod.mk.inj hout
    subst hr hw
    exact ⟨t, _, donated,
      { allowed := hallowed, opened := hopen, previous := rfl, world := rfl, output := rfl,
        log := rfl, enough := henough, paid := hpaid, gasUsed_le := hle }⟩

/-! ## What a run keeps -/

/-- What redeem, cancel and keepalive keep, every run keeps; a reverted call goes back to where
    it began. -/
theorem run_invariant {c : CancelCtx} (inv : RunState → Prop)
    (redeem : ∀ s i id, inv s → inv (s.redeem c i id))
    (cancel : ∀ s id caller, inv s → inv (s.cancel c id caller))
    (keepalive : ∀ s id, inv s → inv (s.keepalive c id)) (calls : RetryCalls) {s : RunState}
    (h : inv s) : inv (calls.run c s) := by
  induction calls generalizing s with
  | done => exact h
  | redeem i id rest ih => exact ih (redeem s i id h)
  | cancel id caller rest ih => exact ih (cancel s id caller h)
  | keepalive id rest ih => exact ih (keepalive s id h)
  | call reverted body rest ihBody ihRest =>
    refine ihRest ?_
    cases reverted with
    | true => exact h
    | false => exact ihBody h

/-- A redeem adds its record or does nothing. -/
theorem redeem_cases (c : CancelCtx) (s : RunState) (i : RedeemCall) (id : B256) :
    s.redeem c i id = s ∨ ∃ t nonce donated r w',
      RedeemsAs c i id s.state.world t nonce donated r w' ∧
        s.redeem c i id = { s with state := ⟨w', s.state.queue⟩, redeems := s.redeems ++ [r] } := by
  unfold RunState.redeem
  cases h : handleRedeem c i id s.state.world with
  | none => exact .inl rfl
  | some p =>
    obtain ⟨t, nonce, donated, has⟩ := handleRedeem_some h
    exact .inr ⟨t, nonce, donated, p.1, p.2, has, rfl⟩

theorem cancel_cases (c : CancelCtx) (s : RunState) (id : B256) (caller : Address) :
    s.cancel c id caller = s ∨
      (¬ (c.retryableId ≠ 0 ∧ c.retryableId = id) ∧ IsOpen c.block s.state.world id ∧
        s.cancel c id caller =
          { s with
            state := ⟨s.state.world.clearTicketFields id, s.state.queue⟩
            cancelled := s.cancelled ++ [id] }) := by
  unfold RunState.cancel Exec.cancel
  split
  · exact .inl rfl
  next hallowed =>
  cases hopen : openRetryable c.block.arbosVersion s.state.world id c.block.blockTimestamp with
  | none => exact .inl rfl
  | some t =>
    dsimp only
    split
    · next heq =>
      split at heq
      · cases heq
      · cases heq
        exact .inr ⟨hallowed, isOpen_of_some hopen, rfl⟩
    · exact .inl rfl

theorem keepalive_found {e : Env} {s s' : RetryableState} {id : B256} {now limit timeout extra : Nat}
    (h : s.keepalive e id now limit = some (.ok ⟨.found timeout, extra⟩, s')) :
    ∃ t q, openRetryable e.arbosVersion s.world id now = some t ∧ s.queue.put id = some q ∧
      s' = ⟨s.world.setTicket id { t with timeoutWindowsLeft := wrap64 (t.timeoutWindowsLeft + 1) },
        q⟩ := by
  unfold RetryableState.keepalive at h
  dsimp only at h
  rw [openRetryableMetered_fst] at h
  cases hopen : openRetryable e.arbosVersion s.world id now with
  | none =>
    rw [hopen] at h
    cases h
  | some t =>
    rw [hopen] at h
    dsimp only at h
    split at h
    · cases h
    · obtain ⟨q, hq, hout⟩ := Option.map_eq_some_iff.mp h
      exact ⟨t, q, rfl, hq, (Prod.mk.inj hout).2.symm⟩

/-- A keepalive gives an open ticket one window more, with an entry in the timeout queue, or
    does nothing. -/
theorem keepalive_cases (c : CancelCtx) (s : RunState) (id : B256) :
    s.keepalive c id = s ∨ ∃ t q,
      openRetryable c.block.arbosVersion s.state.world id c.block.blockTimestamp = some t ∧
        s.state.queue.put id = some q ∧
        s.keepalive c id = { s with state := ⟨s.state.world.setTicket id
          { t with timeoutWindowsLeft := wrap64 (t.timeoutWindowsLeft + 1) }, q⟩ } := by
  unfold RunState.keepalive
  dsimp only
  split
  · next heq =>
    obtain ⟨t, q, hopen, hput, hstate⟩ := keepalive_found heq
    exact .inr ⟨t, q, hopen, hput, by rw [hstate]⟩
  · exact .inl rfl

theorem redeems_cancel (c : CancelCtx) (s : RunState) (id : B256) (caller : Address) :
    (s.cancel c id caller).redeems = s.redeems := by
  rcases cancel_cases c s id caller with hsame | ⟨-, -, heq⟩
  · rw [hsame]
  · rw [heq]

theorem redeems_keepalive (c : CancelCtx) (s : RunState) (id : B256) :
    (s.keepalive c id).redeems = s.redeems := by
  rcases keepalive_cases c s id with hsame | ⟨t, q, -, -, heq⟩
  · rw [hsame]
  · rw [heq]

/-- Every surviving redeem went through as `RedeemsAs` says. -/
def RedeemedBy (c : CancelCtx) (r : Redeemed) : Prop :=
  ∃ i id w t nonce donated w', RedeemsAs c i id w t nonce donated r w'

theorem redeems_run (c : CancelCtx) (start : RetryableState) (calls : RetryCalls) :
    ∀ r ∈ (calls.run c (.start start)).redeems, RedeemedBy c r := by
  refine run_invariant (fun s => ∀ r ∈ s.redeems, RedeemedBy c r) (fun s i id h => ?_)
    (fun s id caller h => ?_) (fun s id h => ?_) calls (fun r hr => absurd hr List.not_mem_nil)
  · rcases redeem_cases c s i id with hsame | ⟨t, nonce, donated, r, w', has, heq⟩
    · rw [hsame]
      exact h
    · rw [heq]
      intro r' hr'
      rcases List.mem_append.mp hr' with hr' | hr'
      · exact h r' hr'
      · rw [List.mem_singleton.mp hr']
        exact ⟨i, id, _, t, nonce, donated, w', has⟩
  · rw [redeems_cancel]
    exact h
  · rw [redeems_keepalive]
    exact h

end Arbreth.Redeem
