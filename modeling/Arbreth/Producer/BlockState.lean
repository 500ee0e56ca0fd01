/-
  The block production state machine (arbos, block_processor.rs: BlockProductionState).

  The machine says which transaction comes next, whether a user transaction fits, and what each
  outcome takes from the block's gas. No code of the repository drives it; `drive` does what its
  comment asks of the block executor, on transactions whose fate is given: invalid, or a gas use
  and the retries it schedules, each with its own fate.

  `drive_ends` gives the machine's choice in closed form: the queue of redeems is worked off
  before the next user transaction, so that one costs the sum over its tree of retries.

  The balance delta, timestamp and base fee are left out, and the messages the sequencer is told.
-/
import Arbreth.Exec.BlockGas

namespace Arbreth.BlockProcessor

open Arbreth.Exec

/-- `TxResult`, without the receipt status. -/
structure TxResult (ρ : Type) where
  gasUsed : Nat
  dataGas : Nat
  scheduledTxs : List ρ
  evmError : Option String

inductive TxOutcome (ρ : Type) where
  | success (result : TxResult ρ)
  | invalid (err : String)

inductive TxAction (ρ α : Type) where
  | executeStartBlock
  | executeRedeem (tx : ρ)
  | executeUserTx (tx : α)
  | done

inductive BlockProcessorError where
  | internalTxFailed (reason : String)

structure BlockProductionState (ρ : Type) where
  blockGasLeft : Nat
  redeems : List ρ
  startBlockProduced : Bool
  userTxsProcessed : Nat
  arbosVersion : Nat

open BlockProductionState

namespace BlockProductionState

variable {ρ α : Type}

def new (perBlockGasLimit arbosVersion : Nat) : BlockProductionState ρ where
  blockGasLeft := perBlockGasLimit
  redeems := []
  startBlockProduced := false
  userTxsProcessed := 0
  arbosVersion := arbosVersion

/-- `next_tx_action`. The sequencer hands out the list of transactions in order. -/
def nextTxAction (st : BlockProductionState ρ) (txs : List α) :
    TxAction ρ α × BlockProductionState ρ × List α :=
  if st.startBlockProduced = false then
    (.executeStartBlock, { st with startBlockProduced := true }, txs)
  else
    match st.redeems with
    | redeem :: redeems => (.executeRedeem redeem, { st with redeems }, txs)
    | [] =>
      match txs with
      | tx :: txs => if st.blockGasLeft < txGas then (.done, st, txs) else (.executeUserTx tx, st, txs)
      | [] => (.done, st, [])

/-- `should_reject_for_block_gas`. -/
def shouldRejectForBlockGas (st : BlockProductionState ρ) (computeGas : Nat) (isUserTx : Bool) : Bool :=
  st.arbosVersion < 50 && st.blockGasLeft < computeGas && isUserTx && 0 < st.userTxsProcessed

/-- `record_tx_outcome`. -/
def recordTxOutcome (st : BlockProductionState ρ) (action : TxAction ρ α) :
    TxOutcome ρ → Except BlockProcessorError (BlockProductionState ρ)
  | .invalid _ =>
    match action with
    | .executeUserTx _ =>
      .ok { st with
        blockGasLeft := st.blockGasLeft - txGas
        userTxsProcessed := st.userTxsProcessed + 1 }
    | _ => .ok { st with blockGasLeft := st.blockGasLeft - txGas }
  | .success result =>
    let computeUsed :=
      if result.dataGas ≤ result.gasUsed then
        let c := result.gasUsed - result.dataGas
        if c < txGas then txGas else c
      else txGas
    let st' := { st with
      redeems := st.redeems ++ result.scheduledTxs
      blockGasLeft := st.blockGasLeft - computeUsed }
    match action with
    | .executeStartBlock =>
      match result.evmError with
      | some err => .error (.internalTxFailed err)
      | none => .ok st'
    | .executeUserTx _ => .ok { st' with userTxsProcessed := st.userTxsProcessed + 1 }
    | _ => .ok st'

def setArbosVersion (st : BlockProductionState ρ) (version : Nat) : BlockProductionState ρ :=
  { st with arbosVersion := version }

/-- What the rules of the budget read. -/
def blockGas (st : BlockProductionState ρ) : BlockGas :=
  ⟨st.blockGasLeft, st.userTxsProcessed, st.arbosVersion⟩

end BlockProductionState

/-! ## Driving the machine -/

/-- What becomes of a transaction: it is invalid, or it uses gas, of which `redeemGas` is that of
    the retries it schedules. A retry is given by its own fate. -/
inductive Fate where
  | invalid (err : String)
  | success (gasUsed redeemGas dataGas : Nat) (scheduled : List Fate)

open Fate

/-- What is recorded of it. -/
def Fate.outcome : Fate → TxOutcome Fate
  | .invalid err => .invalid err
  | .success gasUsed redeemGas dataGas scheduled =>
    .success ⟨gasUsed - redeemGas, dataGas, scheduled, none⟩

/-- A user transaction, with the compute gas of its limit. -/
structure UserTx (α : Type) where
  tx : α
  computeGas : Nat
  fate : Fate

/-- A user transaction in the block, with what was left and counted before it. -/
structure Included (α : Type) where
  tx : α
  blockGasLeft : Nat
  userTxsProcessed : Nat
  deriving DecidableEq

section Drive

variable {α : Type}

def included (st : BlockProductionState Fate) (tx : α) : TxOutcome Fate → List (Included α)
  | .success _ => [⟨tx, st.blockGasLeft, st.userTxsProcessed⟩]
  | .invalid _ => []

/-- Ask for the next transaction and record what becomes of it, until the block is complete. The
    start of the block uses no gas and sets the version. -/
def drive (version : Nat) : Nat → BlockProductionState Fate → List (UserTx α) →
    Option (List (Included α))
  | 0, _, _ => none
  | steps + 1, st, txs =>
    match st.nextTxAction txs with
    | (.done, _, _) => some []
    | (.executeStartBlock, st, txs) =>
      let action : TxAction Fate (UserTx α) := .executeStartBlock
      (st.recordTxOutcome action (.success ⟨0, 0, [], none⟩)).toOption.bind fun st' =>
        drive version steps (st'.setArbosVersion version) txs
    | (.executeRedeem fate, st, txs) =>
      let action : TxAction Fate (UserTx α) := .executeRedeem fate
      (st.recordTxOutcome action fate.outcome).toOption.bind fun st' => drive version steps st' txs
    | (.executeUserTx u, st, txs) =>
      let outcome :=
        if st.shouldRejectForBlockGas u.computeGas true then .invalid "block gas limit reached"
        else u.fate.outcome
      (st.recordTxOutcome (.executeUserTx u) outcome).toOption.bind fun st' =>
        (drive version steps st' txs).map (included st u.tx outcome ++ ·)

end Drive

/-! ## The machine's choice in closed form -/

/-- The retries it schedules. -/
def Fate.scheduled : Fate → List Fate
  | .invalid _ => []
  | .success _ _ _ scheduled => scheduled

/-- What it costs by itself. -/
def Fate.charge : Fate → Nat
  | .invalid _ => txGas
  | .success gasUsed redeemGas dataGas _ => computeUsed (gasUsed - redeemGas) dataGas

mutual

/-- What a transaction and all retries it gives rise to cost. -/
def Fate.cost : Fate → Nat
  | .invalid _ => txGas
  | .success gasUsed redeemGas dataGas scheduled =>
    computeUsed (gasUsed - redeemGas) dataGas + costs scheduled

def costs : List Fate → Nat
  | [] => 0
  | f :: fs => f.cost + costs fs

end

mutual

/-- The number of transactions in the tree. -/
def Fate.nodes : Fate → Nat
  | .invalid _ => 1
  | .success _ _ _ scheduled => nodes scheduled + 1

def nodes : List Fate → Nat
  | [] => 0
  | f :: fs => f.nodes + nodes fs

end

theorem Fate.cost_eq (f : Fate) : f.cost = f.charge + costs f.scheduled := by
  cases f with
  | invalid err => rfl
  | success gasUsed redeemGas dataGas scheduled => rw [cost]; rfl

theorem Fate.nodes_eq (f : Fate) : f.nodes = BlockProcessor.nodes f.scheduled + 1 := by
  cases f with
  | invalid err => rfl
  | success gasUsed redeemGas dataGas scheduled => rw [Fate.nodes]; rfl

variable (fs gs : List Fate)

theorem costs_append : costs (fs ++ gs) = costs fs + costs gs := by
  induction fs with
  | nil => rw [costs, Nat.zero_add, List.nil_append]
  | cons f fs ih => rw [List.cons_append, costs, costs, ih, Nat.add_assoc]

theorem nodes_append : nodes (fs ++ gs) = nodes fs + nodes gs := by
  induction fs with
  | nil => rw [nodes, Nat.zero_add, List.nil_append]
  | cons f fs ih => rw [List.cons_append, nodes, nodes, ih, Nat.add_assoc]

/-- After some transactions that are skipped as invalid. -/
def skipped (b : BlockGas) (n : Nat) : BlockGas :=
  { b with left := b.left - n * txGas, processed := b.processed + n }

section Choice

variable {α : Type}

/-- The user transactions the machine puts into the block. -/
def chosen : BlockGas → List (UserTx α) → List (Included α)
  | _, [] => []
  | b, u :: us =>
    if b.left < txGas then []
    else if b.Rejects u.computeGas then chosen (skipped b 1) us
    else
      match u.fate with
      | .invalid _ => chosen (skipped b 1) us
      | .success .. => ⟨u.tx, b.left, b.processed⟩ :: chosen ((b.spend u.fate.cost).count true) us

variable {version steps : Nat} {st : BlockProductionState Fate} {u : UserTx α} {us : List (UserTx α)}

theorem shouldReject_iff (computeGas : Nat) :
    st.shouldRejectForBlockGas computeGas true = true ↔ st.blockGas.Rejects computeGas := by
  unfold shouldRejectForBlockGas BlockGas.Rejects
  simp only [Bool.and_eq_true, decide_eq_true_eq, blockGas]
  tauto

theorem recorded_used (gasUsed dataGas : Nat) :
    (if dataGas ≤ gasUsed then
      if gasUsed - dataGas < txGas then txGas else gasUsed - dataGas
    else txGas) = computeUsed gasUsed dataGas := by
  unfold computeUsed
  by_cases hdata : dataGas ≤ gasUsed
  · rw [if_pos hdata, if_neg (Nat.not_lt.mpr hdata)]
    split <;> omega
  · rw [if_neg hdata, if_pos (Nat.not_le.mp hdata)]

theorem record_startBlock (st : BlockProductionState Fate) :
    st.recordTxOutcome (.executeStartBlock : TxAction Fate (UserTx α)) (.success ⟨0, 0, [], none⟩) =
      .ok { st with blockGasLeft := st.blockGasLeft - txGas } := by
  have hused : computeUsed 0 0 = txGas := by simp [computeUsed]
  simp only [recordTxOutcome, recorded_used, hused, List.append_nil]

theorem record_redeem (st : BlockProductionState Fate) (f : Fate) :
    st.recordTxOutcome (.executeRedeem f : TxAction Fate (UserTx α)) f.outcome =
      .ok { st with
        redeems := st.redeems ++ f.scheduled
        blockGasLeft := st.blockGasLeft - f.charge } := by
  cases f with
  | invalid err => simp [Fate.outcome, recordTxOutcome, Fate.scheduled, charge]
  | success gasUsed redeemGas dataGas scheduled =>
    simp only [Fate.outcome, recordTxOutcome, recorded_used, Fate.scheduled,
      charge]

theorem record_userTx (st : BlockProductionState Fate) (u : UserTx α) :
    st.recordTxOutcome (.executeUserTx u) u.fate.outcome =
      .ok { st with
        redeems := st.redeems ++ u.fate.scheduled
        blockGasLeft := st.blockGasLeft - u.fate.charge
        userTxsProcessed := st.userTxsProcessed + 1 } := by
  cases u.fate with
  | invalid err => simp [Fate.outcome, recordTxOutcome, Fate.scheduled, charge]
  | success gasUsed redeemGas dataGas scheduled =>
    simp only [Fate.outcome, recordTxOutcome, recorded_used, Fate.scheduled,
      charge]

/-- One redeem of the queue. -/
theorem drive_redeem {f : Fate} {fs : List Fate} (hstarted : st.startBlockProduced = true)
    (hqueue : st.redeems = f :: fs) :
    drive version (steps + 1) st us =
      drive version steps { st with
        redeems := fs ++ f.scheduled
        blockGasLeft := st.blockGasLeft - f.charge } us := by
  have hnext : st.nextTxAction us = (.executeRedeem f, { st with redeems := fs }, us) := by
    unfold nextTxAction
    rw [hstarted, if_neg (by simp), hqueue]
  rw [drive, hnext]
  dsimp only
  rw [record_redeem]
  rfl

/-- The queue is worked off; each redeem puts what it schedules behind it. -/
theorem drive_redeems (n : Nat) (st : BlockProductionState Fate)
    (hstarted : st.startBlockProduced = true) (hn : nodes st.redeems = n) :
    drive version (n + steps) st us =
      drive version steps { st with
        redeems := []
        blockGasLeft := st.blockGasLeft - costs st.redeems } us := by
  induction n generalizing st with
  | zero =>
    cases hqueue : st.redeems with
    | nil =>
      rw [Nat.zero_add, costs, Nat.sub_zero, ← hqueue]
    | cons f fs =>
      rw [hqueue, nodes, nodes_eq] at hn
      omega
  | succ n ih =>
    cases hqueue : st.redeems with
    | nil =>
      rw [hqueue, nodes] at hn
      cases hn
    | cons f fs =>
      rw [hqueue, nodes, nodes_eq] at hn
      have hrest : nodes (fs ++ f.scheduled) = n := by
        rw [nodes_append]
        omega
      rw [Nat.succ_add, drive_redeem hstarted hqueue, ih { st with
        redeems := fs ++ f.scheduled
        blockGasLeft := st.blockGasLeft - f.charge } hstarted hrest]
      have hcosts : st.blockGasLeft - f.charge - costs (fs ++ f.scheduled) =
          st.blockGasLeft - costs (f :: fs) := by
        rw [costs, cost_eq, costs_append]
        omega
      rw [hcosts]

/-- The next user transaction, with nothing queued. -/
theorem drive_userTx (hstarted : st.startBlockProduced = true) (hqueue : st.redeems = [])
    (hleft : ¬ st.blockGasLeft < txGas) :
    drive version (steps + 1) st (u :: us) =
      let outcome :=
        if st.shouldRejectForBlockGas u.computeGas true then .invalid "block gas limit reached"
        else u.fate.outcome
      (st.recordTxOutcome (.executeUserTx u) outcome).toOption.bind fun st' =>
        (drive version steps st' us).map (included st u.tx outcome ++ ·) := by
  have hnext : st.nextTxAction (u :: us) = (.executeUserTx u, st, us) := by
    unfold nextTxAction
    rw [hstarted, if_neg (by simp), hqueue]
    exact if_neg hleft
  rw [drive, hnext]

/-- The queue comes first, so that states without one are enough. -/
theorem drive_queued (hempty : ∀ st : BlockProductionState Fate, st.startBlockProduced = true →
      st.redeems = [] → ∃ enough, ∀ steps, drive version (enough + steps) st us =
        some (chosen st.blockGas us))
    (st : BlockProductionState Fate) (hstarted : st.startBlockProduced = true) :
    ∃ enough, ∀ steps, drive version (enough + steps) st us =
      some (chosen (st.blockGas.spend (costs st.redeems)) us) := by
  obtain ⟨enough, henough⟩ := hempty { st with
    redeems := []
    blockGasLeft := st.blockGasLeft - costs st.redeems } hstarted rfl
  refine ⟨nodes st.redeems + enough, fun steps => ?_⟩
  rw [Nat.add_assoc, drive_redeems _ st hstarted rfl, henough]
  rfl

/-- With enough steps the block is complete, and holds the chosen transactions. -/
theorem drive_ends (us : List (UserTx α)) (st : BlockProductionState Fate)
    (hstarted : st.startBlockProduced = true) (hqueue : st.redeems = []) :
    ∃ enough, ∀ steps, drive version (enough + steps) st us = some (chosen st.blockGas us) := by
  induction us generalizing st with
  | nil =>
    refine ⟨1, fun steps => ?_⟩
    have hnext : st.nextTxAction ([] : List (UserTx α)) = (.done, st, []) := by
      unfold nextTxAction
      rw [hstarted, if_neg (by simp), hqueue]
    rw [Nat.add_comm, drive, hnext]
    rfl
  | cons u us ih =>
    by_cases hleft : st.blockGas.left < txGas
    · refine ⟨1, fun steps => ?_⟩
      have hnext : st.nextTxAction (u :: us) = (.done, st, us) := by
        unfold nextTxAction
        rw [hstarted, if_neg (by simp), hqueue]
        exact if_pos hleft
      rw [Nat.add_comm, drive, hnext, chosen, if_pos hleft]
    by_cases hreject : st.blockGas.Rejects u.computeGas
    · obtain ⟨enough, henough⟩ := ih { st with
        blockGasLeft := st.blockGasLeft - txGas
        userTxsProcessed := st.userTxsProcessed + 1 } hstarted hqueue
      refine ⟨enough + 1, fun steps => ?_⟩
      rw [Nat.add_right_comm, drive_userTx hstarted hqueue hleft]
      rw [if_pos ((shouldReject_iff _).mpr hreject), chosen, if_neg hleft, if_pos hreject]
      show (drive version (enough + steps) _ us).map ([] ++ ·) = _
      rw [henough]
      simp [blockGas, skipped]
    · obtain ⟨enough, henough⟩ := drive_queued ih { st with
        redeems := st.redeems ++ u.fate.scheduled
        blockGasLeft := st.blockGasLeft - u.fate.charge
        userTxsProcessed := st.userTxsProcessed + 1 } hstarted
      refine ⟨enough + 1, fun steps => ?_⟩
      rw [Nat.add_right_comm, drive_userTx hstarted hqueue hleft]
      dsimp only
      rw [if_neg (mt (shouldReject_iff _).mp hreject), record_userTx, chosen, if_neg hleft,
        if_neg hreject]
      show (drive version (enough + steps) _ us).map _ = _
      rw [henough]
      -- What is left: the charge and the queue together are the cost of the tree.
      cases hfate : u.fate with
      | invalid err =>
        simp [Fate.outcome, included, blockGas, BlockGas.spend, skipped,
          hqueue, Fate.scheduled, charge, costs]
      | success gasUsed redeemGas dataGas scheduled =>
        simp [Fate.outcome, included, blockGas, BlockGas.spend,
          BlockGas.count, hqueue, cost_eq, Fate.scheduled, charge, Nat.sub_sub]

/-- A whole block, from the start that uses no gas. -/
theorem drive_block (us : List (UserTx α)) (limit version₀ version : Nat) :
    ∃ enough, ∀ steps, drive version (enough + steps) (.new limit version₀) us =
      some (chosen ⟨limit - txGas, 0, version⟩ us) := by
  obtain ⟨enough, henough⟩ := drive_ends us ⟨limit - txGas, [], true, 0, version⟩ rfl rfl
  refine ⟨enough + 1, fun steps => ?_⟩
  have hnext : (new limit version₀ : BlockProductionState Fate).nextTxAction us =
      (.executeStartBlock, ⟨limit, [], true, 0, version₀⟩, us) := rfl
  rw [Nat.add_right_comm, drive, hnext]
  dsimp only
  rw [record_startBlock]
  exact henough steps

end Choice

end Arbreth.BlockProcessor
