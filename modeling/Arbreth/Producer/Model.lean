/-
  The block producer and its persistence thread (arb-node, producer.rs and launcher.rs).

  The producer keeps the blocks that are not on disk yet in memory, and sends them to the
  persistence thread in flushes. The thread handles one request after the other and reports
  each flush through a channel of capacity one, which the producer polls. `step` performs one
  action of either party; every point at which one can see what the other did is an action of
  its own, so a list of actions is an interleaving.

  A block is named by its hash, which determines its number and its execution output. The
  hashed state of a block is an update of the hashed state (a wiped storage is one that sets
  all its slots). The ghost field `chain` is the current chain: the blocks numbered from one
  to the head.

  Left out: the trie nodes beside the hashed state, the overlay and prestate caches, finality
  markers, metrics, and the messages from which blocks are made. A closed request channel (the
  thread is gone) is not modelled.
-/
import Arbreth.Lib.Overlay
import Arbreth.Lib.Run

namespace Arbreth.Producer

open Arbreth.Lib

/-- What a block hash determines, and the settings of the node. -/
structure Params (Block K V : Type) where
  number : Block → Nat
  hashedState : Block → Update K V
  /-- `FlushScheduler::interval`. -/
  interval : Nat
  /-- `max_inflight()`. -/
  maxInflight : Nat

/-- `PersistenceRequest`. -/
inductive Request (Block : Type) where
  | flush (blocks : List Block)
  | unwind (target : Nat)

/-- `FlushResult`: a count of zero signals failure. -/
structure FlushResult (Block : Type) where
  last : Block
  count : Nat

/-- Where the producer is. It holds `produce_lock` everywhere but at `idle`. -/
inductive Pc where
  | idle
  /-- In the loop of `apply_backpressure`. -/
  | backpressure
  /-- At the start of `produce_block_with_execution`. -/
  | draining
  | executing
  /-- The block is in memory; a flush may be due. -/
  | committed
  /-- In `reset_to_block`: before its own drain, after it, and waiting for the unwind. -/
  | resetDrain (target : Nat)
  | resetTruncate (target : Nat)
  | awaitUnwind (target : Nat)
  deriving DecidableEq

/-- Where the blocks are, and what the two parties have told each other. -/
structure Core (Block : Type) where
  -- the producer
  headBlockNum : Nat
  memory : List Block
  pendingFlush : Bool
  pc : Pc
  -- the channels
  queue : List (Request Block)
  result : Option (FlushResult Block)
  unwound : Option Bool
  -- the persistence thread: the outcome it is about to send, and the blocks on disk
  finishing : Option (FlushResult Block)
  disk : List Block
  -- ghost
  chain : List Block

/-- The whole state: also the flush counter and the two trie inputs. -/
structure State (Block K V : Type) extends Core Block where
  blocksSinceFlush : Nat
  accumulated : Update K V
  flushing : Option (Update K V)

/-- Start-up: nothing in memory, the head is the last block on disk. -/
def State.startup {Block K V : Type} (disk : List Block) : State Block K V where
  headBlockNum := disk.length
  memory := []
  blocksSinceFlush := 0
  accumulated := .empty
  flushing := none
  pendingFlush := false
  pc := .idle
  queue := []
  result := none
  unwound := none
  finishing := none
  disk := disk
  chain := disk

section Steps

variable {Block K V : Type} [DecidableEq Block] (p : Params Block K V)

/-! ## The producer's functions -/

/-- `remove_persisted_blocks`: drops the blocks up to the given one if it is in memory. -/
def removePersistedBlocks (memory : List Block) (last : Block) : List Block :=
  if last ∈ memory then memory.filter (fun b => p.number last < p.number b) else memory

/-- A flush result is taken from the channel. Whether the flush succeeded is not looked at. -/
def collect (s : State Block K V) (r : FlushResult Block) : State Block K V :=
  { s with
    memory := removePersistedBlocks p s.memory r.last
    flushing := none
    pendingFlush := false
    result := none }

/-- `drain_completed_flush`, and the drain of `reset_to_block`. -/
def drainCompletedFlush (s : State Block K V) : State Block K V × Bool :=
  if s.pendingFlush = false then (s, false)
  else
    match s.result with
    | none => (s, false)
    | some r => (collect p s r, true)

/-- `start_async_flush`: all blocks in memory, and the accumulator moves to the flushing slot. -/
def startAsyncFlush (s : State Block K V) : State Block K V :=
  if s.memory = [] then s
  else
    { s with
      flushing := some s.accumulated
      accumulated := .empty
      blocksSinceFlush := 0
      pendingFlush := true
      queue := s.queue ++ [.flush s.memory] }

/-- `head_block_number`: a head of zero means the last block on disk. -/
def headBlockNumber (s : State Block K V) : Nat :=
  if 0 < s.headBlockNum then s.headBlockNum else s.disk.length

/-- `sealed_header_by_number_or_tag`: the genesis block, one on disk or one in memory. -/
def hasHeader (s : State Block K V) (number : Nat) : Bool :=
  number ≤ s.disk.length || s.memory.any fun b => p.number b = number

/-- The blocks below the next one: with a head of zero, those on disk. -/
def parentChain (s : State Block K V) : List Block :=
  if 0 < s.headBlockNum then s.chain else s.disk

/-- The effect of a successful `produce_block_with_execution`, up to the flush. -/
def commitBlock (s : State Block K V) (b : Block) : State Block K V :=
  { s with
    accumulated := s.accumulated.extend (p.hashedState b)
    memory := s.memory ++ [b]
    headBlockNum := p.number b
    blocksSinceFlush := s.blocksSinceFlush + 1
    chain := parentChain s ++ [b] }

/-- `save_blocks` on a disk that the blocks connect to. -/
def saveBlocks (disk blocks : List Block) : Option (List Block) :=
  match blocks.head?, blocks.getLast? with
  | some first, some last =>
    if p.number first ≤ disk.length + 1 then
      some (disk.take (p.number first - 1) ++ blocks ++ disk.drop (p.number last))
    else none
  | _, _ => none

/-! ## Actions -/

inductive Action (Block : Type) where
  /-- `produce_block` is called and takes the lock. -/
  | produce
  /-- One round of the backpressure loop. -/
  | pollFlush
  | drain
  /-- The execution succeeds with this block, or fails: before the state root, or after it,
      when the accumulator holds the block already. -/
  | commit (b : Block)
  | abort (root : Option Block)
  | finishProduce
  /-- `reset_to_block` is called. -/
  | reset (target : Nat)
  | drainForReset
  | truncate
  | unwoundSeen
  /-- The thread handles a flush, sends its outcome, handles an unwind. -/
  | save (ok : Bool)
  | send
  | unwind (ok : Bool)

/-- The producer's step. -/
def producerStep (s : State Block K V) : Action Block → Option (State Block K V)
  | .produce =>
    if s.pc ≠ .idle then none
    else if s.memory.length ≤ p.maxInflight then some { s with pc := .draining }
    else if s.pendingFlush then some { s with pc := .backpressure }
    else some { startAsyncFlush s with pc := .backpressure }
  | .pollFlush =>
    if s.pc ≠ .backpressure then none
    else
      let (s', drained) := drainCompletedFlush p s
      some { s' with pc := if drained then .draining else .backpressure }
  | .drain =>
    if s.pc ≠ .draining then none
    else some { (drainCompletedFlush p s).1 with pc := .executing }
  | .commit b =>
    -- `parent_header` fails where the head is found nowhere
    if s.pc ≠ .executing ∨ hasHeader p s (headBlockNumber s) = false ∨
        p.number b ≠ headBlockNumber s + 1 then none
    else some { commitBlock p s b with pc := .committed }
  | .abort root =>
    if s.pc ≠ .executing then none
    else some { s with
      accumulated := s.accumulated.extend (root.elim .empty p.hashedState)
      pc := .idle }
  | .finishProduce =>
    if s.pc ≠ .committed then none
    else if p.interval ≤ s.blocksSinceFlush ∧ s.pendingFlush = false then
      some { startAsyncFlush s with pc := .idle }
    else some { s with pc := .idle }
  | .reset target =>
    -- above the head is an error and the head itself is nothing to do; a block below it
    -- that is found nowhere is an error
    if s.pc ≠ .idle ∨ s.headBlockNum ≤ target ∨ hasHeader p s target = false then none
    else some { s with pc := .resetDrain target }
  | .drainForReset =>
    match s.pc with
    | .resetDrain target => some { (drainCompletedFlush p s).1 with pc := .resetTruncate target }
    | _ => none
  | .truncate =>
    match s.pc with
    | .resetTruncate target =>
      some { s with
        memory := s.memory.filter (fun b => p.number b ≤ target)
        headBlockNum := target
        queue := s.queue ++ [.unwind target]
        chain := s.chain.take target
        pc := .awaitUnwind target }
    | _ => none
  | .unwoundSeen =>
    match s.pc, s.unwound with
    | .awaitUnwind _, some true => some { s with unwound := none, accumulated := .empty, pc := .idle }
    | .awaitUnwind _, some false => some { s with unwound := none, pc := .idle }
    | _, _ => none
  | _ => none

/-- The persistence thread's step. A flush is reported before the next request is taken. -/
def threadStep (s : State Block K V) : Action Block → Option (State Block K V)
  | .save ok =>
    match s.queue, s.finishing with
    | .flush blocks :: rest, none =>
      match blocks.getLast?, ok with
      | some last, true =>
        match saveBlocks p s.disk blocks with
        | some disk =>
          some { s with queue := rest, disk := disk, finishing := some ⟨last, blocks.length⟩ }
        | none => none
      | some last, false => some { s with queue := rest, finishing := some ⟨last, 0⟩ }
      | none, _ => none
    | _, _ => none
  | .send =>
    match s.finishing, s.result with
    | some r, none => some { s with finishing := none, result := some r }
    | _, _ => none
  | .unwind ok =>
    match s.queue, s.finishing with
    | .unwind target :: rest, none =>
      some { s with
        queue := rest
        disk := if ok then s.disk.take target else s.disk
        unwound := some ok }
    | _, _ => none
  | _ => none

/-- One step of the system: an action belongs to one of the two. -/
def step (s : State Block K V) (a : Action Block) : Option (State Block K V) :=
  (producerStep p s a).or (threadStep p s a)

/-! ## What a step can do -/

/-- A drain finds nothing or collects a result. -/
inductive Drains (s : State Block K V) : State Block K V → Prop where
  | nothing (h : s.pendingFlush = false ∨ s.result = none) : Drains s s
  | collected (r : FlushResult Block) (hp : s.pendingFlush = true) (hr : s.result = some r) :
      Drains s (collect p s r)

/-- A flush is started or not. -/
inductive Flushes (s : State Block K V) : State Block K V → Prop where
  | skipped : Flushes s s
  | started (hp : s.pendingFlush = false) (hm : s.memory ≠ []) : Flushes s
      { s with
        flushing := some s.accumulated
        accumulated := .empty
        blocksSinceFlush := 0
        pendingFlush := true
        queue := s.queue ++ [.flush s.memory] }

/-- The moves of both parties. -/
inductive Move (s : State Block K V) : Action Block → State Block K V → Prop where
  | produce {s₁ : State Block K V} {pc : Pc} (hpc : s.pc = .idle) (hf : Flushes s s₁)
      (hpc' : pc = .draining ∨ pc = .backpressure) : Move s .produce { s₁ with pc := pc }
  | pollFlush {s₁ : State Block K V} {pc : Pc} (hpc : s.pc = .backpressure) (hd : Drains p s s₁)
      (hpc' : pc = .draining ∨ pc = .backpressure) : Move s .pollFlush { s₁ with pc := pc }
  | drain {s₁ : State Block K V} (hpc : s.pc = .draining) (hd : Drains p s s₁) :
      Move s .drain { s₁ with pc := .executing }
  | commit (b : Block) (hpc : s.pc = .executing) (hb : p.number b = headBlockNumber s + 1)
      (hparent : hasHeader p s (headBlockNumber s) = true) :
      Move s (.commit b) { commitBlock p s b with pc := .committed }
  | abort (root : Option Block) (hpc : s.pc = .executing) : Move s (.abort root)
      { s with accumulated := s.accumulated.extend (root.elim .empty p.hashedState), pc := .idle }
  | finishProduce {s₁ : State Block K V} (hpc : s.pc = .committed) (hf : Flushes s s₁) :
      Move s .finishProduce { s₁ with pc := .idle }
  | reset (target : Nat) (hpc : s.pc = .idle) (ht : target < s.headBlockNum)
      (hfound : hasHeader p s target = true) :
      Move s (.reset target) { s with pc := .resetDrain target }
  | drainForReset {s₁ : State Block K V} (target : Nat) (hpc : s.pc = .resetDrain target)
      (hd : Drains p s s₁) : Move s .drainForReset { s₁ with pc := .resetTruncate target }
  | truncate (target : Nat) (hpc : s.pc = .resetTruncate target) : Move s .truncate
      { s with
        memory := s.memory.filter (fun b => p.number b ≤ target)
        headBlockNum := target
        queue := s.queue ++ [.unwind target]
        chain := s.chain.take target
        pc := .awaitUnwind target }
  | unwoundSeen (target : Nat) (ok : Bool) (hpc : s.pc = .awaitUnwind target)
      (hu : s.unwound = some ok) : Move s .unwoundSeen
      { s with
        unwound := none
        accumulated := if ok then .empty else s.accumulated
        pc := .idle }
  | saveOk {blocks rest disk} {last : Block} (hq : s.queue = .flush blocks :: rest)
      (hf : s.finishing = none) (hl : blocks.getLast? = some last)
      (hs : saveBlocks p s.disk blocks = some disk) : Move s (.save true)
      { s with queue := rest, disk := disk, finishing := some ⟨last, blocks.length⟩ }
  | saveFailed {blocks rest} {last : Block} (hq : s.queue = .flush blocks :: rest)
      (hf : s.finishing = none) (hl : blocks.getLast? = some last) : Move s (.save false)
      { s with queue := rest, finishing := some ⟨last, 0⟩ }
  | send {r : FlushResult Block} (hf : s.finishing = some r) (hr : s.result = none) :
      Move s .send { s with finishing := none, result := some r }
  | unwind {target : Nat} {rest} (ok : Bool) (hq : s.queue = .unwind target :: rest)
      (hf : s.finishing = none) : Move s (.unwind ok)
      { s with
        queue := rest
        disk := if ok then s.disk.take target else s.disk
        unwound := some ok }

variable {p}

theorem drains_drainCompletedFlush (s : State Block K V) : Drains p s (drainCompletedFlush p s).1 := by
  unfold drainCompletedFlush
  by_cases hp : s.pendingFlush = false
  · rw [if_pos hp]
    exact .nothing (.inl hp)
  rw [if_neg hp]
  cases hr : s.result with
  | none => exact .nothing (.inr hr)
  | some r => exact .collected r (by simpa using hp) hr

omit [DecidableEq Block] in
theorem flushes_startAsyncFlush (s : State Block K V) (hp : s.pendingFlush = false) :
    Flushes s (startAsyncFlush s) := by
  unfold startAsyncFlush
  by_cases hm : s.memory = []
  · rw [if_pos hm]
    exact .skipped
  · rw [if_neg hm]
    exact .started hp hm

variable {s s' : State Block K V} {a : Action Block}

theorem producerStep_moves (h : producerStep p s a = some s') : Move p s a s' := by
  cases a with
  | produce =>
    simp only [producerStep, ne_eq, ite_not] at h
    split at h
    case isFalse => cases h
    case isTrue hpc =>
      split at h
      · cases h
        exact .produce hpc .skipped (.inl rfl)
      · split at h
        · cases h
          exact .produce hpc .skipped (.inr rfl)
        case isFalse hp =>
          cases h
          exact .produce hpc (flushes_startAsyncFlush s (by simpa using hp)) (.inr rfl)
  | pollFlush =>
    simp only [producerStep, ne_eq, ite_not] at h
    split at h
    case isFalse => cases h
    case isTrue hpc =>
      cases h
      refine .pollFlush hpc (drains_drainCompletedFlush s) ?_
      cases (drainCompletedFlush p s).2 with
      | true => exact .inl rfl
      | false => exact .inr rfl
  | drain =>
    simp only [producerStep, ne_eq, ite_not] at h
    split at h
    case isFalse => cases h
    case isTrue hpc =>
      cases h
      exact .drain hpc (drains_drainCompletedFlush s)
  | commit b =>
    simp only [producerStep] at h
    split at h
    case isTrue => cases h
    case isFalse hok =>
      cases h
      exact .commit b (by_contra fun hn => hok (.inl hn))
        (by_contra fun hn => hok (.inr (.inr hn)))
        (Bool.of_not_eq_false fun hn => hok (.inr (.inl hn)))
  | abort root =>
    simp only [producerStep, ne_eq, ite_not] at h
    split at h
    case isFalse => cases h
    case isTrue hpc =>
      cases h
      exact .abort root hpc
  | finishProduce =>
    simp only [producerStep, ne_eq, ite_not] at h
    split at h
    case isFalse => cases h
    case isTrue hpc =>
      split at h
      case isTrue hdue =>
        cases h
        exact .finishProduce hpc (flushes_startAsyncFlush s hdue.2)
      case isFalse =>
        cases h
        exact .finishProduce hpc .skipped
  | reset target =>
    simp only [producerStep] at h
    split at h
    case isTrue => cases h
    case isFalse hok =>
      cases h
      exact .reset target (by_contra fun hn => hok (.inl hn))
        (Nat.lt_of_not_le fun hn => hok (.inr (.inl hn)))
        (Bool.of_not_eq_false fun hn => hok (.inr (.inr hn)))
  | drainForReset =>
    simp only [producerStep] at h
    split at h
    case h_1 target hpc =>
      cases h
      exact .drainForReset target hpc (drains_drainCompletedFlush s)
    case h_2 => cases h
  | truncate =>
    simp only [producerStep] at h
    split at h
    case h_1 target hpc =>
      cases h
      exact .truncate target hpc
    case h_2 => cases h
  | unwoundSeen =>
    simp only [producerStep] at h
    split at h
    case h_1 target hpc hu =>
      cases h
      exact .unwoundSeen target true hpc hu
    case h_2 target hpc hu =>
      cases h
      exact .unwoundSeen target false hpc hu
    case h_3 => cases h
  | save | send | unwind => cases h

theorem threadStep_moves (h : threadStep p s a = some s') : Move p s a s' := by
  cases a with
  | save ok =>
    simp only [threadStep] at h
    split at h
    case h_2 => cases h
    case h_1 blocks rest hq hf =>
      split at h
      case h_1 last hl =>
        split at h
        case h_1 disk hs =>
          cases h
          exact .saveOk hq hf hl hs
        case h_2 => cases h
      case h_2 last hl =>
        cases h
        exact .saveFailed hq hf hl
      case h_3 => cases h
  | send =>
    simp only [threadStep] at h
    split at h
    case h_1 r hf hr =>
      cases h
      exact .send hf hr
    case h_2 => cases h
  | unwind ok =>
    simp only [threadStep] at h
    split at h
    case h_1 target rest hq hf =>
      cases h
      exact .unwind ok hq hf
    case h_2 => cases h
  | _ => cases h

theorem step_moves (h : step p s a = some s') : Move p s a s' := by
  rcases Option.or_eq_some_iff.mp h with h | ⟨-, h⟩
  · exact producerStep_moves h
  · exact threadStep_moves h

end Steps

end Arbreth.Producer
