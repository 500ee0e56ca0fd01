/-
  One call of `produce_block` (arb-node, producer.rs), with what the model of the two parties
  leaves out: the cached init message and the caches of the overlay and of the contracts.

  Everything the call reads from outside may fail and is an answer of `Env`: the provider, the
  execution of the block, the state root, the header info. The call changes the producer
  between these answers, and `attempt_error` says how far it has come when one of them is an
  error. What the flush in flight reports is an answer too; `settle` is the part of the call
  that collects it.

  The content of a block is what execution yields; the sealed block adds the state root and the
  header info. A coalesced overlay is an update of storage slots (a wiped account sets all of
  them). The provider shows the canonical chain, so the parent of the next block is the last
  block of the chain below the head.
-/
import Arbreth.Producer.Overlay

namespace Arbreth.Producer

open Arbreth.Lib

/-! ## The node -/

/-- What a block's content determines besides its hashed state. -/
structure NodeParams (Block K V S W H C : Type) extends Params Block K V where
  storage : Block → Update S W
  contracts : Block → Update H C

structure CachedOverlay (Block S W : Type) where
  parentHash : Option Block
  overlay : Update S W

structure CachedPrestate (Block H C : Type) where
  parentHash : Option Block
  contracts : Update H C

/-- The producer with its caches; the parent hash of genesis is `none`. -/
structure Node (Block K V S W H C I : Type) extends State Block K V where
  cachedInit : Option I
  cachedOverlay : Option (CachedOverlay Block S W)
  cachedPrestate : Option (CachedPrestate Block H C)

/-- `BlockProducerError`. -/
inductive BlockProducerError where
  | stateAccess (message : String)
  | storage (message : String)
  | execution (message : String)
  | unexpected (expected msgIdx : Nat)

/-- What the execution of a block reads from the producer. -/
structure ExecutionView (Block S W H C I Input : Type) where
  parent : Option Block
  overlay : Update S W
  contracts : Update H C
  init : Option I
  input : Input

/-- The answers a call gets: of the flush it waits for and the one that has arrived when it
    drains, of the provider, of execution (from the init message on to the augmented bundle),
    of the state root and of the header info. -/
structure Env (Block K V S W H C I Root Info Input : Type) where
  awaited : FlushResult Block
  arrived : Option (FlushResult Block)
  lastBlockNumber : Except String Unit
  parentHeader : Except String Unit
  parentState : Except String Unit
  baseFee : Except String Unit
  evmEnv : Except String Unit
  execute : ExecutionView Block S W H C I Input → Except String Block
  stateRoot : Update K V → Block → Except String Root
  headerInfo : Block → Except String Info

/-- `ProducedBlock`: the sealed block. -/
structure ProducedBlock (Block Root Info : Type) where
  content : Block
  stateRoot : Root
  info : Info

namespace Node

variable {Block K V S W H C I Root Info Input : Type} [DecidableEq Block]
  (p : NodeParams Block K V S W H C) (env : Env Block K V S W H C I Root Info Input)
  (n : Node Block K V S W H C I)

/-! ## The caches -/

/-- The parent of the next block. -/
def parent : Option Block := (parentChain n.toState).getLast?

/-- `state_by_hash(parent)`, `chain()`: the blocks in memory from the parent down. -/
def parentBlocks : List Block :=
  match parent n with
  | none => []
  | some b => if b ∈ n.memory then n.memory.filter (fun a => p.number a ≤ p.number b) else []

/-- What `get_or_build_overlay` returns; a parent outside memory needs no overlay. -/
def overlayView : Update S W :=
  if parentBlocks p n = [] then .empty
  else
    match n.cachedOverlay with
    | some c => if c.parentHash = parent n then c.overlay else .merged p.storage (parentBlocks p n)
    | none => .merged p.storage (parentBlocks p n)

/-- `get_or_build_overlay`, where it is called, leaves what it returns in the cache. -/
def cacheOverlay : Node Block K V S W H C I :=
  if parentBlocks p n = [] then n
  else { n with cachedOverlay := some ⟨parent n, overlayView p n⟩ }

/-- What `get_or_build_prestate` returns. -/
def prestateView : Update H C :=
  match n.cachedPrestate with
  | some c => if c.parentHash = parent n then c.contracts else .merged p.contracts (parentBlocks p n)
  | none => .merged p.contracts (parentBlocks p n)

/-- `get_or_build_prestate`. -/
def cachePrestate : Node Block K V S W H C I :=
  { n with cachedPrestate := some ⟨parent n, prestateView p n⟩ }

/-- `extend_cached_overlay`, `extend_cached_prestate`: a contract that is there already stays. -/
def extendCaches (b : Block) : Node Block K V S W H C I :=
  let overlay := (n.cachedOverlay.map (·.overlay)).getD .empty
  let contracts := (n.cachedPrestate.map (·.contracts)).getD .empty
  { n with
    cachedOverlay := some ⟨some b, overlay.extend (p.storage b)⟩
    cachedPrestate := some ⟨some b, (p.contracts b).extend contracts⟩ }

/-- A flush result is collected; both caches are dropped. -/
def collectFlush (s : State Block K V) (r : FlushResult Block) : Node Block K V S W H C I :=
  { toState := collect p.toParams s r
    cachedInit := n.cachedInit
    cachedOverlay := none
    cachedPrestate := none }

/-! ## The call -/

/-- `apply_backpressure`: above the limit it returns once a flush is collected. -/
def applyBackpressure : Node Block K V S W H C I :=
  if n.memory.length ≤ p.maxInflight then n
  else
    collectFlush p n (if n.pendingFlush then n.toState else startAsyncFlush n.toState) env.awaited

/-- `drain_completed_flush` at the start of the execution. -/
def drainNode : Node Block K V S W H C I :=
  if n.pendingFlush = false then n
  else
    match env.arrived with
    | none => n
    | some r => collectFlush p n n.toState r

/-- The flushes a call collects before it starts on the block. -/
def settle : Node Block K V S W H C I := drainNode p env (applyBackpressure p env n)

/-- `head_block_number`. -/
def headNumber : Except BlockProducerError Nat :=
  if 0 < n.headBlockNum then .ok n.headBlockNum
  else
    match env.lastBlockNumber with
    | .error message => .error (.stateAccess message)
    | .ok () => .ok n.disk.length

/-- `parent_header`. -/
def readParentHeader (head : Nat) : Except BlockProducerError Unit :=
  match env.parentHeader with
  | .error message => .error (.stateAccess message)
  | .ok () =>
    if hasHeader p.toParams n.toState head then .ok ()
    else .error (.stateAccess ("Parent block " ++ toString head ++ " not found"))

/-- The reads before the overlay: head number, parent header and state provider. -/
def openParent : Except BlockProducerError Unit :=
  match headNumber env n with
  | .error e => .error e
  | .ok head =>
    match readParentHeader p env n head with
    | .error e => .error e
    | .ok () =>
      match env.parentState with
      | .error message => .error (.stateAccess message)
      | .ok () => .ok ()

/-- The reads between the overlay and the init message: base fee and EVM environment. -/
def openEnv : Except BlockProducerError Unit :=
  match env.baseFee with
  | .error message => .error (.storage message)
  | .ok () =>
    match env.evmEnv with
    | .error message => .error (.execution message)
    | .ok () => .ok ()

/-- What execution gets to see. -/
def executionView (input : Input) : ExecutionView Block S W H C I Input :=
  ⟨parent n, overlayView p n, prestateView p n, n.cachedInit, input⟩

/-- The producer when execution starts: both caches filled, the init message taken. -/
def taken : Node Block K V S W H C I :=
  { cachePrestate p (cacheOverlay p n) with cachedInit := none }

/-- The producer when the state root is known. -/
def rooted (b : Block) : Node Block K V S W H C I :=
  { taken p n with accumulated := n.accumulated.extend (p.hashedState b) }

/-- `update_chain`, and the new head: the number of the block is one above the old one. -/
def updateChain (b : Block) : Node Block K V S W H C I :=
  { n with
    memory := n.memory ++ [b]
    chain := parentChain n.toState ++ [b]
    headBlockNum := headBlockNumber n.toState + 1 }

/-- `start_async_flush`. -/
def startFlush : Node Block K V S W H C I :=
  let blocks := n.memory
  if blocks = [] then n
  else
    let current := n.accumulated
    let n := { n with accumulated := .empty, flushing := some current }
    let n := { n with blocksSinceFlush := 0, pendingFlush := true }
    { n with queue := n.queue ++ [.flush blocks] }

/-- The end of `produce_block_with_execution`: the caches, the chain, the flush counter, and a
    flush if one is due and none is pending. -/
def finished (b : Block) : Node Block K V S W H C I :=
  let n := updateChain (extendCaches p (rooted p n b) b) b
  let n := { n with blocksSinceFlush := n.blocksSinceFlush + 1 }
  if p.interval ≤ n.blocksSinceFlush ∧ n.pendingFlush = false then startFlush n else n

/-- `produce_block_with_execution` after its drain. -/
def attempt (input : Input) :
    Node Block K V S W H C I × Except BlockProducerError (ProducedBlock Block Root Info) :=
  match openParent p env n with
  | .error e => (n, .error e)
  | .ok () =>
    match openEnv env with
    | .error e => (cacheOverlay p n, .error e)
    | .ok () =>
      match env.execute (executionView p n input) with
      | .error message => (taken p n, .error (.execution message))
      | .ok b =>
        match env.stateRoot (rootInput p.toParams n.toState b) b with
        | .error message => (taken p n, .error (.execution message))
        | .ok root =>
          match env.headerInfo b with
          | .error message => (rooted p n b, .error (.storage message))
          | .ok info => (finished p n b, .ok ⟨b, root, info⟩)

/-- `produce_block`. -/
def produceBlock (msgIdx : Nat) (input : Input) :
    Node Block K V S W H C I × Except BlockProducerError (ProducedBlock Block Root Info) :=
  match headNumber env n with
  | .error e => (n, .error e)
  | .ok head =>
    if head + 1 ≠ msgIdx then (n, .error (.unexpected (head + 1) msgIdx))
    else attempt p env (settle p env n) input

end Node

end Arbreth.Producer
