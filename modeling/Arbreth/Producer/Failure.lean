/-
  What a failed block production leaves behind.

  A call fails cleanly if it fails before the init message is taken, or had none to take, and
  before the accumulator is extended. Filling a cache does no harm: what the next call gets from
  it is what it would have built (`Alike.attempt`). `failed_production_iff` says that nothing
  else goes wrong: the calls that leave the producer as it was are exactly the clean ones.
-/
import Arbreth.Producer.Produce

namespace Arbreth.Producer.Node

open Arbreth.Lib

variable {Block K V S W H C I Root Info Input : Type} [DecidableEq Block]
  {p : NodeParams Block K V S W H C} {env : Env Block K V S W H C I Root Info Input}
  {n n' : Node Block K V S W H C I} {input : Input}

/-! ## Filling the caches -/

@[simp] theorem toState_cacheOverlay (p : NodeParams Block K V S W H C)
    (n : Node Block K V S W H C I) : (cacheOverlay p n).toState = n.toState := by
  unfold cacheOverlay
  split
  · rfl
  · rfl

theorem toState_taken (p : NodeParams Block K V S W H C) (n : Node Block K V S W H C I) :
    (taken p n).toState = n.toState := toState_cacheOverlay p n

theorem toState_rooted (p : NodeParams Block K V S W H C) (n : Node Block K V S W H C I) (b : Block) :
    (rooted p n b).toState =
      { n.toState with accumulated := n.accumulated.extend (p.hashedState b) } :=
  congrArg (fun s : State Block K V =>
    { s with accumulated := n.accumulated.extend (p.hashedState b) }) (toState_taken p n)

theorem parentBlocks_congr (h : n'.toState = n.toState) : parentBlocks p n' = parentBlocks p n := by
  unfold parentBlocks parent
  rw [h]

theorem overlayView_cacheOverlay (p : NodeParams Block K V S W H C)
    (n : Node Block K V S W H C I) : overlayView p (cacheOverlay p n) = overlayView p n := by
  have hblocks := parentBlocks_congr (p := p) (toState_cacheOverlay p n)
  by_cases hnone : parentBlocks p n = []
  · unfold overlayView
    rw [hblocks, if_pos hnone, if_pos hnone]
  · rw [overlayView, hblocks, if_neg hnone, cacheOverlay, if_neg hnone]
    exact if_pos rfl

theorem prestateView_cacheOverlay (p : NodeParams Block K V S W H C)
    (n : Node Block K V S W H C I) : prestateView p (cacheOverlay p n) = prestateView p n := by
  unfold cacheOverlay
  split
  · rfl
  · rfl

theorem prestateView_cachePrestate (p : NodeParams Block K V S W H C)
    (n : Node Block K V S W H C I) : prestateView p (cachePrestate p n) = prestateView p n := if_pos rfl

/-! ## Nodes that differ in what their caches hold -/

/-- The same producer up to caches that answer alike. -/
structure Alike (p : NodeParams Block K V S W H C) (n n' : Node Block K V S W H C I) : Prop where
  toState : n'.toState = n.toState
  cachedInit : n'.cachedInit = n.cachedInit
  overlay : overlayView p n' = overlayView p n
  prestate : prestateView p n' = prestateView p n

theorem Alike.refl (n : Node Block K V S W H C I) : Alike p n n := ⟨rfl, rfl, rfl, rfl⟩

theorem alike_cacheOverlay (p : NodeParams Block K V S W H C) (n : Node Block K V S W H C I) :
    Alike p n (cacheOverlay p n) where
  toState := toState_cacheOverlay p n
  cachedInit := by
    unfold cacheOverlay
    split
    · rfl
    · rfl
  overlay := overlayView_cacheOverlay p n
  prestate := prestateView_cacheOverlay p n

/-- Both caches filled and no init message to take. -/
theorem alike_taken (hinit : n.cachedInit = none) : Alike p n (taken p n) where
  toState := toState_taken p n
  cachedInit := hinit.symm
  overlay := overlayView_cacheOverlay p n
  prestate := (prestateView_cachePrestate p _).trans (prestateView_cacheOverlay p n)

theorem Alike.headNumber (h : Alike p n n') : headNumber env n' = headNumber env n := by
  unfold Node.headNumber
  rw [h.toState]

theorem Alike.executionView (h : Alike p n n') (input : Input) :
    executionView p n' input = executionView p n input := by
  unfold Node.executionView parent
  rw [h.toState, h.cachedInit, h.overlay, h.prestate]

theorem Alike.applyBackpressure (h : Alike p n n') :
    Alike p (applyBackpressure p env n) (applyBackpressure p env n') := by
  unfold Node.applyBackpressure collectFlush
  rw [h.toState, h.cachedInit]
  split
  · exact h
  · exact .refl _

theorem Alike.drainNode (h : Alike p n n') : Alike p (drainNode p env n) (drainNode p env n') := by
  unfold Node.drainNode collectFlush
  rw [h.toState, h.cachedInit]
  split
  · exact h
  · split
    · exact h
    · exact .refl _

theorem Alike.attempt (h : Alike p n n') (input : Input) :
    (attempt p env n' input).2 = (attempt p env n input).2 := by
  unfold Node.attempt openParent readParentHeader
  rw [h.headNumber, h.executionView, h.toState]
  repeat' split
  all_goals rfl

theorem Alike.produceBlock (h : Alike p n n') (msgIdx : Nat) (input : Input) :
    (produceBlock p env n' msgIdx input).2 = (produceBlock p env n msgIdx input).2 := by
  unfold Node.produceBlock
  rw [h.headNumber]
  split
  · rfl
  · split
    · rfl
    · exact h.applyBackpressure.drainNode.attempt input

/-! ## How far a failed call has come -/

/-- The call gets to the init message. -/
def ReachesInit (p : NodeParams Block K V S W H C) (env : Env Block K V S W H C I Root Info Input)
    (n : Node Block K V S W H C I) : Prop :=
  openParent p env n = .ok () ∧ openEnv env = .ok ()

/-- Execution yields a block and its state root is computed. -/
def ReachesRoot (p : NodeParams Block K V S W H C) (env : Env Block K V S W H C I Root Info Input)
    (n : Node Block K V S W H C I) (input : Input) (b : Block) : Prop :=
  env.execute (executionView p n input) = .ok b ∧
    ∃ root, env.stateRoot (rootInput p.toParams n.toState b) b = .ok root

/-- A failed attempt stops before the init message is taken, before the root or after it. -/
inductive Stops (p : NodeParams Block K V S W H C) (env : Env Block K V S W H C I Root Info Input)
    (n : Node Block K V S W H C I) (input : Input) : Node Block K V S W H C I → Prop
  | early (h : ¬ ReachesInit p env n) (n' : Node Block K V S W H C I) (halike : Alike p n n') :
      Stops p env n input n'
  | executing (h : ReachesInit p env n) (hroot : ∀ b, ¬ ReachesRoot p env n input b) :
      Stops p env n input (taken p n)
  | rooted (h : ReachesInit p env n) (b : Block) (hroot : ReachesRoot p env n input b) :
      Stops p env n input (rooted p n b)

theorem attempt_error {e : BlockProducerError} (h : attempt p env n input = (n', .error e)) :
    Stops p env n input n' := by
  unfold attempt at h
  split at h
  · next hopen =>
    cases h
    exact .early (fun hr => by rw [hr.1] at hopen; cases hopen) _ (.refl n)
  · next hopen =>
    split at h
    · next henv =>
      cases h
      exact .early (fun hr => by rw [hr.2] at henv; cases henv) _ (alike_cacheOverlay p n)
    · next henv =>
      have hinit : ReachesInit p env n := ⟨hopen, henv⟩
      split at h
      · next hexec =>
        cases h
        exact .executing hinit fun b hb => by rw [hb.1] at hexec; cases hexec
      · next b hexec =>
        split at h
        · next hroot =>
          cases h
          refine .executing hinit fun b' hb => ?_
          obtain ⟨hb, root, hok⟩ := hb
          cases hexec.symm.trans hb
          rw [hok] at hroot
          cases hroot
        · next root hroot =>
          split at h
          · cases h
            exact .rooted hinit b ⟨hexec, root, hroot⟩
          · cases h

/-! ## The call as moves of the producer -/

/-- A failed attempt is an `abort` of the two-party model: with the block in the accumulator if
    the root was known. -/
theorem Stops.abort (h : Stops p env n input n') :
    ∃ root, step p.toParams { n.toState with pc := .executing } (.abort root) =
      some { n'.toState with pc := .idle } := by
  cases h with
  | early _ _ halike => exact ⟨none, by rw [halike.toState]; rfl⟩
  | executing _ _ => exact ⟨none, by rw [toState_taken]; rfl⟩
  | rooted _ b _ => exact ⟨some b, by rw [toState_rooted]; rfl⟩

/-- `updateChain` and the flush counter, on the state the root left, are the commit. -/
theorem toState_updateChain (p : NodeParams Block K V S W H C) (n : Node Block K V S W H C I)
    {b : Block} (hnumber : p.number b = headBlockNumber n.toState + 1) :
    let m := updateChain (extendCaches p (rooted p n b) b) b
    { m.toState with blocksSinceFlush := m.blocksSinceFlush + 1 } =
      commitBlock p.toParams n.toState b := by
  have hrooted : (extendCaches p (rooted p n b) b).toState = (rooted p n b).toState := rfl
  unfold updateChain commitBlock
  rw [hnumber, hrooted, toState_rooted]
  rfl

omit [DecidableEq Block] in
theorem toState_startFlush (n : Node Block K V S W H C I) :
    (startFlush n).toState = startAsyncFlush n.toState := by
  unfold startFlush startAsyncFlush
  dsimp only
  split
  · rfl
  · rfl

theorem step_finishProduce (q : Params Block K V) (s : State Block K V) :
    step q { s with pc := .committed } .finishProduce =
      some { (if q.interval ≤ s.blocksSinceFlush ∧ s.pendingFlush = false then startAsyncFlush s
        else s) with pc := .idle } := by
  unfold step producerStep startAsyncFlush
  dsimp only
  rw [if_neg (not_not_intro rfl)]
  split
  · split
    · rfl
    · rfl
  · rfl

theorem toState_finished (p : NodeParams Block K V S W H C) (n : Node Block K V S W H C I)
    {b : Block} (hnumber : p.number b = headBlockNumber n.toState + 1) :
    (finished p n b).toState =
      if p.interval ≤ (commitBlock p.toParams n.toState b).blocksSinceFlush ∧
          (commitBlock p.toParams n.toState b).pendingFlush = false then
        startAsyncFlush (commitBlock p.toParams n.toState b)
      else commitBlock p.toParams n.toState b := by
  rw [← toState_updateChain p n hnumber]
  unfold finished
  dsimp only
  split
  · exact toState_startFlush _
  · rfl

omit [DecidableEq Block] in
theorem hasHeader_of_openParent (h : openParent p env n = .ok ()) :
    hasHeader p.toParams n.toState (headBlockNumber n.toState) = true := by
  unfold openParent at h
  cases hhead : headNumber env n with
  | error e =>
    rw [hhead] at h
    cases h
  | ok head =>
    have heq : head = headBlockNumber n.toState := by
      unfold headNumber at hhead
      unfold headBlockNumber
      split at hhead
      · next hpos =>
        rw [if_pos hpos]
        exact (Except.ok.inj hhead).symm
      · next hzero =>
        rw [if_neg hzero]
        cases hlast : env.lastBlockNumber with
        | error message =>
          rw [hlast] at hhead
          cases hhead
        | ok _ =>
          rw [hlast] at hhead
          exact (Except.ok.inj hhead).symm
    rw [hhead] at h
    dsimp only at h
    by_contra hnone
    unfold readParentHeader at h
    rw [heq, if_neg hnone] at h
    cases hread : env.parentHeader with
    | error message =>
      rw [hread] at h
      cases h
    | ok _ =>
      rw [hread] at h
      cases h

/-- An attempt that returns a block is a `commit` and the end of the production. -/
theorem attempt_ok {r : ProducedBlock Block Root Info} (h : attempt p env n input = (n', .ok r))
    (hnumber : p.number r.content = headBlockNumber n.toState + 1) :
    exec (step p.toParams) { n.toState with pc := .executing } [.commit r.content, .finishProduce] =
      some { n'.toState with pc := .idle } := by
  have hopened : openParent p env n = .ok () ∧ n' = finished p n r.content := by
    unfold attempt at h
    split at h
    · cases h
    next hopen =>
    split at h
    · cases h
    split at h
    · cases h
    split at h
    · cases h
    split at h
    · cases h
    · cases h
      exact ⟨hopen, rfl⟩
  have hparent : hasHeader p.toParams { n.toState with pc := .executing }
      (headBlockNumber { n.toState with pc := .executing }) = true :=
    hasHeader_of_openParent hopened.1
  have hcommit : step p.toParams { n.toState with pc := .executing } (.commit r.content) =
      some { commitBlock p.toParams n.toState r.content with pc := .committed } := by
    unfold step producerStep
    dsimp only
    rw [if_neg]
    · rfl
    · rintro (hpc | hnone | hne)
      · exact hpc rfl
      · rw [hparent] at hnone
        cases hnone
      · exact hne hnumber
  rw [hopened.2, toState_finished p n hnumber]
  exact exec_cons.mpr ⟨_, hcommit, exec_cons.mpr ⟨_, step_finishProduce _ _, rfl⟩⟩

/-- **An attempt refines the two-party model**, whatever its caches hold and wherever it fails. -/
theorem attempt_refines {r : Except BlockProducerError (ProducedBlock Block Root Info)}
    (h : attempt p env n input = (n', r))
    (hnumber : ∀ b, r = .ok b → p.number b.content = headBlockNumber n.toState + 1) :
    let moves := exec (step p.toParams) { n.toState with pc := .executing }
    match r with
    | .ok b => moves [.commit b.content, .finishProduce] = some { n'.toState with pc := .idle }
    | .error _ => ∃ root, moves [.abort root] = some { n'.toState with pc := .idle } := by
  cases r with
  | ok b => exact attempt_ok h (hnumber b rfl)
  | error e =>
    obtain ⟨root, habort⟩ := (attempt_error h).abort
    exact ⟨root, exec_cons.mpr ⟨_, habort, rfl⟩⟩

/-! ## The property and its condition -/

/-- The fields that make up the view of the chain. -/
structure SameView (p : NodeParams Block K V S W H C) (n n' : Node Block K V S W H C I) : Prop where
  head : n'.headBlockNum = n.headBlockNum
  memory : n'.memory = n.memory
  accumulated : n'.accumulated = n.accumulated
  flushing : n'.flushing = n.flushing
  cachedInit : n'.cachedInit = n.cachedInit
  overlay : overlayView p n' = overlayView p n
  prestate : prestateView p n' = prestateView p n

/-- The view is the same, and every later call of `produce_block` ends with the same result. -/
def Unharmed (Root Info Input : Type) (p : NodeParams Block K V S W H C)
    (n n' : Node Block K V S W H C I) : Prop :=
  SameView p n n' ∧
    ∀ (env : Env Block K V S W H C I Root Info Input) (msgIdx : Nat) (input : Input),
      (produceBlock p env n' msgIdx input).2 = (produceBlock p env n msgIdx input).2

/-- The index of the message is the expected one. -/
def Expected (env : Env Block K V S W H C I Root Info Input) (n : Node Block K V S W H C I)
    (msgIdx : Nat) : Prop :=
  ∃ head, headNumber env n = .ok head ∧ head + 1 = msgIdx

instance (env : Env Block K V S W H C I Root Info Input) (n : Node Block K V S W H C I)
    (msgIdx : Nat) : Decidable (Expected env n msgIdx) :=
  match h : headNumber env n with
  | .error e => isFalse fun ⟨_, hok, _⟩ => by rw [h] at hok; cases hok
  | .ok head => decidable_of_iff (head + 1 = msgIdx)
      ⟨fun heq => ⟨head, h, heq⟩, fun ⟨head', hok, heq⟩ => by rw [h] at hok; cases hok; exact heq⟩

/-- The producer before the call, flushes the call collects excepted. -/
def beforeCall (p : NodeParams Block K V S W H C) (env : Env Block K V S W H C I Root Info Input)
    (n : Node Block K V S W H C I) (msgIdx : Nat) : Node Block K V S W H C I :=
  if Expected env n msgIdx then settle p env n else n

/-- A call that gets to the init message finds none, and one that gets to the state root has a
    block whose hashed state the accumulator holds already. -/
def FailsCleanly (p : NodeParams Block K V S W H C) (env : Env Block K V S W H C I Root Info Input)
    (n : Node Block K V S W H C I) (msgIdx : Nat) (input : Input) : Prop :=
  Expected env n msgIdx → ReachesInit p env (settle p env n) →
    n.cachedInit = none ∧
      ∀ b, ReachesRoot p env (settle p env n) input b →
        (settle p env n).accumulated.extend (p.hashedState b) = (settle p env n).accumulated

theorem Alike.sameView (h : Alike p n n') : SameView p n n' where
  head := by rw [h.toState]
  memory := by rw [h.toState]
  accumulated := by rw [h.toState]
  flushing := by rw [h.toState]
  cachedInit := h.cachedInit
  overlay := h.overlay
  prestate := h.prestate

theorem Alike.unharmed (h : Alike p n n') : Unharmed Root Info Input p n n' :=
  ⟨h.sameView, fun _ msgIdx input => h.produceBlock msgIdx input⟩

theorem cachedInit_settle (p : NodeParams Block K V S W H C)
    (env : Env Block K V S W H C I Root Info Input) (n : Node Block K V S W H C I) :
    (settle p env n).cachedInit = n.cachedInit := by
  unfold settle drainNode applyBackpressure collectFlush
  repeat' split
  all_goals rfl

theorem rooted_eq_taken {b : Block}
    (h : n.accumulated.extend (p.hashedState b) = n.accumulated) : rooted p n b = taken p n := by
  have hacc : (taken p n).accumulated = n.accumulated := by rw [toState_taken]
  unfold rooted
  rw [h, ← hacc]

/-- One attempt: the producer is unharmed exactly if the attempt stops cleanly. -/
theorem Stops.unharmed_iff (h : Stops p env n input n') :
    Unharmed Root Info Input p n n' ↔ (ReachesInit p env n → n.cachedInit = none ∧
      ∀ b, ReachesRoot p env n input b →
        n.accumulated.extend (p.hashedState b) = n.accumulated) := by
  cases h with
  | early hinit _ halike => exact iff_of_true halike.unharmed fun hr => absurd hr hinit
  | executing hinit hroot =>
    constructor
    · intro hu _
      exact ⟨hu.1.cachedInit.symm, fun b hb => absurd hb (hroot b)⟩
    · intro hclean
      exact (alike_taken (hclean hinit).1).unharmed
  | rooted hinit b hroot =>
    constructor
    · intro hu _
      refine ⟨hu.1.cachedInit.symm, fun b' hb' => ?_⟩
      cases hroot.1.symm.trans hb'.1
      exact hu.1.accumulated
    · intro hclean
      obtain ⟨hnone, hacc⟩ := hclean hinit
      rw [rooted_eq_taken (hacc b hroot)]
      exact (alike_taken hnone).unharmed

/-- A call of `produce_block` that returns an error leaves the producer as it was, collected
    flushes excepted, exactly if it fails cleanly. -/
theorem failed_production_iff (p : NodeParams Block K V S W H C)
    (env : Env Block K V S W H C I Root Info Input) (n n' : Node Block K V S W H C I) (msgIdx : Nat)
    (input : Input) (e : BlockProducerError)
    (herror : produceBlock p env n msgIdx input = (n', .error e)) :
    Unharmed Root Info Input p (beforeCall p env n msgIdx) n' ↔
      FailsCleanly p env n msgIdx input := by
  unfold beforeCall FailsCleanly
  by_cases hexpected : Expected env n msgIdx
  · rw [if_pos hexpected]
    obtain ⟨head, hhead, hindex⟩ := hexpected
    have hattempt : attempt p env (settle p env n) input = (n', .error e) := by
      unfold produceBlock at herror
      rw [hhead] at herror
      dsimp only at herror
      rwa [if_neg (not_not_intro hindex)] at herror
    rw [(attempt_error hattempt).unharmed_iff, cachedInit_settle]
    exact ⟨fun h _ => h, fun h => h ⟨head, hhead, hindex⟩⟩
  · rw [if_neg hexpected]
    have hsame : n' = n := by
      unfold produceBlock at herror
      split at herror
      · cases herror
        rfl
      · next head hhead =>
        split at herror
        · cases herror
          rfl
        · next hindex => exact absurd ⟨head, hhead, of_not_not hindex⟩ hexpected
    rw [hsame]
    exact iff_of_true (Alike.refl n).unharmed fun h => absurd h hexpected

/-! ## A node that runs, and failures -/

/-- A block content is its number and the key its state sets. -/
def sampleParams : NodeParams (Nat × Nat) Nat Nat Unit Nat Unit Nat where
  number b := b.1
  hashedState b := fun k => if k = b.2 then some 1 else none
  interval := 2
  maxInflight := 512
  storage _ := .empty
  contracts _ := .empty

/-- A node without blocks. -/
def sampleNode (init : Option Nat) : Node (Nat × Nat) Nat Nat Unit Nat Unit Nat Nat where
  toState := State.startup []
  cachedInit := init
  cachedOverlay := none
  cachedPrestate := none

/-- A node with one block on disk and one in memory, whose caches are filled. -/
def runningNode : Node (Nat × Nat) Nat Nat Unit Nat Unit Nat Nat where
  toState := { (State.startup [(1, 3)] : State (Nat × Nat) Nat Nat) with
    headBlockNum := 2
    memory := [(2, 7)]
    blocksSinceFlush := 1
    accumulated := sampleParams.hashedState (2, 7)
    chain := [(1, 3), (2, 7)] }
  cachedInit := none
  cachedOverlay := some ⟨some (2, 7), .empty⟩
  cachedPrestate := some ⟨some (2, 7), .empty⟩

/-- The block sets the key of the init message if there is one, else the input's. The root is
    the value of the keys 7 and 8. -/
def sampleEnv (execution header : Except String Unit) :
    Env (Nat × Nat) Nat Nat Unit Nat Unit Nat Nat (Option Nat × Option Nat) Unit Nat where
  awaited := ⟨(0, 0), 0⟩
  arrived := none
  lastBlockNumber := .ok ()
  parentHeader := .ok ()
  parentState := .ok ()
  baseFee := .ok ()
  evmEnv := .ok ()
  execute view := execution.map fun _ => (view.parent.elim 1 (·.1 + 1), view.init.getD view.input)
  stateRoot overlay _ := .ok (overlay 7, overlay 8)
  headerInfo _ := header

/-- Block 3 goes to memory, and a flush of both blocks starts. -/
theorem attempt_refines_third :
    ∃ s, exec (step sampleParams.toParams) { runningNode.toState with pc := .executing }
        [.commit (3, 8), .finishProduce] = some s ∧
      s.headBlockNum = 3 ∧ s.memory = [(2, 7), (3, 8)] ∧ s.blocksSinceFlush = 0 ∧
      s.pendingFlush = true ∧ s.queue.length = 1 ∧ s.accumulated 8 = none ∧
      (s.flushing.getD .empty) 7 = some 1 ∧ (s.flushing.getD .empty) 8 = some 1 := by
  have h : attempt sampleParams (sampleEnv (.ok ()) (.ok ())) runningNode 8 =
    (_, .ok ⟨(3, 8), (some 1, some 1), ()⟩) := rfl
  exact ⟨_, attempt_refines h fun b hb => by cases hb; rfl, rfl, rfl, rfl, rfl, rfl, rfl, rfl, rfl⟩

/-- A failed StartBlock transaction without an init message is a clean failure. -/
theorem failed_production_start_block :
    ∃ n' e, produceBlock sampleParams (sampleEnv (.error "StartBlock") (.ok ())) runningNode 3 8 =
        (n', .error e) ∧
      Unharmed (Option Nat × Option Nat) Unit Nat sampleParams
        (beforeCall sampleParams (sampleEnv (.error "StartBlock") (.ok ())) runningNode 3) n' := by
  refine ⟨_, _, rfl, (failed_production_iff sampleParams _ runningNode _ 3 8 _ rfl).mpr ?_⟩
  intro _ _
  refine ⟨rfl, fun b hb => ?_⟩
  cases hb.1

/-- The same failure with an init message loses it: the next call builds another block. A failed
    read of the header info leaves the block in the accumulator: the next call, for another
    message, gets a state root with both. -/
theorem failed_production_leaves_traces :
    (∃ n' e, produceBlock sampleParams (sampleEnv (.error "StartBlock") (.ok ())) (sampleNode (some 7))
        1 8 = (n', .error e) ∧
      ¬ Unharmed (Option Nat × Option Nat) Unit Nat sampleParams
        (beforeCall sampleParams (sampleEnv (.error "StartBlock") (.ok ())) (sampleNode (some 7)) 1) n' ∧
      (produceBlock sampleParams (sampleEnv (.ok ()) (.ok ())) (sampleNode (some 7)) 1 8).2 =
        .ok ⟨(1, 7), (some 1, none), ()⟩ ∧
      (produceBlock sampleParams (sampleEnv (.ok ()) (.ok ())) n' 1 8).2 =
        .ok ⟨(1, 8), (none, some 1), ()⟩) ∧
    ∃ n' e, produceBlock sampleParams (sampleEnv (.ok ()) (.error "storage")) (sampleNode none) 1 7 =
        (n', .error e) ∧
      ¬ Unharmed (Option Nat × Option Nat) Unit Nat sampleParams
        (beforeCall sampleParams (sampleEnv (.ok ()) (.error "storage")) (sampleNode none) 1) n' ∧
      (produceBlock sampleParams (sampleEnv (.ok ()) (.ok ())) n' 1 8).2 =
        .ok ⟨(1, 8), (some 1, some 1), ()⟩ := by
  refine ⟨⟨_, _, rfl, fun h => ?_, rfl, rfl⟩, _, _, rfl, fun h => ?_, rfl⟩
  · exact absurd h.1.cachedInit (by decide)
  · exact absurd (congrFun h.1.accumulated 7) (by decide)

end Arbreth.Producer.Node
