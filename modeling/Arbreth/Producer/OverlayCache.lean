/-
  The cached overlay of the producer and its storage reads (arb-node, producer.rs:
  get_or_build_overlay, extend_cached_overlay; coalesced_state.rs: CoalescedStateProvider).

  The producer keeps one coalesced overlay under the hash of the block it belongs to. A block
  that is produced extends whatever overlay is there, a collected flush and a rollback drop it,
  and a reset's own drain keeps it for a moment although blocks leave memory. The invariant of
  all runs, also those in which saves, unwinds and block productions fail: the overlay belongs to
  the head and merges the chain from some height on. The height need not be where memory begins.
  A read asks the overlay first and the provider's state at the parent next, so what is merged
  twice does no harm (`Update.lay_overlap`).

  `providerState` is the state the provider shows at the parent, a walk over the blocks in memory
  on the disk's state below them. It is the state of the chain in every run that collects no
  failed flush while its blocks are in memory.
-/
import Arbreth.Producer.Coalesced
import Arbreth.Producer.NoLoss

namespace Arbreth.Producer

open Arbreth.Lib Arbreth.Coalesced Update

/-! ## The cache -/

/-- `CachedOverlay`. -/
structure OverlayEntry (Block : Type) where
  parentHash : Block
  overlay : CoalescedOverlay

/-- The producer with its cached overlay. -/
structure OverlayNode (Block K V : Type) extends State Block K V where
  cachedOverlay : Option (OverlayEntry Block)

def OverlayNode.startup {Block K V : Type} (disk : List Block) : OverlayNode Block K V where
  toState := .startup disk
  cachedOverlay := none

section Steps

variable {Block K V : Type} [DecidableEq Block] (p : Params Block K V) (bundle : Block → BundleState)

/-- `state_by_hash`, `chain()`: the blocks in memory from this one down, oldest first. -/
def memoryChain (s : State Block K V) (b : Block) : List Block :=
  s.memory.filter fun a => p.number a ≤ p.number b

/-- `get_or_build_overlay`. -/
def getOrBuildOverlay (n : OverlayNode Block K V) (parent : Block) : CoalescedOverlay :=
  let built := CoalescedOverlay.fromChain ((memoryChain p n.toState parent).reverse.map bundle)
  match n.cachedOverlay with
  | some c => if c.parentHash = parent then c.overlay else built
  | none => built

/-- The overlay a production reads through, which it asks for if the parent is in memory. -/
def openOverlay (n : OverlayNode Block K V) : Option (OverlayEntry Block) :=
  match (parentChain n.toState).getLast? with
  | some b => if b ∈ n.memory then some ⟨b, getOrBuildOverlay p bundle n b⟩ else none
  | none => none

/-- What is cached once the overlay was asked for. -/
def cacheOpened (n : OverlayNode Block K V) : Option (OverlayEntry Block) :=
  (openOverlay p bundle n).or n.cachedOverlay

/-- `extend_cached_overlay`. -/
def extendCachedOverlay (cache : Option (OverlayEntry Block)) (b : Block) : OverlayEntry Block :=
  let overlay := match cache with
    | some c => c.overlay
    | none => .empty
  ⟨b, overlay.extendWithBlock (bundle b)⟩

/-- The cache after an action. A production that fails before its state root may have asked for
    the overlay or not. -/
def cacheAfter (n : OverlayNode Block K V) (opened : Bool) :
    Action Block → Option (OverlayEntry Block)
  | .pollFlush => if (drainCompletedFlush p n.toState).2 then none else n.cachedOverlay
  | .drain => if (drainCompletedFlush p n.toState).2 then none else n.cachedOverlay
  | .commit b => some (extendCachedOverlay bundle (cacheOpened p bundle n) b)
  | .abort root => if opened ∨ root.isSome then cacheOpened p bundle n else n.cachedOverlay
  | .truncate => none
  | _ => n.cachedOverlay

/-- One step of the producer or of its persistence thread. -/
def overlayStep (n : OverlayNode Block K V) (a : Action Block × Bool) :
    Option (OverlayNode Block K V) :=
  (step p n.toState a.1).map fun s => ⟨s, cacheAfter p bundle n a.2 a.1⟩

/-! ## Reads -/

/-- `CoalescedStateProvider::storage`, over the provider's answers at the parent. -/
def storageRead (n : OverlayNode Block K V) (inner : Address → B256 → Option U256)
    (address : Address) (key : B256) : Option U256 :=
  match openOverlay p bundle n with
  | none => inner address key
  | some c =>
    if c.overlay.isEmpty then inner address key
    else
      match c.overlay.lookup address key with
      | some value => some value
      | none => inner address key

/-- Storage after the bundles of some blocks. -/
def storageAfter (genesis : Address × B256 → U256) (blocks : List Block) : Address × B256 → U256 :=
  layAll (fun b => storageUpdate (bundle b)) genesis blocks

/-- The state the provider shows at the parent: a walk over the blocks in memory, on the disk's
    state at the block below them. None if that block, or the parent, is found nowhere. -/
def providerState (genesis : Address × B256 → U256) (s : State Block K V) :
    Option (Address × B256 → U256) :=
  match (parentChain s).getLast? with
  | none => some genesis
  | some b =>
    if b ∈ s.memory then
      match (memoryChain p s b).head? with
      | some first =>
        if p.number first ≤ s.disk.length + 1 then
          let historical := storageAfter bundle genesis (s.disk.take (p.number first - 1))
          some fun k =>
            (walk ((memoryChain p s b).reverse.map bundle) k.1 k.2).getD (historical k)
        else none
      | none => none
    else if s.disk[p.number b - 1]? = some b then
      some (storageAfter bundle genesis (s.disk.take (p.number b)))
    else none

end Steps

/-! ## The overlay belongs to the head -/

section Cache

variable {Block K V : Type} (bundle : Block → BundleState)

/-- The overlay merges the end of the chain. -/
def MergesEnd (chain : List Block) (e : OverlayEntry Block) : Prop :=
  chain.getLast? = some e.parentHash ∧ ∃ k ≤ chain.length,
    e.overlay.update = merged (fun b => storageUpdate (bundle b)) (chain.drop k)

variable {bundle} {p : Params Block K V} {n n' : OverlayNode Block K V} {lo : Nat}

theorem parentChain_of_ne {s : State Block K V} (hsteady : Steady p s.toCore lo) (h : s.chain ≠ []) :
    parentChain s = s.chain := by
  have hpos := List.length_pos_of_ne_nil h
  unfold parentChain
  rw [if_pos (by rw [hsteady.head_eq]; exact hpos)]

variable (blocks : List Block) {chain : List Block} (genesis : Address × B256 → U256)
  {actions : List (Action Block × Bool)} {a : Action Block} {e : OverlayEntry Block}

theorem MergesEnd.ne_nil (h : MergesEnd bundle chain e) : chain ≠ [] := by
  rintro rfl
  cases h.1

theorem merged_map :
    merged storageUpdate (blocks.map bundle) =
      merged (fun b => storageUpdate (bundle b)) blocks := by
  unfold merged
  rw [List.foldl_map]

theorem MergesEnd.extend {overlay : CoalescedOverlay} {k : Nat} (hk : k ≤ chain.length)
    (h : overlay.update = merged (fun b => storageUpdate (bundle b)) (chain.drop k)) (b : Block) :
    MergesEnd bundle (chain ++ [b]) ⟨b, overlay.extendWithBlock (bundle b)⟩ := by
  refine ⟨List.getLast?_concat, k, Nat.le_trans hk (by simp), ?_⟩
  rw [List.drop_append_of_le_length hk, merged_append, merged_singleton, ← h]
  exact update_extendWithBlock overlay (bundle b)

/-- Where memory is the end of the chain, the head's chain in memory is all of it. -/
theorem memoryChain_head {s : State Block K V} {b : Block} (hchain : Numbered p.number 0 s.chain)
    (hlo : lo ≤ s.chain.length) (hmemory : s.memory = s.chain.drop lo)
    (hb : s.chain.getLast? = some b) : memoryChain p s b = s.chain.drop lo := by
  have hnum : p.number b = s.chain.length := by
    rw [hchain.getLast? hb, Nat.zero_add]
  have hdrop : Numbered p.number lo (s.chain.drop lo) := by
    simpa using hchain.drop hlo
  unfold memoryChain
  rw [hmemory, hdrop.filter_le, hnum, List.take_of_length_le]
  rw [List.length_drop]

variable [DecidableEq Block]

/-- The overlay of a production merges the end of its parent's chain. -/
theorem openOverlay_merges (hsteady : Steady p n.toCore lo)
    (hcache : ∀ e ∈ n.cachedOverlay, MergesEnd bundle n.chain e)
    (h : openOverlay p bundle n = some e) : MergesEnd bundle n.chain e := by
  unfold openOverlay at h
  cases hlast : (parentChain n.toState).getLast? with
  | none =>
    rw [hlast] at h
    cases h
  | some b =>
    rw [hlast] at h
    dsimp only at h
    by_cases hmem : b ∈ n.memory
    · rw [if_pos hmem] at h
      cases h
      have hne : n.chain ≠ [] := by
        intro hnil
        rw [hsteady.memory_eq, hnil, List.drop_nil] at hmem
        cases hmem
      rw [parentChain_of_ne hsteady hne] at hlast
      have hbuilt : (CoalescedOverlay.fromChain
          ((memoryChain p n.toState b).reverse.map bundle)).update =
            merged (fun b => storageUpdate (bundle b)) (n.chain.drop lo) := by
        rw [update_fromChain, ← List.map_reverse, List.reverse_reverse, merged_map,
          memoryChain_head hsteady.1 hsteady.lo_le hsteady.memory_eq hlast]
      refine ⟨hlast, ?_⟩
      unfold getOrBuildOverlay
      cases hcached : n.cachedOverlay with
      | none => exact ⟨lo, hsteady.lo_le, hbuilt⟩
      | some c =>
        dsimp only
        split
        · exact (hcache c hcached).2
        · exact ⟨lo, hsteady.lo_le, hbuilt⟩
    · rw [if_neg hmem] at h
      cases h

theorem cacheOpened_merges (hsteady : Steady p n.toCore lo)
    (hcache : ∀ e ∈ n.cachedOverlay, MergesEnd bundle n.chain e) :
    ∀ e ∈ cacheOpened p bundle n, MergesEnd bundle n.chain e := by
  intro e he
  rcases Option.or_eq_some_iff.mp he with he | ⟨-, he⟩
  · exact openOverlay_merges hsteady hcache he
  · exact hcache e he

/-- The block on top of its parent's chain extends whatever overlay is cached. -/
theorem extendCached_merges (hsteady : Steady p n.toCore lo)
    (hcache : ∀ e ∈ n.cachedOverlay, MergesEnd bundle n.chain e) (b : Block) :
    MergesEnd bundle (parentChain n.toState ++ [b])
      (extendCachedOverlay bundle (cacheOpened p bundle n) b) := by
  cases hopened : cacheOpened p bundle n with
  | none =>
    refine MergesEnd.extend (Nat.le_refl _) ?_ b
    rw [List.drop_length]
    rfl
  | some e =>
    have hmerges := cacheOpened_merges hsteady hcache e hopened
    obtain ⟨-, k, hk, hupdate⟩ := id hmerges
    rw [parentChain_of_ne hsteady hmerges.ne_nil]
    exact MergesEnd.extend hk hupdate b

/-- Only a new block and a rollback change the chain. -/
theorem chain_move {s s' : State Block K V} (hm : Move p s a s') (hcommit : ∀ b, a ≠ .commit b)
    (htruncate : a ≠ .truncate) : s'.chain = s.chain := by
  cases hm with
  | produce hpc hf hpc' =>
    cases hf with
    | skipped => rfl
    | started => rfl
  | pollFlush hpc hd hpc' =>
    cases hd with
    | nothing => rfl
    | collected => rfl
  | drain hpc hd =>
    cases hd with
    | nothing => rfl
    | collected => rfl
  | commit b hpc hb => exact absurd rfl (hcommit b)
  | finishProduce hpc hf =>
    cases hf with
    | skipped => rfl
    | started => rfl
  | drainForReset target hpc hd =>
    cases hd with
    | nothing => rfl
    | collected => rfl
  | truncate target hpc => exact absurd rfl htruncate
  | abort | reset | unwoundSeen | saveOk | saveFailed | send | unwind => rfl

/-- Without a new block, what is cached afterwards was cached or opened. -/
theorem cacheAfter_kept {opened : Bool} (h : cacheAfter p bundle n opened a = some e)
    (hcommit : ∀ b, a ≠ .commit b) : e ∈ n.cachedOverlay ∨ e ∈ cacheOpened p bundle n := by
  have hdrained : (if (drainCompletedFlush p n.toState).2 = true then none else n.cachedOverlay) =
      some e → e ∈ n.cachedOverlay := by
    intro h
    split at h
    · cases h
    · exact h
  cases a with
  | pollFlush => exact .inl (hdrained h)
  | drain => exact .inl (hdrained h)
  | commit b => exact absurd rfl (hcommit b)
  | abort root =>
    have habort : (if opened = true ∨ root.isSome = true then cacheOpened p bundle n
      else n.cachedOverlay) = some e := h
    split at habort
    · exact .inr habort
    · exact .inl habort
  | truncate => cases h
  | produce | finishProduce | reset | drainForReset | unwoundSeen | save | send | unwind =>
    exact .inl h

/-- Each step of the producer and of its thread keeps the cached overlay at the head. -/
theorem overlayStep_merges {a : Action Block × Bool} (hsteady : Steady p n.toCore lo)
    (hcache : ∀ e ∈ n.cachedOverlay, MergesEnd bundle n.chain e)
    (h : overlayStep p bundle n a = some n') :
    (∃ lo', Steady p n'.toCore lo') ∧ ∀ e ∈ n'.cachedOverlay, MergesEnd bundle n'.chain e := by
  obtain ⟨a, opened⟩ := a
  obtain ⟨s', hs', rfl⟩ := Option.map_eq_some_iff.mp h
  have hmove := step_moves hs'
  refine ⟨hsteady.move hmove, fun e he => ?_⟩
  by_cases hcommit : ∃ b, a = .commit b
  · obtain ⟨b, rfl⟩ := hcommit
    cases hmove with
    | commit _ hpc hb =>
      cases he
      exact extendCached_merges hsteady hcache b
  · have hcommit' : ∀ b, a ≠ .commit b := fun b hb => hcommit ⟨b, hb⟩
    have htruncate : a ≠ .truncate := by
      rintro rfl
      cases he
    have hchain : s'.chain = n.chain := chain_move hmove hcommit' htruncate
    rw [hchain]
    rcases cacheAfter_kept he hcommit' with he | he
    · exact hcache e he
    · exact cacheOpened_merges hsteady hcache e he

/-- In every reachable state the cached overlay merges the end of the chain. -/
theorem cache_reachable {disk : List Block} (hdisk : Numbered p.number 0 disk)
    (hrun : exec (overlayStep p bundle) (OverlayNode.startup disk) actions = some n) :
    (∃ lo, Steady p n.toCore lo) ∧ ∀ e ∈ n.cachedOverlay, MergesEnd bundle n.chain e := by
  have hstep : ∀ (n : OverlayNode Block K V) (a : Action Block × Bool) (n' : OverlayNode Block K V),
      ((∃ lo, Steady p n.toCore lo) ∧ ∀ e ∈ n.cachedOverlay, MergesEnd bundle n.chain e) →
      overlayStep p bundle n a = some n' →
        (∃ lo, Steady p n'.toCore lo) ∧ ∀ e ∈ n'.cachedOverlay, MergesEnd bundle n'.chain e :=
    fun n a n' ⟨⟨lo, hsteady⟩, hcache⟩ h => overlayStep_merges hsteady hcache h
  refine exec_invariant_all hstep ⟨⟨_, (inv_startup hdisk).steady⟩, ?_⟩ hrun
  intro e he
  cases he

/-! ## Reads -/

omit [DecidableEq Block] in
/-- A read through an overlay of the end of the chain changes nothing. -/
theorem getD_lookup_merges (h : MergesEnd bundle chain e) (address : Address) (key : B256) :
    (e.overlay.lookup address key).getD (storageAfter bundle genesis chain (address, key)) =
      storageAfter bundle genesis chain (address, key) := by
  obtain ⟨-, k, hk, hupdate⟩ := h
  have hlay : lay (storageAfter bundle genesis chain) e.overlay.update =
      storageAfter bundle genesis chain := by
    have hoverlap := lay_overlap (f := fun b => storageUpdate (bundle b)) genesis chain hk
    rw [List.take_length, ← hupdate] at hoverlap
    exact hoverlap
  exact congrFun hlay (address, key)

/-- A read in any reachable state, over a provider that shows the state of the parent. -/
theorem storageRead_eq {genesis : Address × B256 → U256} {inner : Address → B256 → Option U256}
    (hsteady : Steady p n.toCore lo)
    (hcache : ∀ e ∈ n.cachedOverlay, MergesEnd bundle n.chain e)
    (hinner : ∀ address key, (inner address key).getD 0 =
      storageAfter bundle genesis (parentChain n.toState) (address, key))
    (address : Address) (key : B256) :
    (storageRead p bundle n inner address key).getD 0 =
      storageAfter bundle genesis (parentChain n.toState) (address, key) := by
  unfold storageRead
  cases hopen : openOverlay p bundle n with
  | none => exact hinner address key
  | some e =>
    dsimp only
    have hmerges := openOverlay_merges hsteady hcache hopen
    have hread := getD_lookup_merges genesis hmerges address key
    rw [← parentChain_of_ne hsteady hmerges.ne_nil] at hread
    split
    · exact hinner address key
    · cases hlookup : e.overlay.lookup address key with
      | none => exact hinner address key
      | some value =>
        rw [hlookup] at hread
        exact hread

omit [DecidableEq Block] in
/-- The walk on a state lays the blocks over it. -/
theorem getD_walk (historical : Address × B256 → U256) :
    (fun k => (walk (blocks.reverse.map bundle) k.1 k.2).getD (historical k)) =
      layAll (fun b => storageUpdate (bundle b)) historical blocks := by
  rw [layAll_eq_lay]
  funext k
  rw [walk_eq_merged, ← List.map_reverse, List.reverse_reverse, merged_map]
  rfl

omit [DecidableEq Block] in
/-- The provider's state at a block that is the last one on disk, up to its number. -/
theorem disk_last {disk chain : List Block} {b : Block} (hchain : Numbered p.number 0 chain)
    (hlast : chain.getLast? = some b) (hdisk : disk.take chain.length = chain) :
    disk[p.number b - 1]? = some b ∧ disk.take (p.number b) = chain := by
  have hnum : p.number b = chain.length := by rw [hchain.getLast? hlast, Nat.zero_add]
  have hpos : 0 < chain.length := List.length_pos_of_ne_nil (by rintro rfl; cases hlast)
  refine ⟨?_, by rw [hnum, hdisk]⟩
  rw [← List.getElem?_take_of_lt (show p.number b - 1 < chain.length by omega), hdisk, hnum,
    ← List.getLast?_eq_getElem?]
  exact hlast

/-- While memory and disk cover the chain, the provider shows its state. -/
theorem providerState_eq {s : State Block K V} (hcov : Covered p s.toCore lo) :
    providerState p bundle genesis s = some (storageAfter bundle genesis (parentChain s)) := by
  unfold providerState
  by_cases hhead : 0 < s.headBlockNum
  · have hparent : parentChain s = s.chain := if_pos hhead
    rw [hparent]
    have hne : s.chain ≠ [] := by
      intro hnil
      rw [hcov.head_eq, hnil] at hhead
      cases hhead
    obtain ⟨b, hb⟩ := Option.isSome_iff_exists.mp (List.getLast?_isSome.mpr hne)
    rw [hb]
    dsimp only
    by_cases hmem : b ∈ s.memory
    · rw [if_pos hmem, memoryChain_head hcov.1 hcov.lo_le hcov.memory_eq hb]
      have hlt : lo < s.chain.length := by
        have := hcov.bounds hmem
        omega
      have hfirst : (s.chain.drop lo).head? = some s.chain[lo] := by
        rw [List.head?_drop, List.getElem?_eq_getElem hlt]
      have hnum : p.number s.chain[lo] = lo + 1 := by
        rw [hcov.chain_numbered.get (List.getElem?_eq_getElem hlt), Nat.zero_add]
      have hdisk : lo ≤ s.disk.length := by
        have hlen := congrArg List.length hcov.disk_eq
        rw [List.length_take, List.length_take] at hlen
        omega
      rw [hfirst]
      dsimp only
      rw [hnum, if_pos (Nat.succ_le_succ hdisk), Nat.add_sub_cancel, hcov.disk_eq, getD_walk]
      unfold storageAfter
      rw [← layAll_append, List.take_append_drop]
    · -- Memory is empty, so the whole chain is on disk.
      have hlo : lo = s.chain.length := by
        by_contra hlo
        have hlt : lo < s.chain.length := Nat.lt_of_le_of_ne hcov.lo_le hlo
        refine hmem ?_
        rw [hcov.memory_eq]
        refine List.mem_of_getLast? ?_
        rw [List.getLast?_drop, if_neg (by omega)]
        exact hb
      have hdisk := hcov.disk_eq
      rw [hlo, List.take_length] at hdisk
      obtain ⟨hget, htake⟩ := disk_last hcov.1 hb hdisk
      rw [if_neg hmem, if_pos hget, htake]
  · have hparent : parentChain s = s.disk := if_neg hhead
    have hmemory : s.memory = [] := by
      have hchain : s.chain = [] := List.length_eq_zero_iff.mp (by have := hcov.head_eq; omega)
      rw [hcov.memory_eq, hchain, List.drop_nil]
    rw [hparent]
    cases hb : s.disk.getLast? with
    | none =>
      rw [List.getLast?_eq_none_iff.mp hb]
      rfl
    | some b =>
      obtain ⟨hget, htake⟩ := disk_last hcov.2 hb (List.take_length)
      dsimp only
      rw [hmemory, if_neg List.not_mem_nil, if_pos hget, htake]

theorem exec_overlayStep {n₀ : OverlayNode Block K V}
    (hrun : exec (overlayStep p bundle) n₀ actions = some n) :
    exec (step p) n₀.toState (actions.map Prod.fst) = some n.toState := by
  induction actions generalizing n₀ with
  | nil =>
    cases hrun
    rfl
  | cons a actions ih =>
    obtain ⟨n₁, h₁, hrest⟩ := exec_cons.mp hrun
    obtain ⟨s₁, hs₁, rfl⟩ := Option.map_eq_some_iff.mp h₁
    exact exec_cons.mpr ⟨s₁, hs₁, ih hrest⟩

/-- The overlay of a chain is the walk over its blocks. In every reachable state a read through
    the overlay, over a provider that shows the parent's state, is the value after the bundles of
    all blocks up to the parent; and the provider shows that state in every run that collects no
    failed flush. -/
theorem coalesced_overlay_reads (p : Params Block K V) (bundle : Block → BundleState)
    (genesis : Address × B256 → U256) :
    (∀ (blocks : List BundleState) (address : Address) (slot : B256),
      (CoalescedOverlay.fromChain blocks).lookup address slot = walk blocks address slot) ∧
    ∀ (disk : List Block), Numbered p.number 0 disk →
      ∀ (actions : List (Action Block × Bool)) (n : OverlayNode Block K V),
        exec (overlayStep p bundle) (OverlayNode.startup disk) actions = some n →
          (∀ inner : Address → B256 → Option U256,
            (∀ address key, (inner address key).getD 0 =
              storageAfter bundle genesis (parentChain n.toState) (address, key)) →
            ∀ address key, (storageRead p bundle n inner address key).getD 0 =
              storageAfter bundle genesis (parentChain n.toState) (address, key)) ∧
          (Along (step p) NoFailedCollected (State.startup disk) (actions.map Prod.fst) →
            providerState p bundle genesis n.toState =
              some (storageAfter bundle genesis (parentChain n.toState))) := by
  refine ⟨lookup_fromChain, fun disk hdisk actions n hrun => ⟨?_, ?_⟩⟩
  · intro inner hinner
    obtain ⟨⟨lo, hsteady⟩, hcache⟩ := cache_reachable hdisk hrun
    exact storageRead_eq hsteady hcache hinner
  · intro hflushed
    obtain ⟨lo, hinv⟩ := inv_reachable hdisk hflushed (exec_overlayStep hrun)
    exact providerState_eq genesis hinv.covered

end Cache

/-- Block 1 wipes account 2 and writes slots 5 and 6 of account 1; block 2 writes slot 6 again. -/
def sampleBundle : Nat → BundleState
  | 1 =>
    { state := [(1, ⟨false, [(5, 7), (6, 8)], by decide⟩), (2, ⟨true, [], List.nodup_nil⟩)]
      state_nodup := by decide }
  | _ => { state := [(1, ⟨false, [(6, 9)], by decide⟩)], state_nodup := by decide }

/-- Block 1 is written to disk and leaves memory after block 2 has extended the overlay. -/
def droppedBelow : List (Action Nat × Bool) :=
  [.produce, .drain, .commit 1, .finishProduce, .produce, .drain, .commit 2, .finishProduce,
    .save true, .send, .reset 1, .drainForReset].map (·, false)

theorem coalesced_overlay_reads_droppedBelow :
    ∃ n, exec (overlayStep eachFlushed sampleBundle) (OverlayNode.startup []) droppedBelow =
        some n ∧
      n.memory = [2] ∧ n.disk = [1] ∧ n.cachedOverlay.isSome = true ∧
      providerState eachFlushed sampleBundle (fun _ => 3) n.toState =
        some (storageAfter sampleBundle (fun _ => 3) [1, 2]) ∧
      ∀ address key, (storageRead eachFlushed sampleBundle n
          (fun a k => some (storageAfter sampleBundle (fun _ => 3) [1, 2] (a, k))) address key).getD 0 =
        storageAfter sampleBundle (fun _ => 3) [1, 2] (address, key) := by
  have hreads := (coalesced_overlay_reads eachFlushed sampleBundle (fun _ => 3)).2 [] trivial
    droppedBelow _ rfl
  exact ⟨_, rfl, rfl, rfl, rfl, hreads.2 (by decide), hreads.1 _ fun _ _ => rfl⟩

end Arbreth.Producer
