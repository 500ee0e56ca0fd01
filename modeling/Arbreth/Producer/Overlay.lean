/-
  The state-root overlay and the unpersisted chain.

  The next state root is computed on the disk state under two updates: the flushing trie
  input, then the accumulated one. The invariant of a run in which everything succeeds: for
  heights `m ≤ n`, the flushing input merges the blocks from `m` to `n`, the accumulated one
  those from `n` on, and the disk has the chain up to some height that is at least `m`. What is
  laid over the disk twice does no harm (`Update.lay_overlap`), so the overlay gives the state
  of the whole chain.

  `reset_to_block` clears the accumulated input, whether or not the blocks it stands for are
  on disk, and keeps the flushing one, whether or not its blocks were rolled back. It keeps
  the invariant when, after its own drain, either no flush is in flight and the target is on
  disk, or the flush in flight ends at the target, and when its unwind succeeds.
-/
import Arbreth.Producer.NoLoss

namespace Arbreth.Producer

open Arbreth.Lib Update Pc

variable {Block K V : Type} (p : Params Block K V)

/-! ## Terms -/

/-- The overlay of the next state root: the flushing input overridden by the accumulated one. -/
def overlay (s : State Block K V) : Update K V := (s.flushing.getD .empty).extend s.accumulated

/-- What `produce_block_with_execution` lays over the disk to compute the root of a block. -/
def rootInput (s : State Block K V) (b : Block) : Update K V :=
  (s.flushing.getD .empty).extend (s.accumulated.extend (p.hashedState b))

/-- The last block of the flush in flight, wherever it is. -/
def inFlight (c : Core Block) : Option Block :=
  match c.queue with
  | .flush blocks :: _ => blocks.getLast?
  | _ =>
    match c.finishing with
    | some r => some r.last
    | none => c.result.map (·.last)

/-- Block productions and saves that succeed. -/
def Action.succeeds : Action Block → Bool
  | .abort _ => false
  | .save ok => ok
  | _ => true

/-- The unwind of a reset fails. -/
def Action.unwindFails : Action Block → Bool
  | .unwind ok => !ok
  | _ => false

/-- The target of the reset that cuts blocks off in this action. -/
def resetTarget (s : State Block K V) (a : Action Block) : Option Nat :=
  match a, s.pc with
  | .truncate, .resetTruncate target => some target
  | _, _ => none

/-- When blocks are cut off, the target is on disk and no flush is in flight, or the flush in
    flight ends at the target. -/
def Covers (s : State Block K V) (target : Nat) : Prop :=
  s.pendingFlush = false ∧ target ≤ s.disk.length ∨
    s.pendingFlush = true ∧ (inFlight s.toCore).map p.number = some target

/-- A reset is covered when it cuts blocks off, and its unwind succeeds. -/
def ResetCovered (s : State Block K V) (a : Action Block) : Prop :=
  (∀ target ∈ resetTarget s a, Covers p s target) ∧ a.unwindFails = false

instance (s : State Block K V) (target : Nat) : Decidable (Covers p s target) :=
  inferInstanceAs (Decidable (_ ∨ _))

instance (s : State Block K V) (a : Action Block) : Decidable (ResetCovered p s a) :=
  inferInstanceAs (Decidable ((∀ target ∈ resetTarget s a, Covers p s target) ∧ _))

/-! ## The invariant -/

structure Layered (s : State Block K V) (m n : Nat) : Prop where
  le : m ≤ n
  n_le : n ≤ s.chain.length
  m_le : m ≤ s.disk.length
  agree : s.disk.take s.chain.length = s.chain.take s.disk.length
  short : s.disk.length ≤ s.chain.length ∨ (s.pc.Awaiting ∧ s.unwound = none)
  flushing_eq : s.flushing.getD .empty = merged p.hashedState ((s.chain.take n).drop m)
  accumulated_eq : ¬ s.pc.Awaiting → s.accumulated = merged p.hashedState (s.chain.drop n)
  quiet : s.pendingFlush = false → s.flushing = none ∧ n ≤ s.disk.length
  busy : s.pendingFlush = true →
    ∃ last ∈ s.memory, inFlight s.toCore = some last ∧ p.number last = n
  queued : ∀ blocks, .flush blocks ∈ s.queue → s.disk.length ≤ n
  awaiting : s.pc.Awaiting → n = s.chain.length
  counts : ∀ r, s.finishing = some r ∨ s.result = some r → r.count ≠ 0
  answered : s.unwound ≠ some false

variable {p} {s s' : State Block K V} {lo m n : Nat}

theorem Layered.short_calm (h : Layered p s m n) (hpc : ¬ s.pc.Awaiting) :
    s.disk.length ≤ s.chain.length :=
  h.short.elim id (fun hs => absurd hs.1 hpc)

/-- Outside a reset the disk is an initial part of the chain. -/
theorem Layered.disk_eq (h : Layered p s m n) (hpc : ¬ s.pc.Awaiting) :
    s.disk = s.chain.take s.disk.length := by
  rw [← h.agree, List.take_of_length_le (h.short_calm hpc)]

/-- The overlay over the disk is the state of the chain. -/
theorem Layered.lay_overlay (h : Layered p s m n) (hpc : ¬ s.pc.Awaiting) (genesis : K → V) :
    lay (layAll p.hashedState genesis s.disk) (overlay s) =
      layAll p.hashedState genesis s.chain := by
  have hover : overlay s = merged p.hashedState (s.chain.drop m) := by
    rw [overlay, h.flushing_eq, h.accumulated_eq hpc, ← merged_append]
    congr 1
    have hn : s.chain.drop n = (s.chain.drop m).drop (n - m) := by
      rw [List.drop_drop, Nat.add_sub_cancel' h.le]
    rw [List.drop_take, hn, List.take_append_drop]
  rw [hover, h.disk_eq hpc]
  exact lay_overlap genesis s.chain h.m_le

/-! ## Each move keeps it -/

theorem Layered.setPc (h : Layered p s m n) {pc : Pc} (hfrom : ¬ s.pc.Awaiting)
    (hto : ¬ pc.Awaiting) : Layered p { s with pc := pc } m n where
  le := h.le
  n_le := h.n_le
  m_le := h.m_le
  agree := h.agree
  short := .inl (h.short_calm hfrom)
  flushing_eq := h.flushing_eq
  accumulated_eq := fun _ => h.accumulated_eq hfrom
  quiet := h.quiet
  busy := h.busy
  queued := h.queued
  awaiting := fun hpc => absurd hpc hto
  counts := h.counts
  answered := h.answered

theorem Layered.startFlush (hinv : Inv p s.toCore lo) (h : Layered p s m n)
    (hpc : ¬ s.pc.Awaiting) (hp : s.pendingFlush = false) (hm : s.memory ≠ []) :
    Layered p { s with
      flushing := some s.accumulated
      accumulated := .empty
      blocksSinceFlush := 0
      pendingFlush := true
      queue := s.queue ++ [.flush s.memory] } n s.chain.length where
  le := h.n_le
  n_le := Nat.le_refl _
  m_le := (h.quiet hp).2
  agree := h.agree
  short := .inl (h.short_calm hpc)
  flushing_eq := by
    rw [List.take_length]
    exact h.accumulated_eq hpc
  accumulated_eq := fun _ => by
    rw [List.drop_length]
    rfl
  quiet := fun hp' => (nomatch hp')
  busy := fun _ => by
    obtain ⟨last, hlast⟩ := Option.isSome_iff_exists.mp (List.getLast?_isSome.mpr hm)
    refine ⟨last, List.mem_of_getLast? hlast, ?_, hinv.covered.last_number hlast⟩
    rw [((hinv.flight_calm hpc).2.idle hp).1]
    exact hlast
  queued := fun _ _ => h.short_calm hpc
  awaiting := fun hpc' => absurd hpc' hpc
  counts := h.counts
  answered := h.answered

variable {t : Nat} {rest : List (Request Block)} {r : FlushResult Block}

/-- A result that is in the channel is that of the flush in flight, and what it flushed is on
    disk. -/
theorem Layered.reported (hinv : Inv p s.toCore lo) (h : Layered p s m n) (hr : s.result = some r) :
    s.pendingFlush = true ∧ r.last ∈ s.memory ∧ p.number r.last = n ∧
      s.disk.take n = s.chain.take n := by
  obtain ⟨unwinds, hun, hfl⟩ := hinv.flight
  cases hfl with
  | quiet _ _ _ hr' => rw [hr'] at hr; cases hr
  | queued _ _ _ _ _ _ hr' => rw [hr'] at hr; cases hr
  | saved _ _ _ _ hr' => rw [hr'] at hr; cases hr
  | sent r' hp hq hf hr' hrep _ =>
    rw [hr] at hr'
    cases hr'
    obtain ⟨last, hmem, hflight, hnum⟩ := h.busy hp
    have hlast : last = r.last := by
      unfold inFlight at hflight
      rw [hq, hf, hr] at hflight
      cases hun with
      | none | asked | answered => cases hflight; rfl
    subst hlast
    refine ⟨hp, hmem, hnum, ?_⟩
    rw [← hnum]
    exact hrep (h.counts r (.inr hr)) hmem

/-- A reported flush is on disk as far as the flushing input goes. -/
theorem Layered.n_le_disk (hinv : Inv p s.toCore lo) (h : Layered p s m n) (hr : s.result = some r) :
    n ≤ s.disk.length := by
  obtain ⟨-, -, -, hdisk⟩ := h.reported hinv hr
  have hlen := congrArg List.length hdisk
  have := h.n_le
  rw [List.length_take, List.length_take] at hlen
  omega

/-- A collected flush is on disk, and the flushing input with it. -/
theorem Layered.collected [DecidableEq Block] (hinv : Inv p s.toCore lo) (h : Layered p s m n)
    (hpc : ¬ s.pc.Awaiting) (hr : s.result = some r) : Layered p (collect p s r) n n := by
  have hn := h.n_le_disk hinv hr
  exact {
    le := Nat.le_refl n
    n_le := h.n_le
    m_le := hn
    agree := h.agree
    short := .inl (h.short_calm hpc)
    flushing_eq := by
      rw [List.drop_eq_nil_of_le (List.length_take_le n _)]
      rfl
    accumulated_eq := h.accumulated_eq
    quiet := fun _ => ⟨rfl, hn⟩
    busy := fun hp' => (nomatch hp')
    queued := h.queued
    awaiting := fun hpc' => absurd hpc' hpc
    counts := fun r' hr' => hr'.elim (fun hf => h.counts r' (.inl hf)) (fun hn => (nomatch hn))
    answered := h.answered }

theorem Layered.commit (hinv : Inv p s.toCore lo) (h : Layered p s m n) (hpc : s.pc = .executing)
    (b : Block) : Layered p { commitBlock p s b with pc := .committed } m n := by
  have hcalm : ¬ s.pc.Awaiting := calm hpc (by simp)
  -- A head of zero means an empty chain, and then the disk is empty too.
  have hparent : parentChain s = s.chain := by
    unfold parentChain
    by_cases hhead : 0 < s.headBlockNum
    · exact if_pos hhead
    · rw [if_neg hhead]
      have hlen : s.chain.length = 0 := by
        have := hinv.covered.head_eq
        omega
      have hd := h.short_calm hcalm
      rw [List.length_eq_zero_iff.mp hlen, List.length_eq_zero_iff.mp (by omega : s.disk.length = 0)]
  have hlen : (s.chain ++ [b]).length = s.chain.length + 1 := by simp
  have hshort := h.short_calm hcalm
  have hto : ¬ Pc.Awaiting .committed := calm rfl (by simp)
  unfold commitBlock
  rw [hparent]
  exact {
    le := h.le
    n_le := Nat.le_trans h.n_le (by rw [hlen]; omega)
    m_le := h.m_le
    agree := by
      rw [List.take_append_of_le_length hshort, ← h.disk_eq hcalm]
      exact List.take_of_length_le (by rw [hlen]; exact Nat.le_succ_of_le hshort)
    short := .inl (by rw [hlen]; exact Nat.le_succ_of_le hshort)
    flushing_eq := by
      rw [List.take_append_of_le_length h.n_le]
      exact h.flushing_eq
    accumulated_eq := fun _ => by
      rw [List.drop_append_of_le_length h.n_le, merged_append, merged_singleton,
        ← h.accumulated_eq hcalm]
    quiet := h.quiet
    busy := fun hp => by
      obtain ⟨last, hmem, hflight, hnum⟩ := h.busy hp
      exact ⟨last, List.mem_append_left _ hmem, hflight, hnum⟩
    queued := h.queued
    awaiting := fun hpc' => absurd hpc' hto
    counts := h.counts
    answered := h.answered }

/-- The unwind request goes behind the flush in flight. -/
theorem inFlight_push (c : Core Block) (target : Nat) (memory : List Block) (head : Nat)
    (chain : List Block) (pc : Pc) :
    inFlight { c with
      memory := memory
      headBlockNum := head
      queue := c.queue ++ [.unwind target]
      chain := chain
      pc := pc } = inFlight c := by
  unfold inFlight
  cases hq : c.queue with
  | nil => rfl
  | cons request rest =>
    cases request with
    | flush blocks => rfl
    | unwind t => rfl

/-- A reset that its condition covers. Without a flush in flight both inputs are void; with one,
    its blocks are those up to the target. -/
theorem Layered.truncate (hinv : Inv p s.toCore lo) (h : Layered p s m n)
    (hpc : s.pc = .resetTruncate t) (hcov : Covers p s t) :
    ∃ m' n', Layered p { s with
      memory := s.memory.filter (fun b => p.number b ≤ t)
      headBlockNum := t
      queue := s.queue ++ [.unwind t]
      chain := s.chain.take t
      pc := .awaitUnwind t } m' n' := by
  have hcalm : ¬ s.pc.Awaiting := calm hpc (by simp)
  obtain ⟨hu, hfl⟩ := hinv.flight_calm hcalm
  have ht : t ≤ s.chain.length := hinv.target_le t (.inr hpc)
  have hlen : (s.chain.take t).length = t := by rw [List.length_take]; omega
  have hawait : Pc.Awaiting (.awaitUnwind t) := ⟨t, rfl⟩
  have hagree : s.disk.take (s.chain.take t).length = (s.chain.take t).take s.disk.length := by
    conv_lhs => rw [hlen, h.disk_eq hcalm]
    rw [List.take_take, List.take_take, Nat.min_comm]
  have hqueue : ∀ blocks, .flush blocks ∈ s.queue ++ [.unwind t] → .flush blocks ∈ s.queue := by
    intro blocks hmem
    rcases List.mem_append.mp hmem with hmem | hmem
    · exact hmem
    · cases List.mem_singleton.mp hmem
  rcases hcov with ⟨hp', hcov⟩ | ⟨hp, hcov⟩
  swap
  · obtain ⟨last, hmem, hflight, hnum⟩ := h.busy hp
    have hnt : n = t := by
      rw [hflight] at hcov
      simpa [hnum] using hcov
    subst hnt
    refine ⟨m, n, ?_⟩
    exact {
      le := h.le
      n_le := Nat.le_of_eq hlen.symm
      m_le := h.m_le
      agree := hagree
      short := .inr ⟨hawait, hu⟩
      flushing_eq := by
        rw [List.take_take, Nat.min_self]
        exact h.flushing_eq
      accumulated_eq := fun hpc' => absurd hawait hpc'
      quiet := fun hp' => (nomatch hp.symm.trans hp')
      busy := fun _ => by
        refine ⟨last, List.mem_filter.mpr ⟨hmem, by simp [hnum]⟩, ?_, hnum⟩
        rw [← hflight]
        exact inFlight_push s.toCore n _ _ _ _
      queued := fun blocks hq => h.queued blocks (hqueue blocks hq)
      awaiting := fun _ => hlen.symm
      counts := h.counts
      answered := h.answered }
  · refine ⟨t, t, ?_⟩
    exact {
      le := Nat.le_refl t
      n_le := Nat.le_of_eq hlen.symm
      m_le := hcov
      agree := hagree
      short := .inr ⟨hawait, hu⟩
      flushing_eq := by
        rw [List.drop_eq_nil_of_le (List.length_take_le t _)]
        exact congrArg (Option.getD · Update.empty) (h.quiet hp').1
      accumulated_eq := fun hpc' => absurd hawait hpc'
      quiet := fun _ => ⟨(h.quiet hp').1, hcov⟩
      busy := fun hp => (nomatch hp'.symm.trans hp)
      queued := fun blocks hq => by
        have hmem := hqueue blocks hq
        rw [(hfl.idle hp').1] at hmem
        cases hmem
      awaiting := fun _ => hlen.symm
      counts := h.counts
      answered := h.answered }

/-- A saved flush makes the disk the chain up to its last block. -/
theorem Layered.saveOk {blocks disk : List Block} {last : Block} (hinv : Inv p s.toCore lo)
    (h : Layered p s m n) (hq : s.queue = .flush blocks :: rest) (hl : blocks.getLast? = some last)
    (hs : saveBlocks p s.disk blocks = some disk) :
    Layered p { s with
      queue := rest
      disk := disk
      finishing := some ⟨last, blocks.length⟩ } m n := by
  obtain ⟨start, hfront⟩ := hinv.atFront hq hl
  obtain ⟨last', hmem, hflight, hnum⟩ := h.busy hfront.pending
  have hlast : last' = last := by
    unfold inFlight at hflight
    rw [hq] at hflight
    exact Option.some.inj (hflight.symm.trans hl)
  subst hlast
  have hmem_queue : .flush blocks ∈ s.queue := by
    rw [hq]
    exact List.mem_cons_self
  have hshort : s.disk.length ≤ n := h.queued blocks hmem_queue
  have hdisk : disk = s.chain.take n := by
    rw [hfront.disk_eq hinv.covered hl hs hmem, hnum, List.drop_eq_nil_of_le hshort, List.append_nil]
  subst hdisk
  have hlen : (s.chain.take n).length = n := by
    rw [List.length_take]
    exact Nat.min_eq_left h.n_le
  have hrest : ∀ blocks', .flush blocks' ∉ rest := by
    intro blocks' hmem'
    cases hfront.unwinding [] none with
    | none | asked | answered => simp at hmem'
  exact {
    le := h.le
    n_le := h.n_le
    m_le := by
      rw [hlen]
      exact h.le
    agree := by rw [hlen, List.take_take, Nat.min_eq_right h.n_le]
    short := .inl (by rw [hlen]; exact h.n_le)
    flushing_eq := h.flushing_eq
    accumulated_eq := h.accumulated_eq
    quiet := fun hp => (nomatch hfront.pending.symm.trans hp)
    busy := fun _ => by
      refine ⟨last', hmem, ?_, hnum⟩
      cases hfront.unwinding [] none with
      | none | asked | answered => rfl
    queued := fun blocks' hmem' => absurd hmem' (hrest blocks')
    awaiting := h.awaiting
    counts := fun r hr => by
      rcases hr with hr | hr
      · cases hr
        intro hzero
        rw [List.length_eq_zero_iff.mp hzero] at hl
        cases hl
      · rw [hfront.result] at hr
        cases hr
    answered := h.answered }

theorem Layered.send (h : Layered p s m n) (hf : s.finishing = some r) :
    Layered p { s with finishing := none, result := some r } m n where
  le := h.le
  n_le := h.n_le
  m_le := h.m_le
  agree := h.agree
  short := h.short
  flushing_eq := h.flushing_eq
  accumulated_eq := h.accumulated_eq
  quiet := h.quiet
  busy := fun hp => by
    obtain ⟨last, hmem, hflight, hnum⟩ := h.busy hp
    refine ⟨last, hmem, ?_, hnum⟩
    rw [← hflight]
    unfold inFlight
    rw [hf]
    rfl
  queued := h.queued
  awaiting := h.awaiting
  counts := fun r' hr' => by
    rcases hr' with hr' | hr'
    · cases hr'
    · cases hr'
      exact h.counts r (.inl hf)
  answered := h.answered

theorem Layered.unwind (hinv : Inv p s.toCore lo) (h : Layered p s m n)
    (hq : s.queue = .unwind t :: rest) (hf : s.finishing = none) :
    Layered p { s with
      queue := rest
      disk := s.disk.take t
      unwound := some true } m n := by
  obtain ⟨unwinds, hun, hfl⟩ := hinv.flight
  have hasked : unwinds = .unwind t :: rest := by
    cases hfl with
    | quiet _ hq' => exact hq'.symm.trans hq
    | queued _ _ _ _ hq' => rw [hq] at hq'; cases hq'
    | saved _ _ hq' => exact hq'.symm.trans hq
    | sent _ _ hq' => exact hq'.symm.trans hq
  subst hasked
  cases hun with
  | asked t hpc ht hu =>
    have hn : n = s.chain.length := h.awaiting ⟨t, hpc⟩
    -- the flush before the unwind has been reported, so the whole chain is on disk
    have hle : s.chain.length ≤ s.disk.length := by
      rw [← hn]
      cases hfl with
      | quiet hp => exact (h.quiet hp).2
      | queued _ _ _ _ hq' => rw [hq] at hq'; cases hq'
      | saved _ _ _ hf' => rw [hf] at hf'; cases hf'
      | sent r _ _ _ hr => exact h.n_le_disk hinv hr
    have hdisk : s.disk.take t = s.chain := by
      rw [← ht, h.agree, List.take_of_length_le hle]
    rw [hdisk]
    exact {
      le := h.le
      n_le := h.n_le
      m_le := Nat.le_trans h.le h.n_le
      agree := rfl
      short := .inl (Nat.le_refl _)
      flushing_eq := h.flushing_eq
      accumulated_eq := h.accumulated_eq
      quiet := fun hp => ⟨(h.quiet hp).1, h.n_le⟩
      busy := fun hp => by
        obtain ⟨last, hmem, hflight, hnum⟩ := h.busy hp
        refine ⟨last, hmem, ?_, hnum⟩
        rw [← hflight]
        unfold inFlight
        rw [hq]
      queued := fun blocks hmem => (nomatch hmem)
      awaiting := h.awaiting
      counts := h.counts
      answered := by simp }

/-- The accumulated input is cleared when it stands for nothing. -/
theorem Layered.unwoundSeen (h : Layered p s m n) (hpc : s.pc = .awaitUnwind t)
    (hu : s.unwound = some true) :
    Layered p { s with unwound := none, accumulated := .empty, pc := .idle } m n where
  le := h.le
  n_le := h.n_le
  m_le := h.m_le
  agree := h.agree
  short := .inl (h.short.elim id (fun hs => (nomatch hu.symm.trans hs.2)))
  flushing_eq := h.flushing_eq
  accumulated_eq := fun _ => by
    rw [h.awaiting ⟨t, hpc⟩, List.drop_length]
    rfl
  quiet := h.quiet
  busy := h.busy
  queued := h.queued
  awaiting := fun ⟨t', ht'⟩ => (nomatch ht')
  counts := h.counts
  answered := by simp

section Runs

variable [DecidableEq Block]

theorem Layered.drains (hinv : Inv p s.toCore lo) (h : Layered p s m n) (hpc : ¬ s.pc.Awaiting)
    (hd : Drains p s s') : ∃ m' n', Layered p s' m' n' ∧ s'.pc = s.pc := by
  cases hd with
  | nothing => exact ⟨m, n, h, rfl⟩
  | collected r hp hr => exact ⟨n, n, h.collected hinv hpc hr, rfl⟩

omit [DecidableEq Block] in
theorem Layered.flushes (hinv : Inv p s.toCore lo) (h : Layered p s m n) (hpc : ¬ s.pc.Awaiting)
    (hf : Flushes s s') : ∃ m' n', Layered p s' m' n' ∧ s'.pc = s.pc := by
  cases hf with
  | skipped => exact ⟨m, n, h, rfl⟩
  | started hp hm => exact ⟨_, _, h.startFlush hinv hpc hp hm, rfl⟩

theorem Layered.move {a : Action Block} (hinv : Inv p s.toCore lo) (h : Layered p s m n)
    (hsucc : a.succeeds = true) (hok : ResetCovered p s a) (hm : Move p s a s') :
    ∃ m' n', Layered p s' m' n' := by
  cases hm with
  | @produce s₁ pc hpc hf hpc' =>
    have hcalm : ¬ s.pc.Awaiting := calm hpc (by simp)
    obtain ⟨m', n', h₁, hpc₁⟩ := h.flushes hinv hcalm hf
    refine ⟨m', n', h₁.setPc (hpc₁ ▸ hcalm) ?_⟩
    rcases hpc' with rfl | rfl <;> exact calm rfl (by simp)
  | @pollFlush s₁ pc hpc hd hpc' =>
    have hcalm : ¬ s.pc.Awaiting := calm hpc (by simp)
    obtain ⟨m', n', h₁, hpc₁⟩ := h.drains hinv hcalm hd
    refine ⟨m', n', h₁.setPc (hpc₁ ▸ hcalm) ?_⟩
    rcases hpc' with rfl | rfl <;> exact calm rfl (by simp)
  | drain hpc hd =>
    have hcalm : ¬ s.pc.Awaiting := calm hpc (by simp)
    obtain ⟨m', n', h₁, hpc₁⟩ := h.drains hinv hcalm hd
    exact ⟨m', n', h₁.setPc (hpc₁ ▸ hcalm) (calm rfl (by simp))⟩
  | commit b hpc hb => exact ⟨m, n, h.commit hinv hpc b⟩
  | abort root hpc => cases hsucc
  | finishProduce hpc hf =>
    have hcalm : ¬ s.pc.Awaiting := calm hpc (by simp)
    obtain ⟨m', n', h₁, hpc₁⟩ := h.flushes hinv hcalm hf
    exact ⟨m', n', h₁.setPc (hpc₁ ▸ hcalm) (calm rfl (by simp))⟩
  | reset target hpc ht =>
    exact ⟨m, n, h.setPc (calm hpc (by simp)) (calm rfl (by simp))⟩
  | drainForReset target hpc hd =>
    have hcalm : ¬ s.pc.Awaiting := calm hpc (by simp)
    obtain ⟨m', n', h₁, hpc₁⟩ := h.drains hinv hcalm hd
    exact ⟨m', n', h₁.setPc (hpc₁ ▸ hcalm) (calm rfl (by simp))⟩
  | truncate target hpc =>
    have htarget : resetTarget s .truncate = some target := by
      unfold resetTarget
      rw [hpc]
    exact h.truncate hinv hpc (hok.1 target htarget)
  | unwoundSeen target ok hpc hu =>
    cases ok with
    | true => exact ⟨m, n, h.unwoundSeen hpc hu⟩
    | false => exact absurd hu h.answered
  | saveOk hq hf hl hs => exact ⟨m, n, h.saveOk hinv hq hl hs⟩
  | saveFailed hq hf hl => cases hsucc
  | send hf hr => exact ⟨m, n, h.send hf⟩
  | unwind ok hq hf =>
    cases ok with
    | true => exact ⟨m, n, h.unwind hinv hq hf⟩
    | false => cases hok.2

omit [DecidableEq Block] in
theorem layered_startup (disk : List Block) :
    Layered p (State.startup disk) disk.length disk.length where
  le := Nat.le_refl _
  n_le := Nat.le_refl _
  m_le := Nat.le_refl _
  agree := rfl
  short := .inl (Nat.le_refl _)
  flushing_eq := by
    rw [List.drop_eq_nil_of_le (List.length_take_le _ _)]
    rfl
  accumulated_eq := fun _ => (congrArg (merged p.hashedState) List.drop_length).symm
  quiet := fun _ => ⟨rfl, Nat.le_refl _⟩
  busy := fun hp => (nomatch hp)
  queued := fun _ hmem => (nomatch hmem)
  awaiting := fun ⟨_, ht⟩ => (nomatch ht)
  counts := fun _ hr => hr.elim (fun hf => (nomatch hf)) (fun hr => (nomatch hr))
  answered := by simp [State.startup]

theorem layered_reachable {disk : List Block} (hdisk : Numbered p.number 0 disk)
    {actions : List (Action Block)} (hsucc : ∀ a ∈ actions, a.succeeds = true)
    (hok : Along (step p) (ResetCovered p) (State.startup disk) actions)
    (hrun : exec (step p) (State.startup disk) actions = some s) : ∃ m n, Layered p s m n := by
  have hstep : ∀ (s : State Block K V) (a : Action Block) (s' : State Block K V),
      (∃ lo m n, Inv p s.toCore lo ∧ Layered p s m n) →
        (a.succeeds = true ∧ ResetCovered p s a) → step p s a = some s' →
          ∃ lo m n, Inv p s'.toCore lo ∧ Layered p s' m n := by
    rintro s a s' ⟨lo, m, n, hinv, h⟩ ⟨hsucc, hok⟩ hs
    have hmove := step_moves hs
    -- no flush fails, so none that failed is collected
    have hgood : NoFailedCollected s a := fun _ r hr hzero => absurd hzero (h.counts r (.inr hr))
    obtain ⟨lo', hinv'⟩ := hinv.move hgood hmove
    obtain ⟨m', n', h'⟩ := h.move hinv hsucc hok hmove
    exact ⟨lo', m', n', hinv', h'⟩
  obtain ⟨-, m, n, -, h⟩ := exec_invariant hstep
    ⟨_, _, _, inv_startup hdisk, layered_startup disk⟩ (hok.and hsucc) hrun
  exact ⟨m, n, h⟩

/-- **The overlay covers the unpersisted chain** in a run whose productions and saves succeed and
    whose resets are covered: laid over the disk it gives the state after all blocks up to the
    head, and the input of the next root gives that state with the next block laid over it. -/
theorem overlay_covers_chain (p : Params Block K V) (genesis : K → V) (disk : List Block)
    (hdisk : Numbered p.number 0 disk) (actions : List (Action Block)) (s : State Block K V)
    (hsucc : ∀ a ∈ actions, a.succeeds = true)
    (hok : Along (step p) (ResetCovered p) (State.startup disk) actions)
    (hrun : exec (step p) (State.startup disk) actions = some s)
    (hpc : ¬ s.pc.Awaiting) :
    lay (layAll p.hashedState genesis s.disk) (overlay s) =
        layAll p.hashedState genesis s.chain ∧
      ∀ b, lay (layAll p.hashedState genesis s.disk) (rootInput p s b) =
        lay (layAll p.hashedState genesis s.chain) (p.hashedState b) := by
  obtain ⟨m, n, h⟩ := layered_reachable hdisk hsucc hok hrun
  have hlay := h.lay_overlay hpc genesis
  refine ⟨hlay, fun b => ?_⟩
  rw [rootInput, ← extend_assoc, lay_extend]
  exact congrArg (lay · (p.hashedState b)) hlay

end Runs

/-! ## A reset that is not covered, and one that is -/

/-- Blocks named by their numbers, one key whose value is the last block, and a flush after
    every third block. -/
def lazyFlushed : Params Nat Unit Nat where
  number := id
  hashedState := fun b _ => some b
  interval := 3
  maxInflight := 10

def produceBlock (b : Nat) : List (Action Nat) := [.produce, .drain, .commit b, .finishProduce]

/-- A reset to block 1 with nothing in flight. -/
def resetToOne (unwound : Bool) : List (Action Nat) :=
  [.reset 1, .drainForReset, .truncate, .unwind unwound, .unwoundSeen]

/-- Blocks 1 and 2 are in memory only; after the reset the overlay no longer knows block 1. With
    blocks 1 to 3 on disk and an unwind that fails, the head is block 1 and the disk that of
    block 3. -/
theorem reset_drops_overlay :
    (∃ s, exec (step lazyFlushed) (State.startup [])
        (produceBlock 1 ++ produceBlock 2 ++ resetToOne true) = some s ∧
      lay (layAll lazyFlushed.hashedState (fun _ => 0) s.disk) (overlay s) ≠
        layAll lazyFlushed.hashedState (fun _ => 0) s.chain) ∧
    ∃ s, exec (step lazyFlushed) (State.startup [1, 2, 3]) (resetToOne false) = some s ∧
      lay (layAll lazyFlushed.hashedState (fun _ => 0) s.disk) (overlay s) ≠
        layAll lazyFlushed.hashedState (fun _ => 0) s.chain := by
  refine ⟨⟨_, rfl, fun h => ?_⟩, _, rfl, fun h => ?_⟩
  · exact absurd (congrFun h ()) (by decide)
  · exact absurd (congrFun h ()) (by decide)

/-- Blocks 1 to 3 are flushed and collected before the reset. -/
def flushedRun : List (Action Nat) :=
  produceBlock 1 ++ produceBlock 2 ++ produceBlock 3 ++ [.save true, .send] ++ resetToOne true

theorem overlay_covers_chain_flushedRun :
    ∃ s, exec (step lazyFlushed) (State.startup []) flushedRun = some s ∧
      lay (layAll lazyFlushed.hashedState (fun _ => 0) s.disk) (overlay s) =
          layAll lazyFlushed.hashedState (fun _ => 0) s.chain ∧
        ∀ b, lay (layAll lazyFlushed.hashedState (fun _ => 0) s.disk) (rootInput lazyFlushed s b) =
          lay (layAll lazyFlushed.hashedState (fun _ => 0) s.chain) (lazyFlushed.hashedState b) :=
  ⟨_, rfl, overlay_covers_chain lazyFlushed (fun _ => 0) [] trivial flushedRun _ (by decide)
    (by decide) rfl (calm (rfl : _ = idle) (by simp))⟩

end Arbreth.Producer
