/-
  The invariant of the producer and its persistence thread.

  Memory is the chain from some height `lo` on, and the disk agrees with the
  chain up to `lo`. A flush in flight starts at `lo` or above, so saving it never touches the
  part that memory relies on, and when its last block is still in memory it is the chain from
  `lo` to that block. A flush whose last block was rolled back can only be met as a result
  that is already there, because the unwind is handled after it.

  `Steady` is the part of it that all runs keep, whatever fails.

  Every move keeps the whole but one: `drain_completed_flush` removes the blocks of a failed flush
  (count zero) from memory like those of a successful one (`Inv.move`).
-/
import Arbreth.Lib.Numbered
import Arbreth.Producer.Model

namespace Arbreth.Producer

open Arbreth.Lib

variable {Block K V : Type} (p : Params Block K V)

/-! ## The invariant -/

/-- The producer waits for an unwind. -/
def Pc.Awaiting (pc : Pc) : Prop := ∃ t, pc = .awaitUnwind t

open Pc

/-- The producer is between the drain and the end of a block production. -/
def Pc.Producing (pc : Pc) : Prop := pc = .executing ∨ pc = .committed

theorem Pc.calm {pc pc' : Pc} (h : pc = pc') (hne : ∀ t, pc' ≠ .awaitUnwind t) : ¬ pc.Awaiting :=
  fun ⟨t, ht⟩ => hne t (h ▸ ht)

theorem not_awaiting_of_producing {pc : Pc} (h : pc.Producing) : ¬ pc.Awaiting := by
  rintro ⟨t, ht⟩
  rcases h with h | h <;> rw [ht] at h <;> cases h

/-- A flush that succeeded, and whose last block is still in memory, put the chain up to that
    block on disk. -/
def Reported (c : Core Block) (r : FlushResult Block) : Prop :=
  r.count ≠ 0 → r.last ∈ c.memory →
    c.disk.take (p.number r.last) = c.chain.take (p.number r.last)

/-- The unwind request behind the flush, if the producer waits for one. -/
inductive Unwinding (c : Core Block) : List (Request Block) → Prop where
  | none (hpc : ¬ c.pc.Awaiting) (hu : c.unwound = none) : Unwinding c []
  | asked (t : Nat) (hpc : c.pc = .awaitUnwind t) (hlen : c.chain.length = t)
      (hu : c.unwound = none) : Unwinding c [.unwind t]
  | answered (t : Nat) (ok : Bool) (hpc : c.pc = .awaitUnwind t) (hu : c.unwound = some ok)
      (hq : c.queue = []) (hf : c.finishing = none) : Unwinding c []

/-- Where the one flush is that may be in flight. -/
inductive Flight (c : Core Block) (lo : Nat) (unwinds : List (Request Block)) : Prop where
  | quiet (hp : c.pendingFlush = false) (hq : c.queue = unwinds) (hf : c.finishing = none)
      (hr : c.result = none)
  | queued (blocks : List Block) (last : Block) (start : Nat) (hp : c.pendingFlush = true)
      (hq : c.queue = .flush blocks :: unwinds) (hf : c.finishing = none) (hr : c.result = none)
      (hl : blocks.getLast? = some last) (hnum : Numbered p.number start blocks)
      (hlo : lo ≤ start)
      (hseg : last ∈ c.memory → blocks = (c.chain.take (p.number last)).drop lo)
      (hfresh : ¬ c.pc.Awaiting → last ∈ c.memory)
  | saved (r : FlushResult Block) (hp : c.pendingFlush = true) (hq : c.queue = unwinds)
      (hf : c.finishing = some r) (hr : c.result = none) (hrep : Reported p c r)
      (hfresh : ¬ c.pc.Awaiting → r.last ∈ c.memory)
  | sent (r : FlushResult Block) (hp : c.pendingFlush = true) (hq : c.queue = unwinds)
      (hf : c.finishing = none) (hr : c.result = some r) (hrep : Reported p c r)
      (hfresh : c.pc.Producing → r.last ∈ c.memory)

/-- Memory is the chain above `lo`, the disk has it up to `lo`. -/
structure Covered (c : Core Block) (lo : Nat) : Prop where
  chain_numbered : Numbered p.number 0 c.chain
  disk_numbered : Numbered p.number 0 c.disk
  head_eq : c.headBlockNum = c.chain.length
  lo_le : lo ≤ c.chain.length
  memory_eq : c.memory = c.chain.drop lo
  disk_eq : c.disk.take lo = c.chain.take lo

structure Inv (c : Core Block) (lo : Nat) : Prop where
  covered : Covered p c lo
  target_le : ∀ t, c.pc = .resetDrain t ∨ c.pc = .resetTruncate t → t ≤ c.chain.length
  flight : ∃ unwinds, Unwinding c unwinds ∧ Flight p c lo unwinds

/-- What all runs keep: memory is the chain above some height. Whether the disk has the chain
    below is left open. -/
structure Steady (c : Core Block) (lo : Nat) : Prop where
  chain_numbered : Numbered p.number 0 c.chain
  disk_numbered : Numbered p.number 0 c.disk
  head_eq : c.headBlockNum = c.chain.length
  lo_le : lo ≤ c.chain.length
  memory_eq : c.memory = c.chain.drop lo
  target_le : ∀ t, c.pc = .resetDrain t ∨ c.pc = .resetTruncate t → t ≤ c.chain.length
  queued : ∀ blocks, .flush blocks ∈ c.queue → ∃ start, Numbered p.number start blocks

variable {p}

/-! ## Facts about the covered chain -/

section Facts

variable {chain memory : List Block} {lo : Nat}

theorem numbered_drop (hchain : Numbered p.number 0 chain) (hlo : lo ≤ chain.length)
    (hmemory : memory = chain.drop lo) : Numbered p.number lo memory := by
  rw [hmemory]
  simpa using hchain.drop hlo

theorem bounds_drop (hchain : Numbered p.number 0 chain) (hlo : lo ≤ chain.length)
    (hmemory : memory = chain.drop lo) {b : Block} (hb : b ∈ memory) :
    lo < p.number b ∧ p.number b ≤ chain.length := by
  have hbounds := (numbered_drop hchain hlo hmemory).bounds hb
  have hlen : memory.length = chain.length - lo := by rw [hmemory, List.length_drop]
  omega

end Facts

section Covered

variable {c : Core Block} {lo : Nat}

theorem Covered.memory_numbered (h : Covered p c lo) : Numbered p.number lo c.memory :=
  numbered_drop h.1 h.lo_le h.memory_eq

theorem Covered.bounds (h : Covered p c lo) {b : Block} (hb : b ∈ c.memory) :
    lo < p.number b ∧ p.number b ≤ c.chain.length := bounds_drop h.1 h.lo_le h.memory_eq hb

theorem Covered.last_number (h : Covered p c lo) {last : Block}
    (hlast : c.memory.getLast? = some last) : p.number last = c.chain.length := by
  rw [h.memory_numbered.getLast? hlast, h.memory_eq, List.length_drop]
  have := h.lo_le
  omega

/-- Every block of the chain is in memory, or on disk at its place. -/
theorem Covered.mem_or_disk (h : Covered p c lo) {i : Nat} {b : Block}
    (hb : c.chain[i]? = some b) : b ∈ c.memory ∨ c.disk[i]? = some b := by
  by_cases hi : i < lo
  · right
    have hd : (c.disk.take lo)[i]? = c.disk[i]? := List.getElem?_take_of_lt hi
    rw [← hd, h.disk_eq, List.getElem?_take_of_lt hi]
    exact hb
  · left
    rw [h.memory_eq]
    have hi' : (c.chain.drop lo)[i - lo]? = some b := by
      rw [List.getElem?_drop]
      have : lo + (i - lo) = i := by omega
      rw [this]
      exact hb
    exact List.mem_of_getElem? hi'

end Covered

/-! ## What all runs keep -/

section Saves

variable {disk disk' blocks : List Block} {start : Nat} {last : Block}

/-- What a successful save puts on disk, when the blocks are numbered from `start`. -/
theorem saveBlocks_eq (hnum : Numbered p.number start blocks) (hl : blocks.getLast? = some last)
    (h : saveBlocks p disk blocks = some disk') :
    start ≤ disk.length ∧ disk' = disk.take start ++ blocks ++ disk.drop (p.number last) := by
  unfold saveBlocks at h
  rw [hl] at h
  split at h
  case h_1 first last' hfirst hlast =>
    cases hlast
    have hn := hnum.head? hfirst
    split at h
    case isTrue hle =>
      cases h
      rw [hn, Nat.add_sub_cancel]
      exact ⟨by omega, rfl⟩
    case isFalse => cases h
  case h_2 => cases h

theorem saveBlocks_numbered (hdisk : Numbered p.number 0 disk)
    (hnum : Numbered p.number start blocks) (hl : blocks.getLast? = some last)
    (hs : saveBlocks p disk blocks = some disk') : Numbered p.number 0 disk' := by
  obtain ⟨hstart, rfl⟩ := saveBlocks_eq hnum hl hs
  have hn : p.number last = start + blocks.length := hnum.getLast? hl
  have htake : (disk.take start).length = start := by rw [List.length_take]; omega
  refine Numbered.append.mpr ⟨Numbered.append.mpr ⟨hdisk.take start, ?_⟩, ?_⟩
  · rw [htake, Nat.zero_add]
    exact hnum
  · rw [List.length_append, htake, ← hn]
    by_cases hle : p.number last ≤ disk.length
    · exact hdisk.drop hle
    · rw [List.drop_eq_nil_of_le (by omega)]
      trivial

end Saves

section Steady

variable {c : Core Block} {s s' : State Block K V} {lo t : Nat}

theorem Steady.memory_numbered (h : Steady p c lo) : Numbered p.number lo c.memory :=
  numbered_drop h.1 h.lo_le h.memory_eq

theorem Steady.setPc (h : Steady p c lo) {pc : Pc}
    (htarget : ∀ t, pc = .resetDrain t ∨ pc = .resetTruncate t → t ≤ c.chain.length) :
    Steady p { c with pc := pc } lo :=
  ⟨h.1, h.2, h.3, h.4, h.5, htarget, h.7⟩

/-- Where memory begins once a result is collected. -/
def collectedFrom [DecidableEq Block] (p : Params Block K V) (c : Core Block) (lo : Nat)
    (r : FlushResult Block) : Nat := if r.last ∈ c.memory then p.number r.last else lo

theorem Steady.collected [DecidableEq Block] (h : Steady p s.toCore lo) (r : FlushResult Block) :
    Steady p (collect p s r).toCore (collectedFrom p s.toCore lo r) := by
  unfold collectedFrom
  by_cases hmem : r.last ∈ s.memory
  · obtain ⟨hlo, hle⟩ := bounds_drop h.1 h.lo_le h.memory_eq hmem
    rw [if_pos hmem]
    refine ⟨h.1, h.2, h.3, hle, ?_, h.6, h.7⟩
    have hfilter := h.memory_numbered.filter_gt (p.number r.last)
    simp only [collect, removePersistedBlocks, if_pos hmem, hfilter]
    rw [h.memory_eq, List.drop_drop]
    congr 1
    omega
  · rw [if_neg hmem]
    refine ⟨h.1, h.2, h.3, h.4, ?_, h.6, h.7⟩
    simp only [collect, removePersistedBlocks, if_neg hmem]
    exact h.memory_eq

theorem Steady.drains [DecidableEq Block] (h : Steady p s.toCore lo) (hd : Drains p s s') :
    (∃ lo', Steady p s'.toCore lo') ∧ s'.chain = s.chain := by
  cases hd with
  | nothing => exact ⟨⟨lo, h⟩, rfl⟩
  | collected r => exact ⟨⟨_, h.collected r⟩, rfl⟩

theorem Steady.flushes (h : Steady p s.toCore lo) (hf : Flushes s s') :
    Steady p s'.toCore lo ∧ s'.chain = s.chain := by
  cases hf with
  | skipped => exact ⟨h, rfl⟩
  | started hp hm =>
    refine ⟨⟨h.1, h.2, h.3, h.4, h.5, h.6, fun blocks hb => ?_⟩, rfl⟩
    rcases List.mem_append.mp hb with hb | hb
    · exact h.queued blocks hb
    · cases List.mem_singleton.mp hb
      exact ⟨lo, h.memory_numbered⟩

/-- A block on top of its parent's chain. With a head of zero memory is empty, and the block goes
    on top of the disk. -/
theorem Steady.commit (h : Steady p s.toCore lo) {b : Block}
    (hb : p.number b = headBlockNumber s + 1) :
    Steady p { (commitBlock p s b).toCore with pc := .committed }
      (if 0 < s.headBlockNum then lo else s.disk.length) := by
  have hparent : Numbered p.number 0 (parentChain s) ∧ p.number b = (parentChain s).length + 1 ∧
      (if 0 < s.headBlockNum then lo else s.disk.length) ≤ (parentChain s).length ∧
      s.memory = (parentChain s).drop (if 0 < s.headBlockNum then lo else s.disk.length) := by
    unfold parentChain
    unfold headBlockNumber at hb
    by_cases hhead : 0 < s.headBlockNum
    · simp only [if_pos hhead] at hb ⊢
      exact ⟨h.1, by rw [hb, h.head_eq], h.lo_le, h.memory_eq⟩
    · simp only [if_neg hhead] at hb ⊢
      have hchain : s.chain = [] := List.length_eq_zero_iff.mp (by have := h.head_eq; omega)
      refine ⟨h.2, hb, Nat.le_refl _, ?_⟩
      rw [h.memory_eq, hchain, List.drop_nil, List.drop_length]
  obtain ⟨hchain, hnum, hlo, hmemory⟩ := hparent
  refine ⟨Numbered.append.mpr ⟨hchain, by simpa using hnum, trivial⟩, h.2, ?_, ?_, ?_, ?_, h.7⟩
  · exact hnum.trans (by simp [commitBlock])
  · exact Nat.le_trans hlo (by simp [commitBlock])
  · exact (congrArg (· ++ [b]) hmemory).trans (List.drop_append_of_le_length hlo).symm
  · rintro t (ht | ht) <;> cases ht

/-- Blocks above the target leave memory and the chain. -/
theorem Steady.truncate (h : Steady p c lo) (hpc : c.pc = .resetTruncate t) :
    Steady p { c with
      memory := c.memory.filter (fun b => p.number b ≤ t)
      headBlockNum := t
      queue := c.queue ++ [.unwind t]
      chain := c.chain.take t
      pc := .awaitUnwind t } (min lo t) := by
  have ht : t ≤ c.chain.length := h.target_le t (.inr hpc)
  have hlen : (c.chain.take t).length = t := by rw [List.length_take]; omega
  refine ⟨h.1.take t, h.2, hlen.symm, ?_, ?_, ?_, ?_⟩
  · rw [hlen]
    exact Nat.min_le_right lo t
  · rw [h.memory_numbered.filter_le t, h.memory_eq, ← List.drop_take]
    by_cases hlo : lo ≤ t
    · rw [Nat.min_eq_left hlo]
    · rw [Nat.min_eq_right (by omega), List.drop_eq_nil_of_le (by omega),
        List.drop_eq_nil_of_le (Nat.le_of_eq hlen)]
  · rintro t' (ht' | ht') <;> cases ht'
  · intro blocks hb
    rcases List.mem_append.mp hb with hb | hb
    · exact h.queued blocks hb
    · cases List.mem_singleton.mp hb

theorem Steady.move [DecidableEq Block] {a : Action Block} (h : Steady p s.toCore lo) (hm : Move p s a s') :
    ∃ lo', Steady p s'.toCore lo' := by
  cases hm with
  | produce hpc hf hpc' =>
    refine ⟨lo, (h.flushes hf).1.setPc ?_⟩
    rintro t (ht | ht) <;> rcases hpc' with rfl | rfl <;> cases ht
  | pollFlush hpc hd hpc' =>
    obtain ⟨⟨lo', h'⟩, -⟩ := h.drains hd
    refine ⟨lo', h'.setPc ?_⟩
    rintro t (ht | ht) <;> rcases hpc' with rfl | rfl <;> cases ht
  | drain hpc hd =>
    obtain ⟨⟨lo', h'⟩, -⟩ := h.drains hd
    refine ⟨lo', h'.setPc ?_⟩
    rintro t (ht | ht) <;> cases ht
  | commit b hpc hb => exact ⟨_, h.commit hb⟩
  | abort root hpc =>
    refine ⟨lo, h.setPc ?_⟩
    rintro t (ht | ht) <;> cases ht
  | finishProduce hpc hf =>
    refine ⟨lo, (h.flushes hf).1.setPc ?_⟩
    rintro t (ht | ht) <;> cases ht
  | reset target hpc ht =>
    refine ⟨lo, h.setPc ?_⟩
    rintro t (ht' | ht') <;> cases ht'
    rw [← h.head_eq]
    exact Nat.le_of_lt ht
  | drainForReset target hpc hd =>
    obtain ⟨⟨lo', h'⟩, hchain⟩ := h.drains hd
    refine ⟨lo', h'.setPc ?_⟩
    rintro t (ht' | ht') <;> cases ht'
    rw [hchain]
    exact h.target_le target (.inl hpc)
  | truncate target hpc => exact ⟨_, h.truncate hpc⟩
  | unwoundSeen target ok hpc hu =>
    refine ⟨lo, h.1, h.2, h.3, h.4, h.5, ?_, h.7⟩
    rintro t (ht | ht) <;> cases ht
  | saveOk hq hf hl hs =>
    obtain ⟨start, hnum⟩ := h.queued _ (by rw [hq]; exact List.mem_cons_self)
    refine ⟨lo, h.1, saveBlocks_numbered h.2 hnum hl hs, h.3, h.4, h.5, h.6, fun blocks hb => ?_⟩
    exact h.queued blocks (by rw [hq]; exact List.mem_cons_of_mem _ hb)
  | saveFailed hq hf hl =>
    refine ⟨lo, h.1, h.2, h.3, h.4, h.5, h.6, fun blocks hb => ?_⟩
    exact h.queued blocks (by rw [hq]; exact List.mem_cons_of_mem _ hb)
  | send hf hr => exact ⟨lo, h.1, h.2, h.3, h.4, h.5, h.6, h.7⟩
  | unwind ok hq hf =>
    refine ⟨lo, h.1, ?_, h.3, h.4, h.5, h.6, fun blocks hb => ?_⟩
    · cases ok with
      | true => exact h.2.take _
      | false => exact h.2
    · exact h.queued blocks (by rw [hq]; exact List.mem_cons_of_mem _ hb)

end Steady

/-! ## Each move keeps the invariant -/

section Moves

variable {c : Core Block} {lo : Nat}

/-- When the producer does not wait, nothing but a flush is queued. -/
theorem Inv.flight_calm (h : Inv p c lo) (hpc : ¬ c.pc.Awaiting) :
    c.unwound = none ∧ Flight p c lo [] := by
  obtain ⟨unwinds, hun, hfl⟩ := h.flight
  cases hun with
  | none _ hu => exact ⟨hu, hfl⟩
  | asked t hpc' => exact absurd ⟨t, hpc'⟩ hpc
  | answered t ok hpc' => exact absurd ⟨t, hpc'⟩ hpc

/-- Without a pending flush all channels are empty. -/
theorem Flight.idle {unwinds : List (Request Block)} (h : Flight p c lo unwinds)
    (hp : c.pendingFlush = false) : c.queue = unwinds ∧ c.finishing = none ∧ c.result = none := by
  cases h with
  | quiet _ hq hf hr => exact ⟨hq, hf, hr⟩
  | queued _ _ _ hp' => rw [hp] at hp'; cases hp'
  | saved _ hp' => rw [hp] at hp'; cases hp'
  | sent _ hp' => rw [hp] at hp'; cases hp'

theorem Unwinding.no_flush {unwinds : List (Request Block)} (h : Unwinding c unwinds)
    (blocks : List Block) : .flush blocks ∉ unwinds := by
  cases h with
  | none | asked | answered => simp

theorem Inv.steady (h : Inv p c lo) : Steady p c lo := by
  have hcov := h.covered
  refine ⟨hcov.1, hcov.2, hcov.3, hcov.4, hcov.5, h.target_le, fun blocks hmem => ?_⟩
  obtain ⟨unwinds, hun, hfl⟩ := h.flight
  cases hfl with
  | quiet _ hq | saved _ _ hq | sent _ _ hq => exact absurd (hq ▸ hmem) (hun.no_flush blocks)
  | queued blocks' last start _ hq _ _ _ hnum =>
    rw [hq] at hmem
    rcases List.mem_cons.mp hmem with heq | hmem
    · cases heq
      exact ⟨start, hnum⟩
    · exact absurd hmem (hun.no_flush blocks)

/-- Moving on inside the producer. A result that is in the channel when a production gets past
    its drain must be fresh; none is when the channel is empty. -/
theorem Inv.setPc (h : Inv p c lo) {pc : Pc} (hfrom : ¬ c.pc.Awaiting) (hto : ¬ pc.Awaiting)
    (hprod : pc.Producing → c.pc.Producing ∨ c.result = none)
    (htarget : ∀ t, pc = .resetDrain t ∨ pc = .resetTruncate t → t ≤ c.chain.length) :
    Inv p { c with pc := pc } lo := by
  obtain ⟨hu, hfl⟩ := h.flight_calm hfrom
  have hcov := h.covered
  refine ⟨{ hcov with }, htarget, [], .none hto hu, ?_⟩
  cases hfl with
  | quiet hp hq hf hr => exact .quiet hp hq hf hr
  | queued blocks last start hp hq hf hr hl hnum hlo hseg hfresh =>
    exact .queued blocks last start hp hq hf hr hl hnum hlo hseg (fun _ => hfresh hfrom)
  | saved r hp hq hf hr hrep hfresh =>
    exact .saved r hp hq hf hr hrep (fun _ => hfresh hfrom)
  | sent r hp hq hf hr hrep hfresh =>
    refine .sent r hp hq hf hr hrep (fun hpc => ?_)
    rcases hprod hpc with hold | hnone
    · exact hfresh hold
    · rw [hnone] at hr
      cases hr

theorem Inv.startFlush (h : Inv p c lo) (hpc : ¬ c.pc.Awaiting) (hp : c.pendingFlush = false)
    (hm : c.memory ≠ []) :
    Inv p { c with pendingFlush := true, queue := c.queue ++ [.flush c.memory] } lo := by
  obtain ⟨hu, hfl⟩ := h.flight_calm hpc
  have hcov := h.covered
  refine ⟨{ hcov with }, h.target_le, [], .none hpc hu, ?_⟩
  obtain ⟨hq, hf, hr⟩ := hfl.idle hp
  obtain ⟨last, hlast⟩ := Option.isSome_iff_exists.mp (List.getLast?_isSome.mpr hm)
  refine .queued c.memory last lo rfl ?_ hf hr hlast hcov.memory_numbered (Nat.le_refl lo)
    (fun _ => ?_) (fun _ => List.mem_of_getLast? hlast)
  · rw [hq]
    rfl
  · rw [hcov.last_number hlast, List.take_length]
    exact hcov.memory_eq

variable {t : Nat} {s : State Block K V} {rest : List (Request Block)} {start : Nat} {last : Block}
  {r : FlushResult Block}

/-- A result is collected: when its last block is in memory, the disk has the chain up to it. -/
theorem Inv.collected [DecidableEq Block] (h : Inv p s.toCore lo) (hpc : ¬ s.pc.Awaiting)
    (hr : s.result = some r) (hgood : r.count = 0 → r.last ∉ s.memory) :
    Inv p (collect p s r).toCore (collectedFrom p s.toCore lo r) := by
  obtain ⟨hu, hfl⟩ := h.flight_calm hpc
  have hsteady := h.steady.collected r
  cases hfl with
  | quiet _ _ _ hr' => rw [hr'] at hr; cases hr
  | queued _ _ _ _ _ _ hr' => rw [hr'] at hr; cases hr
  | saved _ _ _ _ hr' => rw [hr'] at hr; cases hr
  | sent r' hp hq hf hr' hrep hfresh =>
    rw [hr] at hr'
    cases hr'
    refine ⟨⟨hsteady.1, hsteady.2, hsteady.3, hsteady.4, hsteady.5, ?_⟩, hsteady.6, [], .none hpc hu,
      .quiet rfl hq hf rfl⟩
    unfold collectedFrom
    by_cases hmem : r.last ∈ s.memory
    · rw [if_pos hmem]
      exact hrep (fun h0 => hgood h0 hmem) hmem
    · rw [if_neg hmem]
      exact h.covered.disk_eq

/-- A production past its drain has no stale flush to fear: whatever is in flight ends in a
    block of memory. -/
theorem Inv.flight_fresh (h : Inv p c lo) (hpc : c.pc.Producing) :
    Flight p c lo [] ∧ (c.memory = [] → c.pendingFlush = false) := by
  have hcalm := not_awaiting_of_producing hpc
  obtain ⟨-, hfl⟩ := h.flight_calm hcalm
  refine ⟨hfl, fun hnil => ?_⟩
  cases hfl with
  | quiet hp => exact hp
  | queued blocks last _ _ _ _ _ _ _ _ _ hfresh =>
    have hmem := hfresh hcalm
    rw [hnil] at hmem
    cases hmem
  | saved r _ _ _ _ _ hfresh =>
    have hmem := hfresh hcalm
    rw [hnil] at hmem
    cases hmem
  | sent r _ _ _ _ _ hfresh =>
    have hmem := hfresh hpc
    rw [hnil] at hmem
    cases hmem

/-- A block on top of the chain. Everything in flight ends at or below the old head; with a head
    of zero nothing is in flight. -/
theorem Inv.commit (h : Inv p s.toCore lo) (hpc : s.pc = .executing) {b : Block}
    (hb : p.number b = headBlockNumber s + 1) :
    Inv p { (commitBlock p s b).toCore with pc := .committed }
      (if 0 < s.headBlockNum then lo else s.disk.length) := by
  have hcov := h.covered
  have hsteady := h.steady.commit hb
  have hcalm := not_awaiting_of_producing (.inl hpc)
  obtain ⟨hu, -⟩ := h.flight_calm hcalm
  obtain ⟨hfl, hquiet⟩ := h.flight_fresh (.inl hpc)
  refine ⟨⟨hsteady.1, hsteady.2, hsteady.3, hsteady.4, hsteady.5, ?_⟩, hsteady.6, [],
    .none (calm rfl (by simp)) hu, ?_⟩
  all_goals unfold commitBlock parentChain
  all_goals by_cases hhead : 0 < s.headBlockNum
  all_goals simp only [hhead, if_true, if_false]
  · rw [List.take_append_of_le_length hcov.lo_le]
    exact hcov.disk_eq
  · rw [List.take_append_of_le_length (Nat.le_refl _)]
  · have hkeep : ∀ x ∈ s.memory, (s.chain ++ [b]).take (p.number x) = s.chain.take (p.number x) :=
      fun x hx => List.take_append_of_le_length (hcov.bounds hx).2
    cases hfl with
    | quiet hp hq hf hr => exact .quiet hp hq hf hr
    | queued blocks last start hp hq hf hr hl hnum hlo hseg hfresh =>
      have hmem := hfresh hcalm
      refine .queued blocks last start hp hq hf hr hl hnum hlo (fun _ => ?_)
        (fun _ => List.mem_append_left _ hmem)
      rw [hkeep last hmem]
      exact hseg hmem
    | saved r hp hq hf hr hrep hfresh =>
      have hmem := hfresh hcalm
      refine .saved r hp hq hf hr (fun hcount _ => ?_) (fun _ => List.mem_append_left _ hmem)
      rw [hkeep r.last hmem]
      exact hrep hcount hmem
    | sent r hp hq hf hr hrep hfresh =>
      have hmem := hfresh (.inl hpc)
      refine .sent r hp hq hf hr (fun hcount _ => ?_) (fun _ => List.mem_append_left _ hmem)
      rw [hkeep r.last hmem]
      exact hrep hcount hmem
  · have hmem : s.memory = [] := by
      have hchain : s.chain = [] := List.length_eq_zero_iff.mp (by have := hcov.head_eq; omega)
      rw [hcov.memory_eq, hchain, List.drop_nil]
    have hp := hquiet hmem
    obtain ⟨hq, hf, hr⟩ := hfl.idle hp
    exact .quiet hp hq hf hr

/-- Blocks above the target leave memory and the chain, and an unwind is asked for. -/
theorem Inv.truncate (h : Inv p c lo) (hpc : c.pc = .resetTruncate t) :
    Inv p { c with
      memory := c.memory.filter (fun b => p.number b ≤ t)
      headBlockNum := t
      queue := c.queue ++ [.unwind t]
      chain := c.chain.take t
      pc := .awaitUnwind t } (min lo t) := by
  have hcov := h.covered
  have hsteady := h.steady.truncate hpc
  obtain ⟨hu, hfl⟩ := h.flight_calm (calm hpc (by simp))
  -- what is left in memory was there before, at or below the target
  have hleft : ∀ x ∈ c.memory.filter (fun b => p.number b ≤ t), x ∈ c.memory ∧ p.number x ≤ t :=
    fun x hx => ⟨(List.mem_filter.mp hx).1, by simpa using (List.mem_filter.mp hx).2⟩
  have hrep : ∀ r, Reported p c r → Reported p { c with
      memory := c.memory.filter (fun b => p.number b ≤ t)
      headBlockNum := t
      queue := c.queue ++ [.unwind t]
      chain := c.chain.take t
      pc := .awaitUnwind t } r := by
    intro r hr hcount hmem
    obtain ⟨hmem', hle⟩ := hleft r.last hmem
    rw [hr hcount hmem', List.take_take, Nat.min_eq_left hle]
  refine ⟨⟨hsteady.1, hsteady.2, hsteady.3, hsteady.4, hsteady.5, ?_⟩, hsteady.6, [.unwind t],
    .asked t rfl hsteady.head_eq.symm hu, ?_⟩
  · have hcut := congrArg (List.take (min lo t)) hcov.disk_eq
    rw [List.take_take, List.take_take, Nat.min_eq_left (Nat.min_le_left lo t)] at hcut
    rw [hcut, List.take_take, Nat.min_eq_left (Nat.min_le_right lo t)]
  · have hawait : ¬ ¬ Pc.Awaiting (.awaitUnwind t) := fun hn => hn ⟨t, rfl⟩
    cases hfl with
    | quiet hp hq hf hr =>
      refine .quiet hp ?_ hf hr
      rw [hq]
      rfl
    | queued blocks last start hp hq hf hr hl hnum hlo hseg hfresh =>
      refine .queued blocks last start hp ?_ hf hr hl hnum
        (Nat.le_trans (Nat.min_le_left lo t) hlo) (fun hmem => ?_) (fun hn => absurd hn hawait)
      · rw [hq]
        rfl
      · obtain ⟨hmem', hle⟩ := hleft last hmem
        have hbounds := hcov.bounds hmem'
        rw [List.take_take, Nat.min_eq_left hle, Nat.min_eq_left (by omega : lo ≤ t)]
        exact hseg hmem'
    | saved r hp hq hf hr hrep' hfresh =>
      refine .saved r hp ?_ hf hr (hrep r hrep') (fun hn => absurd hn hawait)
      rw [hq]
      rfl
    | sent r hp hq hf hr hrep' hfresh =>
      refine .sent r hp ?_ hf hr (hrep r hrep') (fun hn => ?_)
      · rw [hq]
        rfl
      · rcases hn with hn | hn <;> cases hn

/-- A flush at the front of the queue is the flush in flight. -/
structure AtFront (p : Params Block K V) (c : Core Block) (lo : Nat) (blocks : List Block)
    (last : Block) (rest : List (Request Block)) (start : Nat) : Prop where
  pending : c.pendingFlush = true
  unwinding : ∀ disk finishing, Unwinding { c with queue := rest, disk := disk, finishing := finishing } rest
  result : c.result = none
  numbered : Numbered p.number start blocks
  lo_le : lo ≤ start
  segment : last ∈ c.memory → blocks = (c.chain.take (p.number last)).drop lo
  fresh : ¬ c.pc.Awaiting → last ∈ c.memory

theorem Inv.atFront {blocks : List Block} (h : Inv p c lo) (hq : c.queue = .flush blocks :: rest)
    (hl : blocks.getLast? = some last) : ∃ start, AtFront p c lo blocks last rest start := by
  obtain ⟨unwinds, hun, hfl⟩ := h.flight
  have hne : c.queue ≠ unwinds := by
    rw [hq]
    cases hun with
    | none | asked => simp
    | answered => simp
  cases hfl with
  | quiet _ hq' => exact absurd hq' hne
  | saved _ _ hq' => exact absurd hq' hne
  | sent _ _ hq' => exact absurd hq' hne
  | queued blocks' last' start hp hq' hf hr hl' hnum hlo hseg hfresh =>
    rw [hq] at hq'
    cases hq'
    rw [hl] at hl'
    cases hl'
    refine ⟨start, hp, fun disk finishing => ?_, hr, hnum, hlo, hseg, hfresh⟩
    cases hun with
    | none hpc hu => exact .none hpc hu
    | asked t hpc hlen hu => exact .asked t hpc hlen hu
    | answered t ok hpc hu hq' hf' =>
      rw [hq] at hq'
      cases hq'

/-- When the last block is still in memory, the save puts the chain up to it on disk. -/
theorem AtFront.disk_eq {blocks disk : List Block} (hfront : AtFront p c lo blocks last rest start)
    (hcov : Covered p c lo) (hl : blocks.getLast? = some last)
    (hs : saveBlocks p c.disk blocks = some disk) (hmem : last ∈ c.memory) :
    disk = c.chain.take (p.number last) ++ c.disk.drop (p.number last) := by
  obtain ⟨hstart, rfl⟩ := saveBlocks_eq hfront.numbered hl hs
  -- The blocks are the chain from `lo` to the last one, so `start` is `lo`.
  have hblocks := hfront.segment hmem
  have hbounds := hcov.bounds hmem
  have hn := hfront.numbered.getLast? hl
  have hlen := congrArg List.length hblocks
  rw [List.length_drop, List.length_take] at hlen
  have hstart_eq : start = lo := by omega
  subst hstart_eq
  congr 1
  rw [hcov.disk_eq, hblocks]
  conv_rhs => rw [← List.take_append_drop start (c.chain.take (p.number last)), List.take_take,
    Nat.min_eq_left (by omega)]

/-- A saved flush leaves the disk below `lo` alone. -/
theorem Inv.saveOk {blocks disk : List Block} (h : Inv p c lo)
    (hq : c.queue = .flush blocks :: rest) (hl : blocks.getLast? = some last)
    (hs : saveBlocks p c.disk blocks = some disk) :
    Inv p { c with queue := rest, disk := disk, finishing := some ⟨last, blocks.length⟩ } lo := by
  have hcov := h.covered
  obtain ⟨start, hfront⟩ := h.atFront hq hl
  have hnum := hfront.numbered
  have hlo := hfront.lo_le
  obtain ⟨hstart, rfl⟩ := saveBlocks_eq hnum hl hs
  have hn : p.number last = start + blocks.length := hnum.getLast? hl
  have htake : (c.disk.take start).length = start := by rw [List.length_take]; omega
  have hlow : (c.disk.take start ++ blocks ++ c.disk.drop (p.number last)).take lo =
      c.disk.take lo := by
    rw [List.append_assoc, List.take_append_of_le_length (by omega), List.take_take,
      Nat.min_eq_left hlo]
  refine ⟨⟨hcov.1, saveBlocks_numbered hcov.2 hnum hl hs, hcov.3, hcov.4, hcov.5,
    hlow.trans hcov.disk_eq⟩, h.target_le, rest, hfront.unwinding _ _, ?_⟩
  · refine .saved ⟨last, blocks.length⟩ hfront.pending rfl rfl hfront.result (fun _ hmem => ?_)
      hfront.fresh
    have hbounds := hcov.bounds hmem
    have hdisk := hfront.disk_eq hcov hl hs hmem
    exact (congrArg (List.take (p.number last)) hdisk).trans
      (List.take_left' (by rw [List.length_take]; exact Nat.min_eq_left hbounds.2))

theorem Inv.saveFailed {blocks : List Block} (h : Inv p c lo)
    (hq : c.queue = .flush blocks :: rest) (hl : blocks.getLast? = some last) :
    Inv p { c with queue := rest, finishing := some ⟨last, 0⟩ } lo := by
  have hcov := h.covered
  obtain ⟨start, hfront⟩ := h.atFront hq hl
  refine ⟨{ hcov with }, h.target_le, rest,
    hfront.unwinding _ _, ?_⟩
  exact .saved ⟨last, 0⟩ hfront.pending rfl rfl hfront.result (fun hcount => absurd rfl hcount)
    hfront.fresh

theorem Inv.send (h : Inv p c lo) (hf : c.finishing = some r) :
    Inv p { c with finishing := none, result := some r } lo := by
  have hcov := h.covered
  obtain ⟨unwinds, hun, hfl⟩ := h.flight
  refine ⟨{ hcov with }, h.target_le, unwinds, ?_, ?_⟩
  · cases hun with
    | none hpc hu => exact .none hpc hu
    | asked t hpc hlen hu => exact .asked t hpc hlen hu
    | answered t ok hpc hu hq hf' => exact .answered t ok hpc hu hq rfl
  · cases hfl with
    | saved r' hp hq hf' hr hrep hfresh =>
      rw [hf] at hf'
      cases hf'
      exact .sent r hp hq rfl rfl hrep (fun hpc => hfresh (not_awaiting_of_producing hpc))
    | quiet _ _ hf' => rw [hf] at hf'; cases hf'
    | queued _ _ _ _ _ hf' => rw [hf] at hf'; cases hf'
    | sent _ _ _ hf' => rw [hf] at hf'; cases hf'

/-- An unwind cuts the disk where the chain ends. -/
theorem Inv.unwind (h : Inv p c lo) (ok : Bool) (hq : c.queue = .unwind t :: rest)
    (hf : c.finishing = none) :
    Inv p { c with
      queue := rest
      disk := if ok then c.disk.take t else c.disk
      unwound := some ok } lo := by
  have hcov := h.covered
  obtain ⟨unwinds, hun, hfl⟩ := h.flight
  -- the request is the one the producer waits for, and no flush is before it
  have hasked : unwinds = .unwind t :: rest ∧
      (c.pendingFlush = false ∧ c.result = none ∨
        ∃ r, c.pendingFlush = true ∧ c.result = some r ∧ Reported p c r ∧
          (c.pc.Producing → r.last ∈ c.memory)) := by
    cases hfl with
    | quiet hp hq' _ hr => exact ⟨hq'.symm.trans hq, .inl ⟨hp, hr⟩⟩
    | queued _ _ _ _ hq' => rw [hq] at hq'; cases hq'
    | saved _ _ _ hf' => rw [hf] at hf'; cases hf'
    | sent r hp hq' _ hr hrep hfresh =>
      exact ⟨hq'.symm.trans hq, .inr ⟨r, hp, hr, hrep, hfresh⟩⟩
  obtain ⟨rfl, hstate⟩ := hasked
  cases hun with
  | asked t hpc hlen hu =>
    -- below the end of the chain the disk stays as it is
    have hkeep : ∀ n ≤ c.chain.length,
        (if ok then c.disk.take c.chain.length else c.disk).take n = c.disk.take n := by
      intro n hn
      cases ok with
      | true => exact (List.take_take ..).trans (by rw [Nat.min_eq_left hn])
      | false => rfl
    have hrep : ∀ r, Reported p c r → Reported p { c with
        queue := []
        disk := if ok then c.disk.take t else c.disk
        unwound := some ok } r := by
      intro r hr hcount hmem
      rw [← hr hcount hmem, ← hlen]
      exact hkeep _ (hcov.bounds hmem).2
    refine ⟨⟨hcov.1, ?_, hcov.3, hcov.4, hcov.5, ?_⟩, h.target_le, [],
      .answered t ok hpc rfl rfl hf, ?_⟩
    · cases ok with
      | true => exact hcov.2.take t
      | false => exact hcov.2
    · rw [← hcov.disk_eq, ← hlen]
      exact hkeep lo hcov.lo_le
    · obtain ⟨hp, hr⟩ | ⟨r, hp, hr, hrep', hfresh⟩ := hstate
      · exact .quiet hp rfl hf hr
      · exact .sent r hp rfl hf hr (hrep r hrep') hfresh

/-- The producer sees the answer and goes on. A stale result is in the channel by now. -/
theorem Inv.unwoundSeen {ok : Bool} (h : Inv p c lo) (hpc : c.pc = .awaitUnwind t)
    (hu : c.unwound = some ok) : Inv p { c with unwound := none, pc := .idle } lo := by
  have hcov := h.covered
  have hidle : ¬ Pc.Awaiting .idle := calm rfl (by simp)
  obtain ⟨unwinds, hun, hfl⟩ := h.flight
  refine ⟨{ hcov with }, ?_, [], .none hidle rfl, ?_⟩
  · rintro t (ht | ht) <;> cases ht
  cases hun with
  | none hpc' => exact absurd ⟨t, hpc⟩ hpc'
  | asked _ _ _ hu' => rw [hu] at hu'; cases hu'
  | answered _ _ _ _ hq hf =>
    cases hfl with
    | quiet hp hq' hf' hr => exact .quiet hp hq' hf' hr
    | queued _ _ _ _ hq' => rw [hq] at hq'; cases hq'
    | saved _ _ _ hf' => rw [hf] at hf'; cases hf'
    | sent r hp hq' hf' hr hrep _ =>
      refine .sent r hp hq' hf' hr hrep (fun hn => ?_)
      rcases hn with hn | hn <;> cases hn

end Moves

/-! ## All moves -/

section Steps

variable [DecidableEq Block]

/-- An action that may collect a flush result. -/
def Action.collects : Action Block → Bool
  | .pollFlush => true
  | .drain => true
  | .drainForReset => true
  | _ => false

/-- The action collects no failed flush (count zero) whose last block is still in memory. -/
def NoFailedCollected (s : State Block K V) (a : Action Block) : Prop :=
  a.collects = true → ∀ r, s.result = some r → r.count = 0 → r.last ∉ s.memory

instance (s : State Block K V) (a : Action Block) : Decidable (NoFailedCollected s a) :=
  match hr : s.result with
  | none => .isTrue fun _ _ hr' => (nomatch hr.symm.trans hr')
  | some r => decidable_of_iff (a.collects = true → r.count = 0 → r.last ∉ s.memory)
      ⟨fun h ha _ hr' => Option.some.inj (hr.symm.trans hr') ▸ h ha, fun h ha => h ha r hr⟩

variable {s s' : State Block K V}

theorem Inv.drains {lo : Nat} (h : Inv p s.toCore lo) (hpc : ¬ s.pc.Awaiting)
    (hgood : ∀ r, s.result = some r → r.count = 0 → r.last ∉ s.memory) (hd : Drains p s s') :
    ∃ lo', Inv p s'.toCore lo' ∧ s'.pc = s.pc ∧ s'.result = none := by
  cases hd with
  | nothing hnone =>
    refine ⟨lo, h, rfl, ?_⟩
    rcases hnone with hp | hr
    · exact ((h.flight_calm hpc).2.idle hp).2.2
    · exact hr
  | collected r hp hr =>
    exact ⟨_, h.collected hpc hr (hgood r hr), rfl, rfl⟩

omit [DecidableEq Block] in
theorem Inv.flushes {s s' : State Block K V} {lo : Nat} (h : Inv p s.toCore lo)
    (hpc : ¬ s.pc.Awaiting) (hf : Flushes s s') :
    Inv p s'.toCore lo ∧ s'.pc = s.pc ∧ (s.result = none → s'.result = none) := by
  cases hf with
  | skipped => exact ⟨h, rfl, id⟩
  | started hp hm => exact ⟨h.startFlush hpc hp hm, rfl, id⟩

theorem Inv.move {a : Action Block} {lo : Nat} (h : Inv p s.toCore lo)
    (hok : NoFailedCollected s a) (hm : Move p s a s') : ∃ lo', Inv p s'.toCore lo' := by
  have htarget := (h.steady.move hm).choose_spec.target_le
  cases hm with
  | @produce s₁ pc hpc hf hpc' =>
    have hcalm : ¬ s.pc.Awaiting := calm hpc (by simp)
    obtain ⟨h₁, hpc₁, -⟩ := h.flushes hcalm hf
    refine ⟨lo, h₁.setPc (hpc₁ ▸ hcalm) ?_ ?_ htarget⟩
    · rcases hpc' with rfl | rfl <;> exact calm rfl (by simp)
    · rintro (hprod | hprod) <;> rcases hpc' with rfl | rfl <;> cases hprod
  | @pollFlush s₁ pc hpc hd hpc' =>
    have hcalm : ¬ s.pc.Awaiting := calm hpc (by simp)
    obtain ⟨lo', h₁, hpc₁, -⟩ := h.drains hcalm (hok rfl) hd
    refine ⟨lo', h₁.setPc (hpc₁ ▸ hcalm) ?_ ?_ htarget⟩
    · rcases hpc' with rfl | rfl <;> exact calm rfl (by simp)
    · rintro (hprod | hprod) <;> rcases hpc' with rfl | rfl <;> cases hprod
  | drain hpc hd =>
    have hcalm : ¬ s.pc.Awaiting := calm hpc (by simp)
    obtain ⟨lo', h₁, hpc₁, hres⟩ := h.drains hcalm (hok rfl) hd
    exact ⟨lo', h₁.setPc (hpc₁ ▸ hcalm) (calm rfl (by simp)) (fun _ => .inr hres) htarget⟩
  | commit b hpc hb => exact ⟨_, h.commit hpc hb⟩
  | abort root hpc =>
    refine ⟨lo, h.setPc (calm hpc (by simp)) (calm rfl (by simp)) ?_ htarget⟩
    rintro (hprod | hprod) <;> cases hprod
  | finishProduce hpc hf =>
    have hcalm : ¬ s.pc.Awaiting := calm hpc (by simp)
    obtain ⟨h₁, hpc₁, -⟩ := h.flushes hcalm hf
    refine ⟨lo, h₁.setPc (hpc₁ ▸ hcalm) (calm rfl (by simp)) ?_ htarget⟩
    rintro (hprod | hprod) <;> cases hprod
  | reset target hpc ht =>
    refine ⟨lo, h.setPc (calm hpc (by simp)) (calm rfl (by simp)) ?_ htarget⟩
    rintro (hprod | hprod) <;> cases hprod
  | drainForReset target hpc hd =>
    have hcalm : ¬ s.pc.Awaiting := calm hpc (by simp)
    obtain ⟨lo', h₁, hpc₁, -⟩ := h.drains hcalm (hok rfl) hd
    refine ⟨lo', h₁.setPc (hpc₁ ▸ hcalm) (calm rfl (by simp)) ?_ htarget⟩
    rintro (hprod | hprod) <;> cases hprod
  | truncate target hpc => exact ⟨_, h.truncate hpc⟩
  | unwoundSeen target ok hpc hu => exact ⟨lo, h.unwoundSeen hpc hu⟩
  | saveOk hq hf hl hs => exact ⟨lo, h.saveOk hq hl hs⟩
  | saveFailed hq hf hl => exact ⟨lo, h.saveFailed hq hl⟩
  | send hf hr => exact ⟨lo, h.send hf⟩
  | unwind ok hq hf => exact ⟨lo, h.unwind ok hq hf⟩

end Steps

end Arbreth.Producer
