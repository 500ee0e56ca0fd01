/-
  No produced block is lost, as long as no failed flush is taken for a successful one.
-/
import Arbreth.Producer.Invariant

namespace Arbreth.Producer

open Arbreth.Lib

section Runs

variable {Block K V : Type} {p : Params Block K V} [DecidableEq Block]

omit [DecidableEq Block] in
theorem inv_startup {disk : List Block} (hdisk : Numbered p.number 0 disk) :
    Inv p (State.startup disk : State Block K V).toCore disk.length where
  covered := ⟨hdisk, hdisk, rfl, Nat.le_refl _, (List.drop_length).symm, rfl⟩
  target_le := by rintro t (ht | ht) <;> cases ht
  flight := ⟨[], .none (Pc.calm (rfl : _ = Pc.idle) (by simp)) rfl, .quiet rfl rfl rfl rfl⟩

theorem inv_reachable {disk : List Block} (hdisk : Numbered p.number 0 disk)
    {actions : List (Action Block)} {s : State Block K V}
    (hok : Along (step p) NoFailedCollected (State.startup disk) actions)
    (hrun : exec (step p) (State.startup disk) actions = some s) : ∃ lo, Inv p s.toCore lo := by
  have hstep : ∀ (s : State Block K V) (a : Action Block) (s' : State Block K V),
      (∃ lo, Inv p s.toCore lo) → NoFailedCollected s a → step p s a = some s' →
        ∃ lo, Inv p s'.toCore lo :=
    fun s a s' ⟨lo, hinv⟩ ha hs => hinv.move ha (step_moves hs)
  exact exec_invariant hstep ⟨_, inv_startup hdisk⟩ hok hrun

/-- **No produced block is lost** in a run that collects no failed flush while its blocks are in
    memory: the current chain reaches up to the head, and each of its blocks is in memory or on
    disk at its number. -/
theorem no_block_lost (p : Params Block K V) (disk : List Block)
    (hdisk : Numbered p.number 0 disk) (actions : List (Action Block)) (s : State Block K V)
    (hok : Along (step p) NoFailedCollected (State.startup disk) actions)
    (hrun : exec (step p) (State.startup disk) actions = some s) :
    ∀ n, 0 < n → n ≤ s.headBlockNum → ∃ b, s.chain[n - 1]? = some b ∧ p.number b = n ∧
      (b ∈ s.memory ∨ s.disk[n - 1]? = some b) := by
  obtain ⟨lo, hinv⟩ := inv_reachable hdisk hok hrun
  have hcov := hinv.covered
  intro n hpos hn
  have hlt : n - 1 < s.chain.length := by
    have := hcov.head_eq
    omega
  have hget : s.chain[n - 1]? = some s.chain[n - 1] := List.getElem?_eq_getElem hlt
  refine ⟨_, hget, ?_, hcov.mem_or_disk hget⟩
  rw [hcov.chain_numbered.get hget]
  omega

end Runs

/-! ## A run that loses a block, and one that does not -/

/-- Blocks named by their numbers, one key, and a flush after every block. -/
def eachFlushed : Params Nat Unit Nat where
  number := id
  hashedState := fun b _ => some b
  interval := 1
  maxInflight := 10

/-- Block 1 is produced and its flush is handled; the next production collects the result. -/
def oneFlushed (saved : Bool) : List (Action Nat) :=
  [.produce, .drain, .commit 1, .finishProduce, .save saved, .send, .produce, .drain]

/-- When the save fails, block 1 is dropped from memory all the same: the head is found nowhere,
    and no block can be produced on it. -/
theorem failed_flush_loses_block :
    ∃ s, exec (step eachFlushed) (State.startup []) (oneFlushed false) = some s ∧
      s.headBlockNum = 1 ∧ s.memory = [] ∧ s.disk = [] ∧ (step eachFlushed s (.commit 2)).isNone ∧
      ¬ ∀ n, 0 < n → n ≤ s.headBlockNum → ∃ b, s.chain[n - 1]? = some b ∧ eachFlushed.number b = n ∧
        (b ∈ s.memory ∨ s.disk[n - 1]? = some b) := by
  refine ⟨_, rfl, rfl, rfl, rfl, rfl, fun h => ?_⟩
  obtain ⟨b, -, -, hmem | hdisk⟩ := h 1 (by decide) (by decide)
  · exact absurd hmem List.not_mem_nil
  · cases hdisk

theorem no_block_lost_twoBlocks :
    ∃ s, exec (step eachFlushed) (State.startup []) (oneFlushed true ++ [.commit 2]) = some s ∧
      ∀ n, 0 < n → n ≤ s.headBlockNum → ∃ b, s.chain[n - 1]? = some b ∧ eachFlushed.number b = n ∧
        (b ∈ s.memory ∨ s.disk[n - 1]? = some b) :=
  ⟨_, rfl, no_block_lost eachFlushed [] trivial (oneFlushed true ++ [.commit 2]) _ (by decide) rfl⟩

end Arbreth.Producer
