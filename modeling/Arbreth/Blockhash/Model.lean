/-
  The L1 block hashes ArbOS keeps (arbos, blockhash/mod.rs).

  The counter is the number of the next L1 block to record. The hashes of the 256 numbers before
  it stand in a ring: number `n` has slot `1 + n % 256`. Recording a number ahead of the counter
  fills the slots of the numbers in between with hashes derived from the recorded one, and jumps
  when the gap is longer than the ring. The counter is slot 0 of the same subspace; as for the
  queue, its slot and those of the ring are apart, and the ring is modelled by its cells.

  `record_new_l1_block` is called by the start of an L2 block (arbos, internal_tx.rs) with the L1
  number and the previous block hash the sequencer reports.
-/
import Arbreth.Lib.Machine
import Mathlib.Logic.Function.Basic

namespace Arbreth.Blockhash

open Arbreth.Lib Function

/-- `Blockhashes`: the counter and the cells of the ring. -/
structure Blockhashes where
  l1BlockNumber : Nat
  slots : Nat → B256

/-- Fresh storage. -/
def Blockhashes.init : Blockhashes := ⟨0, fun _ => 0⟩

/-- The slot of a block number. -/
def slotOf (number : Nat) : Nat := 1 + number % 256

/-- `block_hash`: the hash of a number before the counter, at most 256 back. -/
def Blockhashes.blockHash (s : Blockhashes) (number : Nat) : Option B256 :=
  if s.l1BlockNumber ≤ number ∨ wrap64 (number + 256) < s.l1BlockNumber then none
  else some (s.slots (slotOf number))

/-- The arguments of `record_new_l1_block`. -/
structure Call where
  number : Nat
  blockHash : B256
  arbosVersion : Nat
  deriving DecidableEq

section

variable (keccak256 : Bytes → B256)

/-- The hash a call derives for a number it skips. Before version 8 the number is left out. -/
def Call.fill (c : Call) (number : Nat) : B256 :=
  keccak256 (wordBytes c.blockHash ++
    if 8 ≤ c.arbosVersion then leBytes 8 number else List.replicate 8 0)

/-- The loop that fills the slots of `next + 1, …, next + k`. -/
def fillLoop (c : Call) : Nat → Nat → (Nat → B256) → Nat → B256
  | 0, _, slots => slots
  | k + 1, next, slots =>
    fillLoop c k (next + 1) (update slots (slotOf (next + 1)) (c.fill keccak256 (next + 1)))

/-- `record_new_l1_block`. -/
def Blockhashes.record (s : Blockhashes) (c : Call) : Blockhashes :=
  if c.number < s.l1BlockNumber then s
  else
    let next := if wrap64 (s.l1BlockNumber + 256) < c.number then c.number - 256 else s.l1BlockNumber
    let filled := fillLoop keccak256 c (c.number - 1 - next) next s.slots
    { l1BlockNumber := wrap64 (c.number + 1)
      slots := update filled (slotOf c.number) c.blockHash }

end

/-! ## The ring -/

theorem slotOf_ne {n m : Nat} (hlt : n < m) (hnear : m < n + 256) : slotOf m ≠ slotOf n := by
  unfold slotOf
  omega

variable {keccak256 : Bytes → B256} {c : Call} {s : Blockhashes}

variable {slots : Nat → B256}

theorem fillLoop_of_not_mem {k next i : Nat} (h : ∀ j, next < j → j ≤ next + k → slotOf j ≠ i) :
    fillLoop keccak256 c k next slots i = slots i := by
  induction k generalizing next slots with
  | zero => rfl
  | succ k ih =>
    rw [fillLoop, ih fun j hj hle => h j (by omega) (by omega)]
    exact update_of_ne (h (next + 1) (by omega) (by omega)).symm _ _

theorem fillLoop_of_mem {k next j : Nat} (hk : k ≤ 256) (hlt : next < j) (hle : j ≤ next + k) :
    fillLoop keccak256 c k next slots (slotOf j) = c.fill keccak256 j := by
  induction k generalizing next slots with
  | zero => omega
  | succ k ih =>
    rw [fillLoop]
    by_cases hj : j = next + 1
    · subst hj
      -- The later turns stay within one revolution of this slot.
      rw [fillLoop_of_not_mem fun i hi hle => slotOf_ne (by omega) (by omega),
        update_self]
    · exact ih (by omega) (by omega) (by omega)

/-! ## One call -/

/-- A call took effect. -/
def Effective (s : Blockhashes) (c : Call) : Prop := s.l1BlockNumber ≤ c.number

instance (s : Blockhashes) (c : Call) : Decidable (Effective s c) :=
  inferInstanceAs (Decidable (_ ≤ _))

theorem record_of_not_effective (h : ¬ Effective s c) : s.record keccak256 c = s :=
  if_pos (Nat.lt_of_not_le h)

theorem l1BlockNumber_record (h : Effective s c) (hfits : c.number + 1 < 2 ^ 64) :
    (s.record keccak256 c).l1BlockNumber = c.number + 1 := by
  rw [Blockhashes.record, if_neg (Nat.not_lt_of_le h)]
  exact wrap64_of_lt hfits

theorem slots_record_self (h : Effective s c) :
    (s.record keccak256 c).slots (slotOf c.number) = c.blockHash := by
  rw [Blockhashes.record, if_neg (Nat.not_lt_of_le h)]
  exact update_self _ _ _

/-- What a call leaves in the slots of the numbers it still shows: those up to the old counter,
    the counter itself included, keep their word, and those above it are filled. -/
theorem slots_record (h : Effective s c) (hfits : s.l1BlockNumber + 256 < 2 ^ 64) {n : Nat}
    (hlt : n < c.number) (hnear : c.number < n + 256) :
    (s.record keccak256 c).slots (slotOf n) =
      if n ≤ s.l1BlockNumber then s.slots (slotOf n) else c.fill keccak256 n := by
  rw [Blockhashes.record, if_neg (Nat.not_lt_of_le h), wrap64_of_lt hfits]
  dsimp only
  rw [update_of_ne (slotOf_ne hlt hnear).symm]
  by_cases hjump : s.l1BlockNumber + 256 < c.number
  · rw [if_pos hjump, if_neg (by omega)]
    exact fillLoop_of_mem (by omega) (by omega) (by omega)
  · rw [if_neg hjump]
    split
    · next hold =>
      exact fillLoop_of_not_mem fun j hj hle => slotOf_ne (by omega) (by omega)
    · next hskip => exact fillLoop_of_mem (by omega) (by omega) (by omega)

theorem blockHash_eq_some {n : Nat} {x : B256} (hfits : s.l1BlockNumber + 256 < 2 ^ 64) :
    s.blockHash n = some x ↔
      (n < s.l1BlockNumber ∧ s.l1BlockNumber ≤ n + 256) ∧ s.slots (slotOf n) = x := by
  rw [Blockhashes.blockHash]
  by_cases hn : n < s.l1BlockNumber
  · rw [wrap64_of_lt (by omega)]
    split
    · next h => exact ⟨fun he => (nomatch he), fun ⟨hwin, _⟩ => by omega⟩
    · next h => exact ⟨fun he => ⟨by omega, Option.some.inj he⟩, fun he => congrArg some he.2⟩
  · rw [if_pos (.inl (Nat.le_of_not_lt hn))]
    exact ⟨fun he => (nomatch he), fun he => absurd he.1.1 hn⟩

end Arbreth.Blockhash
