/-
  The FIFO queue in ArbOS storage (arb-storage, queue.rs).

  Offset 0 holds the next put position, offset 1 the next get position, the data lies at the
  offsets from 2 on. The offsets of the queue's own subspace have slots of their own, so that
  the queue is modelled by its cells. The positions are 64-bit: a put that would move the put
  position to 2^64 is outside the model.

  What the queue is for is the list `entries`: `put` appends to it, `get` takes its head.
-/
import Arbreth.Lib.Machine

namespace Arbreth.Storage

open Arbreth.Lib Function

structure Queue where
  cells : Nat → B256
  nextGet : Nat
  nextPut : Nat
  ordered : nextGet ≤ nextPut
  fits : nextPut < 2 ^ 64

namespace Queue

/-- `initialize_queue`. -/
def init : Queue := ⟨fun _ => 0, 2, 2, Nat.le_refl 2, by decide⟩

def isEmpty (q : Queue) : Bool := q.nextPut = q.nextGet

def peek (q : Queue) : Option B256 := if q.isEmpty then none else some (q.cells q.nextGet)

/-- `get`: the oldest entry, whose cell is cleared. -/
def get (q : Queue) : Option B256 × Queue :=
  if h : q.isEmpty then (none, q)
  else
    (some (q.cells q.nextGet),
      { cells := update q.cells q.nextGet 0
        nextGet := q.nextGet + 1
        nextPut := q.nextPut
        ordered := by
          have hne : q.nextPut ≠ q.nextGet := fun he => h (decide_eq_true he)
          have := q.ordered
          omega
        fits := q.fits })

def put (q : Queue) (value : B256) : Option Queue :=
  if h : q.nextPut + 1 < 2 ^ 64 then
    some
      { cells := update q.cells q.nextPut value
        nextGet := q.nextGet
        nextPut := q.nextPut + 1
        ordered := Nat.le_succ_of_le q.ordered
        fits := h }
  else none

/-- The entries from the oldest on. -/
def entries (q : Queue) : List B256 :=
  (List.range' q.nextGet (q.nextPut - q.nextGet)).map q.cells

variable (q : Queue)

theorem length_entries_lt : q.entries.length < 2 ^ 64 := by
  rw [entries, List.length_map, List.length_range']
  exact (Nat.sub_le _ _).trans_lt q.fits

theorem isEmpty_iff : q.isEmpty = true ↔ q.nextPut = q.nextGet := decide_eq_true_iff

theorem entries_of_isEmpty {q : Queue} (h : q.isEmpty = true) : q.entries = [] := by
  rw [entries, q.isEmpty_iff.mp h, Nat.sub_self]
  rfl

theorem entries_cons {q : Queue} (h : ¬ q.isEmpty = true) :
    q.entries = q.cells q.nextGet ::
      (List.range' (q.nextGet + 1) (q.nextPut - (q.nextGet + 1))).map q.cells := by
  have hlen : q.nextPut - q.nextGet = q.nextPut - (q.nextGet + 1) + 1 := by
    have := q.ordered
    rw [isEmpty_iff] at h
    omega
  rw [entries, hlen, List.range'_succ, List.map_cons]

/-- Writing a cell outside the window leaves the entries alone. -/
theorem map_range'_update {cells : Nat → B256} {i start n : Nat} (value : B256)
    (h : i < start ∨ start + n ≤ i) :
    (List.range' start n).map (update cells i value) = (List.range' start n).map cells := by
  refine List.map_congr_left fun j hj => ?_
  rw [List.mem_range'_1] at hj
  exact update_of_ne (by omega) _ _

theorem peek_eq : q.peek = q.entries.head? := by
  unfold peek
  by_cases h : q.isEmpty = true
  · rw [if_pos h, entries_of_isEmpty h]
    rfl
  · rw [if_neg h, entries_cons h]
    rfl

theorem entries_get : q.get.2.entries = q.entries.tail := by
  unfold get
  by_cases h : q.isEmpty = true
  · rw [dif_pos h, entries_of_isEmpty h]
    rfl
  · rw [dif_neg h, entries_cons h]
    exact map_range'_update 0 (.inl (Nat.lt_succ_self _))

theorem entries_put {q q' : Queue} {value : B256} (h : q.put value = some q') :
    q'.entries = q.entries ++ [value] := by
  unfold put at h
  split at h
  · cases h
    have hlen : q.nextPut + 1 - q.nextGet = q.nextPut - q.nextGet + 1 := by
      have := q.ordered
      omega
    have hend : q.nextGet + (q.nextPut - q.nextGet) = q.nextPut := by
      have := q.ordered
      omega
    simp only [entries, hlen, List.range'_1_concat, List.map_append, List.map_cons, List.map_nil, hend,
      update_self]
    rw [map_range'_update value (.inr (Nat.le_of_eq hend))]
  · cases h

end Queue

end Arbreth.Storage
