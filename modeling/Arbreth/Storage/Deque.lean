/-
  The storage queue in its slots (arb-storage, queue.rs).

  `next_put` is at offset 0, `next_get` at offset 1, the elements are between the two positions.
  `Represents` ties the slots to the list of elements: the positions are its ends, its elements
  are in their cells, and every other cell is zero. Each operation keeps it and answers as the
  list does (`run_step`), and so does every run of operations (`queue_is_deque`).

  Of the hash it is assumed that the offsets of the queue have slots of their own.
-/
import Arbreth.Lib.Run
import Arbreth.Storage.Slot

namespace Arbreth.Storage

open Arbreth.Lib

/-- An open `Queue`, with the hash its slots are derived with. -/
structure SlotQueue where
  keccak256 : Bytes → B256
  baseKey : B256

namespace SlotQueue

section Source

variable (q : SlotQueue) (st : Backend) {σ ε : Type}

def computeSlot (offset : Nat) : U256 := storageKeyMap q.keccak256 (keyBytesOf q.baseKey) offset

def loadSlot (offset : Nat) : B256 := sload st arbosStateAddress (q.computeSlot offset)

def storeSlot (offset : Nat) (value : B256) : Backend :=
  sstore st arbosStateAddress (q.computeSlot offset) value

def nextPut : StorageBackedUint64 := .new q.keccak256 q.baseKey 0

def nextGet : StorageBackedUint64 := .new q.keccak256 q.baseKey 1

def initializeQueue : Backend := q.storeSlot (q.storeSlot st 0 2) 1 2

def isEmpty : Bool := q.nextPut.get st = q.nextGet.get st

def size : Nat := q.nextPut.get st - q.nextGet.get st

def peek : Option B256 := if q.isEmpty st then none else some (q.loadSlot st (q.nextGet.get st))

def get : Option B256 × Backend :=
  if q.isEmpty st then (none, st)
  else
    let get := q.nextGet.get st
    (some (q.loadSlot st get), q.nextGet.set (q.storeSlot st get 0) (wrap64 (get + 1)))

def put (value : B256) : Backend :=
  let put := q.nextPut.get st
  q.nextPut.set (q.storeSlot st put value) (wrap64 (put + 1))

def shift : Option B256 × Backend :=
  if q.isEmpty st then (none, st)
  else
    let idx := wrap64 (q.nextPut.get st + u64Max)
    (some (q.loadSlot st idx), q.nextPut.set (q.storeSlot st idx 0) idx)

/-- `for_each`, with a callback that may fail and has a state of its own. -/
def forEach (f : σ → B256 → Except ε σ) (s : σ) : Except ε σ :=
  let get := q.nextGet.get st
  (List.range' get (q.nextPut.get st - get)).foldlM (fun s i => f s (q.loadSlot st i)) s

end Source

/-! ## Operations -/

inductive Op (σ ε : Type) where
  | put (value : B256)
  | get
  | peek
  | shift
  | isEmpty
  | size
  | forEach (f : σ → B256 → Except ε σ) (s : σ)

/-- What an operation returns. -/
inductive Answer (σ ε : Type) where
  | done
  | value (v : Option B256)
  | flag (b : Bool)
  | count (n : Nat)
  | visited (r : Except ε σ)

variable {σ ε : Type}

def Op.isPut : Op σ ε → Bool
  | .put _ => true
  | _ => false

/-- An operation on the slots. -/
def Op.run (q : SlotQueue) (op : Op σ ε) (st : Backend) : Answer σ ε × Backend :=
  match op with
  | .put v => (.done, q.put st v)
  | .get => (q.get st).map .value id
  | .peek => (.value (q.peek st), st)
  | .shift => (q.shift st).map .value id
  | .isEmpty => (.flag (q.isEmpty st), st)
  | .size => (.count (q.size st), st)
  | .forEach f s => (.visited (q.forEach st f s), st)

/-- The same operation on a list. -/
def Op.spec (op : Op σ ε) (xs : List B256) : Answer σ ε × List B256 :=
  match op with
  | .put v => (.done, xs ++ [v])
  | .get => (.value xs.head?, xs.tail)
  | .peek => (.value xs.head?, xs)
  | .shift => (.value xs.getLast?, xs.dropLast)
  | .isEmpty => (.flag xs.isEmpty, xs)
  | .size => (.count xs.length, xs)
  | .forEach f s => (.visited (xs.foldlM f s), xs)

/-- The offsets of the queue have slots of their own. -/
def SlotsApart (q : SlotQueue) : Prop :=
  ∀ i j, i < 2 ^ 64 → j < 2 ^ 64 → q.computeSlot i = q.computeSlot j → i = j

/-- The slots of the queue hold these elements from position `base` on, and no others. -/
structure Represents (q : SlotQueue) (st : Backend) (base : Nat) (xs : List B256) : Prop where
  above : 2 ≤ base
  fits : base + xs.length < 2 ^ 64
  put : q.loadSlot st 0 = BitVec.ofNat 256 (base + xs.length)
  get : q.loadSlot st 1 = BitVec.ofNat 256 base
  cells : ∀ i, 2 ≤ i → i < 2 ^ 64 → q.loadSlot st i = if base ≤ i then xs[i - base]?.getD 0 else 0

/-! ## Reads -/

variable {q : SlotQueue} {st : Backend} {base : Nat} {xs : List B256}

theorem get_of_loadSlot {offset n : Nat} (hn : n < 2 ^ 64)
    (h : q.loadSlot st offset = BitVec.ofNat 256 n) :
    (StorageBackedUint64.new q.keccak256 q.baseKey offset).get st = n := by
  have hvalue : (q.loadSlot st offset).toNat = n := by
    rw [h, BitVec.toNat_ofNat, Nat.mod_eq_of_lt (by omega)]
  exact (if_pos (hvalue ▸ hn)).trans hvalue

namespace Represents

variable (h : Represents q st base xs)

include h

theorem nextPut_get : q.nextPut.get st = base + xs.length := get_of_loadSlot h.fits h.put

theorem nextGet_get : q.nextGet.get st = base :=
  get_of_loadSlot (Nat.lt_of_le_of_lt (Nat.le_add_right _ _) h.fits) h.get

theorem isEmpty_eq : q.isEmpty st = xs.isEmpty := by
  rw [isEmpty, h.nextPut_get, h.nextGet_get]
  cases xs <;> simp

theorem loadSlot_eq {i : Nat} (hi : i < xs.length) : q.loadSlot st (base + i) = xs[i] := by
  have hcell := h.cells (base + i) (by have := h.above; omega) (by have := h.fits; omega)
  rwa [if_pos (Nat.le_add_right _ _), Nat.add_sub_cancel_left, List.getElem?_eq_getElem hi] at hcell

theorem peek_eq : q.peek st = xs.head? := by
  rw [peek, h.isEmpty_eq, h.nextGet_get]
  cases xs with
  | nil => rfl
  | cons x xs => exact congrArg some (h.loadSlot_eq (i := 0) (Nat.zero_lt_succ _))

theorem forEach_eq (f : σ → B256 → Except ε σ) (s : σ) : q.forEach st f s = xs.foldlM f s := by
  have hcells : (List.range' base xs.length).map (q.loadSlot st) = xs := by
    refine List.ext_getElem (by simp) fun i _ hi => ?_
    rw [List.getElem_map, List.getElem_range', Nat.one_mul, h.loadSlot_eq hi]
  simp only [forEach, h.nextPut_get, h.nextGet_get, Nat.add_sub_cancel_left]
  conv_rhs => rw [← hcells, List.foldlM_map]

end Represents

/-! ## Writes -/

section Steps

variable (hslots : q.SlotsApart)

include hslots

theorem loadSlot_storeSlot {i j : Nat} (hi : i < 2 ^ 64) (hj : j < 2 ^ 64) (st : Backend) (v : B256) :
    q.loadSlot (q.storeSlot st j v) i = if i = j then v else q.loadSlot st i := by
  by_cases hij : i = j
  · rw [if_pos hij, hij]
    exact sload_sstore_self _ _ _ _
  · rw [if_neg hij]
    exact sload_sstore_ne _ _ fun heq => hij (hslots i j hi hj heq)

theorem represents_init (hfresh : ∀ i < 2 ^ 64, q.loadSlot st i = 0) :
    Represents q (q.initializeQueue st) 2 [] := by
  have hread : ∀ i < 2 ^ 64, q.loadSlot (q.initializeQueue st) i = if i < 2 then 2 else 0 := by
    intro i hi
    rw [initializeQueue, loadSlot_storeSlot hslots hi (by decide),
      loadSlot_storeSlot hslots hi (by decide), hfresh i hi]
    grind
  refine ⟨Nat.le_refl 2, by decide, hread 0 (by decide), hread 1 (by decide), fun i h2 hi => ?_⟩
  rw [hread i hi]
  grind

variable (h : Represents q st base xs)

include h

/-- The list after an element and a position are written. -/
theorem Represents.write {offset n i base' : Nat} {v : B256} {xs' : List B256} (hoffset : offset < 2)
    (hi : 2 ≤ i) (hi' : i < 2 ^ 64) (habove : 2 ≤ base') (hfits : base' + xs'.length < 2 ^ 64)
    (hput : base' + xs'.length = if offset = 0 then n else base + xs.length)
    (hget : base' = if offset = 1 then n else base)
    (hcells : ∀ j, (if base' ≤ j then xs'[j - base']?.getD 0 else 0) =
      if j = i then v else if base ≤ j then xs[j - base]?.getD 0 else 0) :
    Represents q (q.storeSlot (q.storeSlot st i v) offset (BitVec.ofNat 256 n)) base' xs' := by
  have hread : ∀ j < 2 ^ 64, q.loadSlot (q.storeSlot (q.storeSlot st i v) offset (BitVec.ofNat 256 n)) j =
      if j = offset then BitVec.ofNat 256 n else if j = i then v else q.loadSlot st j := by
    intro j hj
    rw [loadSlot_storeSlot hslots hj (by omega), loadSlot_storeSlot hslots hj hi']
  refine ⟨habove, hfits, ?_, ?_, fun j h2 hj => ?_⟩
  · rw [hread 0 (by decide), hput, if_neg (show 0 ≠ i by omega), h.put]
    split <;> grind
  · rw [hread 1 (by decide), if_neg (show 1 ≠ i by omega), h.get]
    split <;> grind
  · rw [hread j hj, h.cells j h2 hj, hcells, if_neg (by omega)]

/-- Every operation answers as on the list, and leaves its list. -/
theorem run_step (op : Op σ ε) (hroom : base + xs.length + (if op.isPut then 1 else 0) < 2 ^ 64) :
    (op.run q st).1 = (op.spec xs).1 ∧
      ∃ base', Represents q (op.run q st).2 base' (op.spec xs).2 ∧
        base' + (op.spec xs).2.length ≤ base + xs.length + if op.isPut then 1 else 0 := by
  have habove := h.above
  have hfits := h.fits
  cases op with
  | put v =>
    have hroom : base + xs.length + 1 < 2 ^ 64 := hroom
    refine ⟨rfl, base, ?_, by simp [Op.spec, Op.isPut, Nat.add_assoc]⟩
    simp only [Op.run, Op.spec, put, h.nextPut_get, wrap64_of_lt hroom]
    refine h.write hslots (by decide) (by omega) hfits habove ?_ ?_ rfl fun j => by grind
    · simpa [← Nat.add_assoc] using hroom
    · simp [Nat.add_assoc]
  | get =>
    cases xs with
    | nil =>
      simp only [Op.run, Op.spec, get, h.isEmpty_eq, List.isEmpty_nil, if_true]
      exact ⟨rfl, base, h, Nat.le_add_right _ _⟩
    | cons x xs =>
      rw [List.length_cons] at hfits
      have hhead : q.loadSlot st base = x := h.loadSlot_eq (i := 0) (Nat.zero_lt_succ _)
      simp only [Op.run, Op.spec, get, h.isEmpty_eq, List.isEmpty_cons, h.nextGet_get, hhead]
      refine ⟨rfl, base + 1, ?_, by grind⟩
      rw [wrap64_of_lt (by omega)]
      refine h.write hslots (by decide) habove (by omega) (by omega) (by grind) ?_ rfl fun j => by grind
      simp [Nat.add_assoc, Nat.add_comm]
  | shift =>
    rcases List.eq_nil_or_concat xs with rfl | ⟨xs, x, rfl⟩
    · simp only [Op.run, Op.spec, shift, h.isEmpty_eq, List.isEmpty_nil, if_true]
      exact ⟨rfl, base, h, Nat.le_add_right _ _⟩
    · rw [List.concat_eq_append] at h hfits ⊢
      rw [List.length_append, List.length_singleton] at hfits
      have hidx : wrap64 (base + (xs ++ [x]).length + u64Max) = base + xs.length := by
        rw [List.length_append, List.length_singleton]
        unfold wrap64 u64Max
        omega
      have hlast : q.loadSlot st (base + xs.length) = x := by
        rw [h.loadSlot_eq (by simp)]
        simp
      have hnonempty : (xs ++ [x]).isEmpty = false := by simp
      simp only [Op.run, Op.spec, shift, h.isEmpty_eq, h.nextPut_get, hidx, hlast, hnonempty,
        List.getLast?_concat, List.dropLast_concat]
      refine ⟨rfl, base, ?_, by simp [Op.isPut]⟩
      exact h.write hslots (by decide) (by omega) (by omega) habove (by omega) rfl rfl fun j => by grind
  | peek => exact ⟨congrArg Answer.value h.peek_eq, base, h, Nat.le_add_right _ _⟩
  | isEmpty => exact ⟨congrArg Answer.flag h.isEmpty_eq, base, h, Nat.le_add_right _ _⟩
  | size =>
    refine ⟨congrArg Answer.count ?_, base, h, Nat.le_add_right _ _⟩
    rw [size, h.nextPut_get, h.nextGet_get, Nat.add_sub_cancel_left]
  | forEach f s => exact ⟨congrArg Answer.visited (h.forEach_eq f s), base, h, Nat.le_add_right _ _⟩

end Steps

/-- **The storage queue is a deque.** From an initialised queue every run of fewer than 2^63 puts
    and any other operations answers as the list does, and leaves its list: the elements between
    the positions, which are at least 2, zero in all other slots, and the positions in theirs. -/
theorem queue_is_deque (q : SlotQueue) (hslots : q.SlotsApart)
    (hfresh : ∀ i < 2 ^ 64, q.loadSlot st i = 0) (ops : List (Op σ ε))
    (hputs : ops.countP Op.isPut < 2 ^ 63) :
    (trace (Op.run q) (q.initializeQueue st) ops).1 = (trace Op.spec [] ops).1 ∧
      ∃ base, Represents q (trace (Op.run q) (q.initializeQueue st) ops).2 base
        (trace Op.spec [] ops).2 := by
  -- the puts to come fit behind the list
  let R : List (Op σ ε) → Backend → List B256 → Prop := fun ops st xs =>
    ∃ base, Represents q st base xs ∧ base + xs.length + ops.countP Op.isPut < 2 ^ 64
  have hstep : ∀ op ops st xs, R (op :: ops) st xs →
      (Op.run q op st).1 = (op.spec xs).1 ∧ R ops (Op.run q op st).2 (op.spec xs).2 := by
    rintro op ops st xs ⟨base, h, hroom⟩
    rw [List.countP_cons] at hroom
    obtain ⟨hanswer, base', h', hlength⟩ := run_step hslots h op (by omega)
    exact ⟨hanswer, base', h', by omega⟩
  have hstart : R ops (q.initializeQueue st) [] :=
    ⟨2, represents_init hslots hfresh, by simp only [List.length_nil]; omega⟩
  obtain ⟨hanswers, base, h, -⟩ := trace_refines hstep hstart
  exact ⟨hanswers, base, h⟩

/-- A queue in the root space, with a hash that keeps the offset. -/
def sampleQueue : SlotQueue := ⟨fun bs => wordOfBytes (bs ++ [0]), 0⟩

theorem wordBytes_sample (i : Nat) : wordBytes (sampleQueue.computeSlot i) = offsetBytes i := by
  have hlen : (offsetBytes i).length = 32 := beBytes_length _ _
  have hpage : ((offsetBytes i).take 31 ++ [0]).length = 32 := by simp [hlen]
  simp only [computeSlot, sampleQueue, storageKeyMap, keyBytesOf, if_true, List.nil_append]
  rw [wordBytes_wordOfBytes hpage, List.take_left' (by simp [hlen]), List.take_append_drop,
    wordBytes_wordOfBytes hlen]

theorem sampleQueue_apart : sampleQueue.SlotsApart := by
  intro i j hi hj hslot
  have hbytes := congrArg wordBytes hslot
  rw [wordBytes_sample, wordBytes_sample, offsetBytes, offsetBytes, wrap64_of_lt hi,
    wrap64_of_lt hj] at hbytes
  exact beBytes_inj (by omega) (by omega) hbytes

/-- Two elements put, the last one taken back, the first one taken. -/
theorem queue_is_deque_sample :
    let ops : List (Op Unit Unit) := [.put 7, .put 9, .shift, .get]
    (trace (Op.run sampleQueue) (sampleQueue.initializeQueue fun _ _ => 0) ops).1 =
      [.done, .done, .value (some 9), .value (some 7)] :=
  (queue_is_deque sampleQueue sampleQueue_apart (fun _ _ => rfl) _ (by decide)).1

end SlotQueue

end Arbreth.Storage
