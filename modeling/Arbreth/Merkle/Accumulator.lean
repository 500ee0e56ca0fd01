/-
  The Merkle accumulator of ArbOS (arbos, merkle_accumulator/mod.rs).

  An accumulator keeps a size and one partial hash per level. The storage version keeps
  the size at offset 0 of its subspace and the partial of level `l` at offset `2 + l`;
  the in-memory version keeps a vector. The two `append` loops and the four `root` loops
  of the code base differ in where a partial is read and written and in how `capacity`
  is doubled, so each loop is written once over those.

  The `while` of a root loop has no bound of its own: `padLoop` gives it 64 steps and
  answers `none` when they do not suffice, so a root that exists is a root the code
  returns.
-/
import Arbreth.Storage.Slot

namespace Arbreth.Merkle

open Arbreth.Lib

/-- Event emitted when a Merkle tree node is updated during append. -/
structure MerkleTreeNodeEvent where
  level : Nat
  numLeaves : Nat
  hash : B256
  deriving DecidableEq

/-- The bit length of `size`. -/
def calcNumPartials (size : Nat) : Nat :=
  if size = 0 then 0 else 64 - leadingZeros64 size

/-- Where partials are read and written. -/
structure PartialStore (σ : Type) where
  get : σ → Nat → B256
  set : σ → Nat → B256 → σ

section Loops

variable (keccak256 : Bytes → B256)

/-- An inner node: the hash of its two children laid end to end. -/
def node (l r : B256) : B256 := keccak256 (pairBytes l r)

/-- The `loop` of `append`. The first argument is the number of levels left before
    `level == calc_num_partials(current_size)`. -/
def appendLoop {σ : Type} (S : PartialStore σ) (newSize : Nat) :
    Nat → Nat → B256 → σ → σ × List MerkleTreeNodeEvent
  | 0, level, soFar, st => (S.set st level soFar, [])
  | left + 1, level, soFar, st =>
    let thisLevel := S.get st level
    if thisLevel = 0 then (S.set st level soFar, [])
    else
      let soFar := node keccak256 thisLevel soFar
      let st := S.set st level 0
      let (st, events) := appendLoop S newSize left (level + 1) soFar st
      (st, ⟨level + 1, wrap64 (newSize + u64Max), soFar⟩ :: events)

/-- The `while` of `root`: pad on the right until the capacities match. -/
def padLoop : Nat → B256 → Nat → Nat → Option B256
  | fuel, current, capacityInHash, capacity =>
    if capacityInHash < capacity then
      match fuel with
      | 0 => none
      | fuel + 1 => padLoop fuel (node keccak256 current 0) (wrap64 (capacityInHash * 2)) capacity
    else some current

/-- The local variables of `root`. -/
structure RootVars where
  hashSoFar : Option B256
  capacityInHash : Nat
  capacity : Nat

/-- The body of the `for` of `root`, for the partial of one level. `double` is the way
    `capacity` is doubled. -/
def rootStep (double : Nat → Nat) (v : RootVars) (p : B256) : Option RootVars :=
  if p = 0 then some { v with capacity := double v.capacity }
  else match v.hashSoFar with
    | some current => do
        let current ← padLoop keccak256 64 current v.capacityInHash v.capacity
        some ⟨some (node keccak256 p current), wrap64 (2 * v.capacity), double v.capacity⟩
    | none => some ⟨some p, v.capacity, double v.capacity⟩

/-- The `for` of `root` over the partials of all levels. -/
def rootLoop (double : Nat → Nat) : RootVars → List B256 → Option (Option B256)
  | v, [] => some v.hashSoFar
  | v, p :: ps => do
      let v ← rootStep keccak256 double v p
      rootLoop double v ps

/-- The variables before the first level. -/
def rootInit : RootVars := ⟨none, 0, 1⟩

/-- `capacity *= 2`. -/
def doubleWrap (capacity : Nat) : Nat := wrap64 (capacity * 2)

end Loops

/-! ## The storage accumulator -/

/-- Storage-backed Merkle accumulator. -/
structure MerkleAccumulator where
  backingStorage : Storage
  size : StorageBackedUint64

section StorageBacked

variable (keccak256 : Bytes → B256)

/-- `open_merkle_accumulator`. -/
def openMerkleAccumulator (sto : Storage) : MerkleAccumulator :=
  ⟨sto, StorageBackedUint64.new keccak256 sto.baseKey 0⟩

namespace MerkleAccumulator

variable (acc : MerkleAccumulator)

def partialSlot (level : Nat) : U256 := acc.backingStorage.newSlot keccak256 (wrap64 (2 + level))

def readPartial (st : Backend) (level : Nat) : B256 :=
  sload st acc.backingStorage.account (acc.partialSlot keccak256 level)

def writePartial (st : Backend) (level : Nat) (val : B256) : Backend :=
  sstore st acc.backingStorage.account (acc.partialSlot keccak256 level) val

def partials : PartialStore Backend := ⟨acc.readPartial keccak256, acc.writePartial keccak256⟩

/-- `append`: bump the size, then carry the new leaf up the full levels. -/
def append (st : Backend) (itemHash : B256) : Backend × List MerkleTreeNodeEvent :=
  let currentSize := acc.size.get st
  let newSize := wrap64 (currentSize + 1)
  let st := acc.size.set st newSize
  let soFar := keccak256 (wordBytes itemHash)
  appendLoop keccak256 (acc.partials keccak256) newSize (calcNumPartials currentSize) 0 soFar st

/-- `get_partials`: one hash for each level the size needs. -/
def getPartials (st : Backend) : List B256 :=
  (List.range (calcNumPartials (acc.size.get st))).map (acc.readPartial keccak256 st)

/-- `root`. -/
def root (st : Backend) : Option B256 :=
  let size := acc.size.get st
  if size = 0 then some 0
  else do
    let hashSoFar ← rootLoop keccak256 doubleWrap rootInit
      ((List.range (calcNumPartials size)).map (acc.readPartial keccak256 st))
    some (hashSoFar.getD 0)

/-- Append a list of hashes and collect the events of every append. -/
def appendAll : Backend → List B256 → Backend × List (List MerkleTreeNodeEvent)
  | st, [] => (st, [])
  | st, h :: hs =>
    let (st, events) := acc.append keccak256 st h
    let (st, rest) := appendAll st hs
    (st, events :: rest)

end MerkleAccumulator

end StorageBacked

/-! ## The in-memory accumulator -/

/-- In-memory Merkle accumulator for export and import. -/
structure InMemoryMerkleAccumulator where
  size : Nat
  partials : List B256

namespace InMemoryMerkleAccumulator

def new : InMemoryMerkleAccumulator := ⟨0, []⟩

/-- The loop of `from_partials`: every non-zero partial counts for the leaves of its level. -/
def sizeLoop : Nat → Nat → List B256 → Nat
  | size, _, [] => size
  | size, levelSize, p :: ps =>
    sizeLoop (if p = 0 then size else wrap64 (size + levelSize)) (wrap64 (levelSize * 2)) ps

/-- `from_partials`. -/
def fromPartials (partials : List B256) : InMemoryMerkleAccumulator :=
  ⟨sizeLoop 0 1 partials, partials⟩

def getPartial (partials : List B256) (level : Nat) : B256 := partials.getD level 0

/-- `set_partial`: grow the vector with zeros up to the level, then write. -/
def setPartial (partials : List B256) (level : Nat) (val : B256) : List B256 :=
  let grown :=
    if partials.length ≤ level then
      partials ++ List.replicate (level + 1 - partials.length) 0
    else partials
  grown.set level val

def store : PartialStore (List B256) := ⟨getPartial, setPartial⟩

variable (keccak256 : Bytes → B256)

/-- `append`. -/
def append (acc : InMemoryMerkleAccumulator) (itemHash : B256) :
    InMemoryMerkleAccumulator × List MerkleTreeNodeEvent :=
  let currentSize := acc.size
  let newSize := wrap64 (acc.size + 1)
  let soFar := keccak256 (wordBytes itemHash)
  let (partials, events) :=
    appendLoop keccak256 store newSize (calcNumPartials currentSize) 0 soFar acc.partials
  (⟨newSize, partials⟩, events)

/-- `root`. -/
def root (acc : InMemoryMerkleAccumulator) : Option B256 :=
  if acc.size = 0 then some 0
  else do
    let hashSoFar ← rootLoop keccak256 doubleWrap rootInit
      ((List.range (calcNumPartials acc.size)).map (getPartial acc.partials))
    some (hashSoFar.getD 0)

/-- Append a list of hashes and collect the events of every append. -/
def appendAll : InMemoryMerkleAccumulator → List B256 →
    InMemoryMerkleAccumulator × List (List MerkleTreeNodeEvent)
  | acc, [] => (acc, [])
  | acc, h :: hs =>
    let (acc, events) := acc.append keccak256 h
    let (acc, rest) := appendAll acc hs
    (acc, events :: rest)

end InMemoryMerkleAccumulator

end Arbreth.Merkle
