/-
  L2-to-L1 sends of the ArbSys precompile (arb-precompiles, arbsys.rs).

  `doSendTxToL1` hashes the message, appends the hash to the send accumulator and emits
  one `SendMerkleUpdate` log per event of the append and one `L2ToL1Tx` log.
  `sendMerkleTreeState` exports the accumulator with a root loop of its own
  (`computeMerkleRoot`).

  Gas is not modelled: a call here is one whose gas sufficed. The two event topics come
  from the contract interface, outside this repository, and are parameters.
-/
import Arbreth.Merkle.Root

namespace Arbreth.ArbSys

open Arbreth.Lib Arbreth.Merkle

/-- `ARBSYS_ADDRESS`. -/
def arbsysAddress : Address := 0x64#160

/-- The signature hashes of the two events. -/
structure Topics where
  l2ToL1Tx : B256
  sendMerkleUpdate : B256

/-- An EVM log. -/
structure Log where
  address : Address
  topics : List B256
  data : Bytes
  deriving DecidableEq

/-- A call of `sendTxToL1` or `withdrawEth` and the context it runs in. -/
structure SendCall where
  caller : Address
  destination : Address
  value : U256
  calldata : Bytes
  l2BlockNumber : Nat
  l1BlockNumber : Nat
  timestamp : U256
  arbosVersion : Nat
  nativeTokenOwners : Nat

/-- A `u64` as a 32-byte word. -/
def wordOfNat (n : Nat) : U256 := BitVec.ofNat 256 (wrap64 n)

section Sends

variable (keccak256 : Bytes → B256)

/-- The preimage of a send hash: raw 20-byte addresses, then four words, then the data. -/
def sendPreimage (c : SendCall) : Bytes :=
  addressBytes c.caller ++ addressBytes c.destination ++ wordBytes (wordOfNat c.l2BlockNumber) ++
    wordBytes (wordOfNat c.l1BlockNumber) ++ wordBytes c.timestamp ++ wordBytes c.value ++ c.calldata

/-- `compute_send_hash`. -/
def computeSendHash (c : SendCall) : B256 := keccak256 (sendPreimage c)

/-- The subspace of the sends, number 5 of the ArbOS root. -/
def sendStorage : Storage := Storage.root.openSubStorage keccak256 [5]

/-- The accumulator of the sends. -/
def sendMerkleAccumulator : MerkleAccumulator :=
  openMerkleAccumulator keccak256 (sendStorage keccak256)

/-- The log of one accumulator event. Its position is `(level << 192) | numLeaves`. -/
def merkleUpdateLog (topics : Topics) (e : MerkleTreeNodeEvent) : Log :=
  let position := (wordOfNat e.level <<< 192) ||| wordOfNat e.numLeaves
  ⟨arbsysAddress, [topics.sendMerkleUpdate, 0, e.hash, position], []⟩

/-- The ABI-encoded data of the `L2ToL1Tx` log. -/
def l2ToL1TxData (c : SendCall) : Bytes :=
  List.replicate 12 0 ++ addressBytes c.caller ++ wordBytes (wordOfNat c.l2BlockNumber) ++
    wordBytes (wordOfNat c.l1BlockNumber) ++ wordBytes c.timestamp ++ wordBytes c.value ++
    wordBytes (wordOfNat (6 * 32)) ++ wordBytes (wordOfNat c.calldata.length) ++ c.calldata ++
    List.replicate ((32 - c.calldata.length % 32) % 32) 0

/-- The `L2ToL1Tx` log of a send at position `leafNum`. -/
def l2ToL1TxLog (topics : Topics) (c : SendCall) (sendHash : B256) (leafNum : Nat) : Log :=
  ⟨arbsysAddress, [topics.l2ToL1Tx, c.destination.setWidth 256, sendHash, wordOfNat leafNum],
    l2ToL1TxData c⟩

/-- What a send leaves behind. -/
structure SendResult where
  state : Backend
  logs : List Log
  returned : U256

/-- `do_send_tx_to_l1`. `none` is the revert of a send with value while native token owners
    exist. -/
def doSendTxToL1 (topics : Topics) (st : Backend) (c : SendCall) : Option SendResult :=
  if c.value ≠ 0 ∧ 41 ≤ c.arbosVersion ∧ c.nativeTokenOwners ≠ 0 then none
  else
    let acc := sendMerkleAccumulator keccak256
    let oldSize := acc.size.get st
    let sendHash := computeSendHash keccak256 c
    let (st, merkleEvents) := acc.append keccak256 st sendHash
    let newSize := wrap64 (oldSize + 1)
    let leafNum := wrap64 (newSize + u64Max)
    let logs := merkleEvents.map (merkleUpdateLog topics) ++ [l2ToL1TxLog topics c sendHash leafNum]
    let returned := if 4 ≤ c.arbosVersion then wordOfNat leafNum else sendHash
    some ⟨st, logs, returned⟩

/-- A list of sends, none of which reverts: the final state and every log. -/
def sendAll (topics : Topics) : Backend → List SendCall → Option (Backend × List Log)
  | st, [] => some (st, [])
  | st, c :: cs => do
      let r ← doSendTxToL1 keccak256 topics st c
      let (st, logs) ← sendAll topics r.state cs
      some (st, r.logs ++ logs)

/-! ## State export -/

/-- `compute_merkle_root`. -/
def computeMerkleRoot (partials : List B256) (size : Nat) : Option B256 :=
  if partials = [] ∨ size = 0 then some 0
  else do
    let hashSoFar ← rootLoop keccak256 doubleWrap rootInit
      ((List.range (calcNumPartials size)).map fun level =>
        if level < partials.length then partials.getD level 0 else 0)
    some (hashSoFar.getD 0)

/-- What `sendMerkleTreeState` returns. -/
structure MerkleTreeState where
  size : U256
  root : B256
  partials : List B256

/-- `handle_send_merkle_tree_state`, callable by the zero address only. The outer option is
    the revert, the inner one a root loop that does not end. -/
def sendMerkleTreeState (caller : Address) (st : Backend) : Option (Option MerkleTreeState) :=
  if caller ≠ 0 then none
  else
    let acc := sendMerkleAccumulator keccak256
    let size := acc.size.get st
    let partials := (List.range (calcNumPartials size)).map (acc.readPartial keccak256 st)
    some ((computeMerkleRoot keccak256 partials size).map fun root =>
      ⟨wordOfNat size, root, partials⟩)

end Sends

/-- What a send that does not revert does. -/
theorem doSend_cases {keccak256 : Bytes → B256} {topics : Topics} {st : Backend} {c : SendCall}
    {r : SendResult} (hr : doSendTxToL1 keccak256 topics st c = some r) :
    let acc := sendMerkleAccumulator keccak256
    let sendHash := computeSendHash keccak256 c
    r.state = (acc.append keccak256 st sendHash).1 ∧
      r.logs = (acc.append keccak256 st sendHash).2.map (merkleUpdateLog topics) ++
        [l2ToL1TxLog topics c sendHash (wrap64 (wrap64 (acc.size.get st + 1) + u64Max))] := by
  unfold doSendTxToL1 at hr
  split at hr
  · exact absurd hr (by simp)
  · obtain rfl := Option.some.inj hr
    exact ⟨rfl, rfl⟩

/-! ## The exported root -/

section Export

variable (keccak256 : Bytes → B256)

/-- On the partials a size needs, the exported root is the root of the other loops. -/
theorem computeMerkleRoot_eq {partials : List B256} {size : Nat}
    (h : partials.length = calcNumPartials size) :
    computeMerkleRoot keccak256 partials size = some (rootOf keccak256 size partials) := by
  unfold computeMerkleRoot rootOf
  by_cases h0 : size = 0
  · rw [if_pos (Or.inr h0), if_pos h0]
  · by_cases hp : partials = []
    · rw [if_pos (Or.inl hp), if_neg h0, hp]
      rfl
    · rw [if_neg (by simp [h0, hp]), if_neg h0]
      have hlist : ((List.range (calcNumPartials size)).map fun level =>
          if level < partials.length then partials.getD level 0 else 0) = partials := by
        conv_rhs => rw [← map_getPartial_self partials]
        rw [← h]
        apply List.map_congr_left
        intro l hl
        rw [if_pos (List.mem_range.mp hl)]
        rfl
      rw [hlist, rootLoop_init keccak256 doubleWrap_doubles (h ▸ calcNumPartials_le size)]
      rfl

/-- The export of any storage: it always returns. -/
theorem sendMerkleTreeState_eq (st : Backend) :
    let acc := sendMerkleAccumulator keccak256
    sendMerkleTreeState keccak256 0 st = some (some ⟨wordOfNat (acc.size.get st),
      rootOf keccak256 (acc.size.get st) (acc.getPartials keccak256 st),
      acc.getPartials keccak256 st⟩) := by
  intro acc
  have h := computeMerkleRoot_eq keccak256 (getPartials_length keccak256 acc st)
  unfold MerkleAccumulator.getPartials at h ⊢
  unfold sendMerkleTreeState
  dsimp only
  rw [if_neg (by simp), h]
  rfl

end Export

end Arbreth.ArbSys
