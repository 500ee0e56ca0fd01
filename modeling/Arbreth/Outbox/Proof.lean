/-
  Outbox proofs for L2-to-L1 sends (arb-rpc, outbox_proof.rs and construct_outbox_proof
  of api.rs).

  `planProof` lists the positions of the siblings on the way from a leaf to the root,
  `finalizeProof` looks their hashes up and folds them. `constructOutboxProof` looks
  positions up in the logs ArbSys emitted, by the 32-byte topic that carries a position.

  The model starts from the two numbers of the call and the logs of the scanned blocks:
  ABI decoding and the choice of the block range are left out.
-/
import Arbreth.Outbox.ArbSys

namespace Arbreth.Outbox

open Arbreth.Lib Arbreth.ArbSys

/-- A position in the tree: a level (0 is the leaves) and a leaf index. -/
structure LevelAndLeaf where
  level : Nat
  leaf : Nat
  deriving DecidableEq

/-- `as_topic`: the level in bytes 16 to 24, the leaf in the last eight. -/
def LevelAndLeaf.asTopic (p : LevelAndLeaf) : B256 :=
  wordOfBytes (List.replicate 16 0 ++ beBytes 8 p.level ++ beBytes 8 p.leaf)

/-- `log2_ceil`, which is the bit length. -/
def log2Ceil (x : Nat) : Nat := if x = 0 then 0 else 64 - leadingZeros64 x

/-- `next_power_of_2`. The shift amount is taken modulo 64. -/
def nextPowerOf2 (x : Nat) : Nat := 2 ^ (log2Ceil x % 64)

/-- `ProofPlan`. -/
structure ProofPlan where
  query : List LevelAndLeaf
  nodes : List LevelAndLeaf
  partials : List LevelAndLeaf
  balanced : Bool
  treeLevels : Nat

/-- The walk from the leaf up: the siblings below the size, and all siblings. The first
    argument counts the levels left. -/
def walkLoop (size : Nat) : Nat → Nat → Nat → Nat → List LevelAndLeaf × List LevelAndLeaf
  | 0, _, _, _ => ([], [])
  | left + 1, level, place, which =>
    let sibling := place ^^^ which
    let position : LevelAndLeaf := ⟨level, sibling⟩
    let (query, nodes) := walkLoop size left (level + 1) (place ||| which) (satMul64 which 2)
    (if sibling < size then position :: query else query, position :: nodes)

/-- The partial subtrees of an unbalanced size, from the highest level down. -/
def partialsLoop (size : Nat) : Nat → Nat → Nat → List LevelAndLeaf
  | 0, power, total =>
    if power &&& size ≠ 0 then [⟨0, min (total + power) u64Max - 1⟩] else []
  | level + 1, power, total =>
    if power &&& size ≠ 0 then
      let total := min (total + power) u64Max
      ⟨level + 1, total - 1⟩ :: partialsLoop size level (power / 2) total
    else partialsLoop size level (power / 2) total

/-- `plan_proof`. -/
def planProof (size leaf : Nat) : Option ProofPlan :=
  if size ≤ leaf ∨ size = 0 then none
  else
    let balanced := size = nextPowerOf2 size / 2 ∨ size = 1
    let treeLevels := log2Ceil size
    let proofLevels := treeLevels - 1
    let walkLevels := if balanced then treeLevels - 1 else treeLevels
    let (below, nodes) := walkLoop size walkLevels 0 leaf 1
    let partials := if balanced then [] else partialsLoop size proofLevels (2 ^ proofLevels) 0
    let query := (⟨0, leaf⟩ :: below ++ partials).mergeSort fun a b => a.leaf ≤ b.leaf
    some ⟨query, nodes, partials, balanced, treeLevels⟩

/-- Why no proof is returned. -/
inductive OutboxError where
  | leafOutOfRange (leaf size : Nat)
  | leafNotFound
  deriving DecidableEq

/-- The text of the error. -/
def OutboxError.message : OutboxError → String
  | .leafOutOfRange leaf size =>
    "constructOutboxProof: leaf " ++ toString leaf ++ " ≥ size " ++ toString size
  | .leafNotFound => "constructOutboxProof: leaf not found in logs"

section Fold

variable (keccak256 : Bytes → B256)

/-- The input of one step of a proof fold: the sibling on the right when the bit is clear. -/
def stepInput (bit : Bool) (current sibling : B256) : Bytes :=
  if bit then pairBytes sibling current else pairBytes current sibling

/-- The fold of `finalize_proof`. -/
def foldLoop : B256 → Nat → Nat → List B256 → B256
  | current, _, _, [] => current
  | current, place, which, sibling :: proof =>
    let current := keccak256 (stepInput (place &&& which ≠ 0) current sibling)
    foldLoop current (place ||| which) (satMul64 which 2) proof

/-- `finalize_proof`: the send, the root and the proof. -/
def finalizeProof (plan : ProofPlan) (leaf : Nat) (lookup : LevelAndLeaf → Option B256) :
    Except OutboxError (B256 × B256 × List B256) :=
  match lookup ⟨0, leaf⟩ with
  | none => .error .leafNotFound
  | some send =>
    let proof := plan.nodes.map fun pos => (lookup pos).getD 0
    .ok (send, foldLoop keccak256 send leaf 1 proof, proof)

end Fold

/-! ## The scan of the logs -/

/-- One log of the scan: an ArbSys log of either event, with its four topics, records the
    hash of topic 2 under the position of topic 3. -/
def scanLog (topics : Topics) (positions : B256 → Option B256) (log : Log) : B256 → Option B256 :=
  if log.address ≠ arbsysAddress then positions
  else match log.topics with
    | kind :: _ :: hash :: pos :: _ =>
      if kind = topics.sendMerkleUpdate ∨ kind = topics.l2ToL1Tx then
        Function.update positions pos (some hash)
      else positions
    | _ => positions

/-- The map from position topics to hashes. A later log overwrites an earlier one. -/
def scanLogs (topics : Topics) (logs : List Log) : B256 → Option B256 :=
  logs.foldl (scanLog topics) fun _ => none

/-- `construct_outbox_proof` over the logs of the chain. -/
def constructOutboxProof (keccak256 : Bytes → B256) (topics : Topics) (logs : List Log)
    (size leaf : Nat) : Except OutboxError (B256 × B256 × List B256) :=
  match planProof size leaf with
  | none => .error (.leafOutOfRange leaf size)
  | some plan =>
    let positions := scanLogs topics logs
    finalizeProof keccak256 plan leaf fun p => positions p.asTopic

end Arbreth.Outbox
