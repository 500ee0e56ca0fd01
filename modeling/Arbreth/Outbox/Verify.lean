/-
  Do outbox proofs verify?

  They do not. `SendRun` is a run of sends through ArbSys from a fresh accumulator, with
  every log kept. On its logs `constructOutboxProof` finds the right send
  (`construct_eq`), but
    * it folds the siblings from the send hash itself, while a leaf of the accumulator is
      the hash of the send hash; and
    * it looks siblings above the leaves up under a topic no log carries, because ArbSys
      shifts the level by 192 bits and `as_topic` puts it 128 bits lower, so they all
      come back as zero (`lookup_above_leaves`).
  The first of these alone is enough for no proof to verify
  (`outbox_proof_never_verifies`).

  Collision freeness is assumed of the inputs one verification hashes. No hash into 256
  bits is injective on all inputs.
-/
import Arbreth.Merkle.Agree
import Arbreth.Outbox.Proof

namespace Arbreth.Outbox

open Arbreth.Lib Arbreth.Merkle Arbreth.ArbSys Function

/-! ## Position topics -/

theorem wordOfNat_toNat {n : Nat} (h : n < 2 ^ 64) : (wordOfNat n).toNat = n := by
  rw [wordOfNat, wrap64_of_lt h, BitVec.toNat_ofNat, Nat.mod_eq_of_lt (by omega)]

/-- The topic a position is looked up under, as a number. -/
theorem asTopic_toNat {level leaf : Nat} (hlevel : level < 2 ^ 64) (hleaf : leaf < 2 ^ 64) :
    (LevelAndLeaf.asTopic ⟨level, leaf⟩).toNat = level * 2 ^ 64 + leaf := by
  have hzero : beNat (List.replicate 16 (0 : UInt8)) = 0 := by decide
  have hbe : ∀ n, n < 2 ^ 64 → beNat (beBytes 8 n) = n := fun n hn => by
    rw [beNat_beBytes, Nat.mod_eq_of_lt (by simpa using hn)]
  have hnum : beNat (List.replicate 16 0 ++ beBytes 8 level ++ beBytes 8 leaf) =
      level * 2 ^ 64 + leaf := by
    rw [beNat_append, beNat_append, hzero, hbe level hlevel, hbe leaf hleaf, beBytes_length,
      beBytes_length]
    omega
  unfold LevelAndLeaf.asTopic wordOfBytes
  rw [hnum, BitVec.toNat_ofNat, Nat.mod_eq_of_lt (by omega)]

/-- The topic of an accumulator event has the level above bit 192. -/
theorem merklePosition_ge {level : Nat} (numLeaves : Nat) (h1 : 1 ≤ level) (h2 : level < 2 ^ 64) :
    2 ^ 192 ≤ ((wordOfNat level <<< 192) ||| wordOfNat numLeaves).toNat := by
  have hshift : (wordOfNat level <<< 192).toNat = level * 2 ^ 192 := by
    rw [BitVec.toNat_shiftLeft, wordOfNat_toNat h2, Nat.shiftLeft_eq, Nat.mod_eq_of_lt (by omega)]
  rw [BitVec.toNat_or, hshift]
  calc 2 ^ 192 ≤ level * 2 ^ 192 := Nat.le_mul_of_pos_left _ h1
    _ ≤ _ := Nat.left_le_or

theorem appendLoop_levels (keccak256 : Bytes → B256) {σ : Type} (S : PartialStore σ)
    (newSize : Nat) : ∀ (left level : Nat) (soFar : B256) (st : σ),
      ∀ e ∈ (appendLoop keccak256 S newSize left level soFar st).2,
        level < e.level ∧ e.level ≤ level + left
  | 0, _, _, _ => by simp [appendLoop]
  | left + 1, level, soFar, st => by
    intro e he
    simp only [appendLoop] at he
    split at he
    · simp at he
    · rcases List.mem_cons.mp he with rfl | he
      · exact ⟨by simp, by simp⟩
      · have h := appendLoop_levels keccak256 S newSize left (level + 1) _ _ e he
        omega

/-! ## What the scan finds -/

section Scan

variable (keccak256 : Bytes → B256) (topics : Topics)

variable {c : SendCall} (m : B256 → Option B256) {p : B256}

theorem scanLog_update (e : MerkleTreeNodeEvent) (hp : p.toNat < 2 ^ 192) (h1 : 1 ≤ e.level)
    (h2 : e.level < 2 ^ 64) : scanLog topics m (merkleUpdateLog topics e) p = m p := by
  have hne : p ≠ (wordOfNat e.level <<< 192) ||| wordOfNat e.numLeaves := by
    intro h
    have hge := merklePosition_ge e.numLeaves h1 h2
    rw [← h] at hge
    omega
  simp [scanLog, merkleUpdateLog, update_of_ne hne]

theorem scanLogs_updates (es : List MerkleTreeNodeEvent) (m : B256 → Option B256)
    (hp : p.toNat < 2 ^ 192) (he : ∀ e ∈ es, 1 ≤ e.level ∧ e.level < 2 ^ 64) :
    ((es.map (merkleUpdateLog topics)).foldl (scanLog topics) m) p = m p := by
  induction es generalizing m with
  | nil => rfl
  | cons e es ih =>
    obtain ⟨h1, h2⟩ := he e (by simp)
    rw [List.map_cons, List.foldl_cons, ih _ fun e' h' => he e' (List.mem_cons_of_mem _ h'),
      scanLog_update topics m e hp h1 h2]

theorem scanLog_tx (c : SendCall) (hash : B256) (leafNum : Nat) :
    scanLog topics m (l2ToL1TxLog topics c hash leafNum) =
      update m (wordOfNat leafNum) (some hash) := by
  simp [scanLog, l2ToL1TxLog]

/-- The logs of one send, seen at a position below 192 bits. -/
theorem scanLogs_send {st : Backend} {r : SendResult} {k : Nat}
    (hr : doSendTxToL1 keccak256 topics st c = some r)
    (hsize : (sendMerkleAccumulator keccak256).size.get st = k) (hk : k + 1 < 2 ^ 64)
    (m : B256 → Option B256) (hp : p.toNat < 2 ^ 192) :
    (r.logs.foldl (scanLog topics) m) p =
      if p = wordOfNat k then some (computeSendHash keccak256 c) else m p := by
  have hleaf : wrap64 (wrap64 (k + 1) + u64Max) = k := by
    unfold wrap64 u64Max
    omega
  have hlevels : ∀ e ∈ ((sendMerkleAccumulator keccak256).append keccak256 st
      (computeSendHash keccak256 c)).2, 1 ≤ e.level ∧ e.level < 2 ^ 64 := by
    intro e he
    have h := appendLoop_levels keccak256 _ _ _ _ _ _ e he
    have := calcNumPartials_le ((sendMerkleAccumulator keccak256).size.get st)
    omega
  rw [(doSend_cases hr).2, List.foldl_append, List.foldl_cons, List.foldl_nil, hsize, hleaf,
    scanLog_tx]
  by_cases h : p = wordOfNat k
  · rw [h, update_self, if_pos rfl]
  · rw [update_of_ne h, if_neg h, scanLogs_updates topics _ _ hp hlevels]

theorem size_doSend {st : Backend} {r : SendResult}
    (hr : doSendTxToL1 keccak256 topics st c = some r) :
    (sendMerkleAccumulator keccak256).size.get r.state =
      wrap64 ((sendMerkleAccumulator keccak256).size.get st + 1) := by
  rw [(doSend_cases hr).1]
  exact size_append keccak256 (sendStorage keccak256) st _

theorem sendAll_cons {st st' : Backend} {calls : List SendCall} {logs : List Log}
    (h : sendAll keccak256 topics st (c :: calls) = some (st', logs)) :
    ∃ r rest, doSendTxToL1 keccak256 topics st c = some r ∧
      sendAll keccak256 topics r.state calls = some (st', rest) ∧ logs = r.logs ++ rest := by
  simp only [sendAll, Option.bind_eq_bind, Option.bind_eq_some_iff] at h
  obtain ⟨r, hr, ⟨s, rest⟩, hrest, heq⟩ := h
  obtain ⟨rfl, rfl⟩ := Prod.mk.inj (Option.some.inj heq)
  exact ⟨r, rest, hr, hrest, rfl⟩

/-- **The logs of a run of sends.** Under the topic of leaf `i` they carry send `i`, and under
    no other topic below 192 bits do they carry anything. -/
theorem scanLogs_sendAll : ∀ (calls : List SendCall) (st st' : Backend) (logs : List Log)
    (k : Nat) (m : B256 → Option B256),
      sendAll keccak256 topics st calls = some (st', logs) →
      (sendMerkleAccumulator keccak256).size.get st = k → k + calls.length < 2 ^ 64 →
      ∀ p : B256, p.toNat < 2 ^ 192 → (logs.foldl (scanLog topics) m) p =
        if k ≤ p.toNat then (calls[p.toNat - k]?.map (computeSendHash keccak256)).or (m p)
        else m p
  | [], st, st', logs, k, m, hrun, hsize, hk, p, hp => by
    obtain ⟨rfl, rfl⟩ := Prod.mk.inj (Option.some.inj hrun)
    simp
  | c :: calls, st, st', logs, k, m, hrun, hsize, hk, p, hp => by
    rw [List.length_cons] at hk
    obtain ⟨r, rest, hr, hrest, rfl⟩ := sendAll_cons keccak256 topics hrun
    have hsize' := size_doSend keccak256 topics hr
    rw [hsize, wrap64_of_lt (by omega)] at hsize'
    have hpk : p = wordOfNat k ↔ p.toNat = k := by
      rw [← BitVec.toNat_inj, wordOfNat_toNat (by omega)]
    rw [List.foldl_append, scanLogs_sendAll calls r.state st' rest (k + 1) _ hrest hsize'
      (by omega) p hp, scanLogs_send keccak256 topics hr hsize (by omega) m hp]
    -- below, at and above the leaf of this send
    rcases Nat.lt_trichotomy p.toNat k with h | h | h
    · rw [if_neg (by omega), if_neg (by rw [hpk]; omega), if_neg (by omega)]
    · rw [if_neg (by omega), if_pos (hpk.mpr h), if_pos (by omega), h, Nat.sub_self]
      rfl
    · rw [if_pos (by omega), if_neg (by rw [hpk]; omega), if_pos (by omega),
        show p.toNat - k = p.toNat - (k + 1) + 1 by omega]
      rfl

end Scan

/-! ## Folding a proof -/

section Fold

variable (keccak256 : Bytes → B256)

/-- The fold a verifier does: along the bits of the leaf from `level` on, with the sibling on
    the right when the bit is 0 and on the left when it is 1. -/
def verifyFold (leaf : Nat) : Nat → B256 → List B256 → B256
  | _, current, [] => current
  | level, current, sibling :: proof =>
    verifyFold leaf (level + 1) (keccak256 (stepInput (leaf.testBit level) current sibling)) proof

/-- The strings that fold hashes. -/
def foldInputs (leaf : Nat) : Nat → B256 → List B256 → List Bytes
  | _, _, [] => []
  | level, current, sibling :: proof =>
    let input := stepInput (leaf.testBit level) current sibling
    input :: foldInputs leaf (level + 1) (keccak256 input) proof

theorem and_two_pow_ne_zero (n i : Nat) : decide (n &&& 2 ^ i ≠ 0) = n.testBit i := by
  rw [Nat.and_two_pow]
  cases n.testBit i <;> simp

/-- The fold of the code follows the bits of the leaf. It sets bits of `place` as it goes, but
    none that it has yet to read. -/
theorem foldLoop_eq_verifyFold {leaf : Nat} : ∀ (proof : List B256) (level place : Nat)
    (current : B256), level + proof.length ≤ 64 →
      (∀ j, level ≤ j → place.testBit j = leaf.testBit j) →
      foldLoop keccak256 current place (2 ^ level) proof =
        verifyFold keccak256 leaf level current proof
  | [], _, _, _, _, _ => rfl
  | sibling :: proof, level, place, current, hlen, hplace => by
    rw [List.length_cons] at hlen
    rw [foldLoop, verifyFold, and_two_pow_ne_zero, hplace level (le_refl _)]
    cases proof with
    | nil => rfl
    | cons sibling' proof =>
      rw [List.length_cons] at hlen
      have hdouble : satMul64 (2 ^ level) 2 = 2 ^ (level + 1) := by
        rw [satMul64_of_lt, ← pow_succ]
        rw [← pow_succ]
        exact Nat.pow_lt_pow_right (by omega) (by omega)
      rw [hdouble]
      apply foldLoop_eq_verifyFold _ (level + 1) _ _ (by rw [List.length_cons]; omega)
      intro j hj
      rw [Nat.testBit_or, hplace j (by omega), Nat.testBit_two_pow_of_ne (by omega),
        Bool.or_false]

/-- No two of the strings hash alike. -/
def CollisionFreeOn (xs : List Bytes) : Prop :=
  ∀ x ∈ xs, ∀ y ∈ xs, keccak256 x = keccak256 y → x = y

theorem stepInput_inj {bit : Bool} {x y s : B256} (h : stepInput bit x s = stepInput bit y s) :
    x = y := by
  cases bit with
  | false => exact (pairBytes_inj h).1
  | true => exact (pairBytes_inj h).2

/-- Two folds along one proof that end alike began alike, or there is a collision. -/
theorem verifyFold_inj {leaf : Nat} : ∀ (proof : List B256) (level : Nat) (x y : B256),
    CollisionFreeOn keccak256
        (foldInputs keccak256 leaf level x proof ++ foldInputs keccak256 leaf level y proof) →
      verifyFold keccak256 leaf level x proof = verifyFold keccak256 leaf level y proof → x = y
  | [], _, _, _, _, h => h
  | sibling :: proof, level, x, y, hcf, h => by
    have hrest := verifyFold_inj proof (level + 1) _ _ ?_ h
    · apply stepInput_inj
      apply hcf _ _ _ _ hrest
      · simp [foldInputs]
      · simp [foldInputs]
    · intro u hu v hv
      apply hcf
      · simp only [foldInputs, List.mem_append, List.mem_cons] at hu ⊢
        tauto
      · simp only [foldInputs, List.mem_append, List.mem_cons] at hv ⊢
        tauto

end Fold

/-! ## Runs of sends and their proofs -/

section Runs

variable (keccak256 : Bytes → B256) (topics : Topics)

/-- A run of sends from a fresh accumulator at ArbOS version 4 or later, with every log kept. -/
structure SendRun where
  start : Backend
  calls : List SendCall
  final : Backend
  logs : List Log
  fresh : FreshAccumulator keccak256 (sendStorage keccak256) start
  ran : sendAll keccak256 topics start calls = some (final, logs)
  version : ∀ c ∈ calls, 4 ≤ c.arbosVersion
  count : calls.length < 2 ^ 64

variable {keccak256 topics} (r : SendRun keccak256 topics)

/-- The state right after the first `size` sends. -/
def SendRun.stateAfter (size : Nat) : Option Backend :=
  (sendAll keccak256 topics r.start (r.calls.take size)).map Prod.fst

/-- The proof of `leaf` in the tree of `size` sends verifies: it comes with the send of that
    leaf, its root is the root of the accumulator after `size` sends, and folding the hash of
    the send with it gives that root. -/
def SendRun.ProofVerifies (size leaf : Nat) : Prop :=
  ∃ call st root proof, r.calls[leaf]? = some call ∧ r.stateAfter size = some st ∧
    constructOutboxProof keccak256 topics r.logs size leaf =
      .ok (computeSendHash keccak256 call, root, proof) ∧
    (sendMerkleAccumulator keccak256).root keccak256 st = some root ∧
    verifyFold keccak256 leaf 0 (keccak256 (wordBytes (computeSendHash keccak256 call))) proof =
      root

/-- The strings hashed to build and to check the proof of a leaf: the message, the send hash,
    and the nodes of the two folds. -/
def SendRun.verificationInputs (size leaf : Nat) : List Bytes :=
  match r.calls[leaf]?, constructOutboxProof keccak256 topics r.logs size leaf with
  | some call, .ok (send, _, proof) =>
    sendPreimage call :: wordBytes send :: (foldInputs keccak256 leaf 0 send proof ++
      foldInputs keccak256 leaf 0 (keccak256 (wordBytes send)) proof)
  | _, _ => []

/-- What the logs hold at a position. -/
theorem SendRun.scanLogs_eq {p : B256} (hp : p.toNat < 2 ^ 192) :
    scanLogs topics r.logs p = r.calls[p.toNat]?.map (computeSendHash keccak256) := by
  have h := scanLogs_sendAll keccak256 topics r.calls r.start r.final r.logs 0 (fun _ => none)
    r.ran (r.fresh.size_get keccak256 _) (by have := r.count; omega) p hp
  rw [if_pos (Nat.zero_le _), Nat.sub_zero, Option.or_none] at h
  exact h

theorem walkLoop_length (size : Nat) : ∀ (left level place which : Nat),
    (walkLoop size left level place which).2.length = left
  | 0, _, _, _ => rfl
  | left + 1, level, place, which => by
    simp only [walkLoop, List.length_cons]
    rw [walkLoop_length size left]

variable {size leaf : Nat}

theorem planProof_eq (h : leaf < size) :
    ∃ plan, planProof size leaf = some plan ∧ plan.nodes.length ≤ 64 := by
  have hle : log2Ceil size ≤ 64 := calcNumPartials_le size
  unfold planProof
  rw [if_neg (by omega)]
  refine ⟨_, rfl, ?_⟩
  rw [walkLoop_length]
  split <;> omega

/-- **What the code returns**: the right send, a proof of at most 64 siblings, and the fold of
    the proof from the send hash itself. -/
theorem SendRun.construct_eq {call : SendCall} (hleaf : leaf < size)
    (hcall : r.calls[leaf]? = some call) :
    ∃ proof, proof.length ≤ 64 ∧ constructOutboxProof keccak256 topics r.logs size leaf =
      .ok (computeSendHash keccak256 call,
        verifyFold keccak256 leaf 0 (computeSendHash keccak256 call) proof, proof) := by
  obtain ⟨plan, hplan, hnodes⟩ := planProof_eq hleaf
  have hlt : leaf < 2 ^ 64 := by
    have := r.count
    have := (List.getElem?_eq_some_iff.mp hcall).1
    omega
  have hlook : scanLogs topics r.logs (LevelAndLeaf.asTopic ⟨0, leaf⟩) =
      some (computeSendHash keccak256 call) := by
    have hnat := asTopic_toNat (show 0 < 2 ^ 64 by decide) hlt
    rw [Nat.zero_mul, Nat.zero_add] at hnat
    rw [r.scanLogs_eq (by omega), hnat, hcall]
    rfl
  unfold constructOutboxProof finalizeProof
  simp only [hplan, hlook]
  refine ⟨plan.nodes.map fun pos => (scanLogs topics r.logs pos.asTopic).getD 0,
    by simpa using hnodes, ?_⟩
  rw [← foldLoop_eq_verifyFold keccak256 _ 0 leaf _ (by simpa using hnodes) fun _ _ => rfl,
    pow_zero]

/-- **No outbox proof verifies.** The code folds from the send hash, the accumulator's leaf is
    the hash of the send hash, and the two are equal only if a 32-byte string and a message
    of at least 168 bytes hash alike. -/
theorem outbox_proof_never_verifies {size leaf : Nat} (hleaf : leaf < size)
    (_hsize : size ≤ r.calls.length)
    (hcf : CollisionFreeOn keccak256 (r.verificationInputs size leaf)) :
    ¬ r.ProofVerifies size leaf := by
  rintro ⟨call, st, root, proof, hcall, -, hconstruct, -, hverify⟩
  obtain ⟨proof', -, hconstruct'⟩ := r.construct_eq hleaf hcall
  have heq := hconstruct.symm.trans hconstruct'
  simp only [Except.ok.injEq, Prod.mk.injEq, true_and] at heq
  obtain ⟨hroot, rfl⟩ := heq
  simp only [SendRun.verificationInputs, hcall, hconstruct] at hcf
  -- both folds end in `root`, so they began alike
  have hstart := verifyFold_inj keccak256 proof 0 _ _
    (fun x hx y hy => hcf x (by simp only [List.mem_cons]; tauto) y
      (by simp only [List.mem_cons]; tauto)) (hroot.symm.trans hverify.symm)
  have hpre : sendPreimage call = wordBytes (computeSendHash keccak256 call) :=
    hcf _ (by simp) _ (by simp) hstart
  have hlen := congrArg List.length hpre
  simp [sendPreimage] at hlen
  omega

end Runs

/-! ## One send -/

/-- The send of an empty message by the zero address under ArbOS version 30. -/
def emptySend : SendCall := ⟨0, 0, 0, [], 1, 1, 0, 30, 0⟩

/-- The event topics of the witness run. -/
def someTopics : Topics := ⟨1, 2⟩

/-- A run from empty storage, with the hash the code calls. -/
def freshRun (calls : List SendCall)
    (hran : (sendAll Keccak.keccak256 someTopics (fun _ _ => 0) calls).isSome = true)
    (version : ∀ c ∈ calls, 4 ≤ c.arbosVersion) (count : calls.length < 2 ^ 64) :
    SendRun Keccak.keccak256 someTopics where
  start := fun _ _ => 0
  calls := calls
  final := ((sendAll Keccak.keccak256 someTopics (fun _ _ => 0) calls).get hran).1
  logs := ((sendAll Keccak.keccak256 someTopics (fun _ _ => 0) calls).get hran).2
  fresh := ⟨rfl, fun _ _ => rfl⟩
  ran := (Option.some_get hran).symm
  version := version
  count := count

/-- The run of that one send. -/
def oneSend : SendRun Keccak.keccak256 someTopics :=
  freshRun [emptySend] (by decide +kernel) (by decide) (by decide)

theorem oneSend_construct :
    constructOutboxProof Keccak.keccak256 someTopics oneSend.logs 1 0 =
      .ok (computeSendHash Keccak.keccak256 emptySend,
        computeSendHash Keccak.keccak256 emptySend, []) := by
  decide +kernel

theorem hash_emptySend_ne :
    Keccak.keccak256 (wordBytes (computeSendHash Keccak.keccak256 emptySend)) ≠
      Keccak.keccak256 (sendPreimage emptySend) := by
  decide +kernel

/-- The tree of one send: its root is the hash of the send hash, the code returns the send
    hash. -/
theorem oneSend_proof_fails : ¬ oneSend.ProofVerifies 1 0 := by
  rintro ⟨call, st, root, proof, hcall, -, hconstruct, -, hverify⟩
  obtain rfl : call = emptySend := by
    have h : some emptySend = some call := hcall
    exact (Option.some.inj h).symm
  rw [oneSend_construct] at hconstruct
  simp only [Except.ok.injEq, Prod.mk.injEq, true_and] at hconstruct
  obtain ⟨rfl, rfl⟩ := hconstruct
  exact hash_emptySend_ne hverify

/-- The same send twice. -/
def twoSends : SendRun Keccak.keccak256 someTopics :=
  freshRun [emptySend, emptySend] (by decide +kernel) (by decide) (by decide)

/-- The hash the code calls has no collision on the strings of the second one's proof. -/
theorem outbox_proof_never_verifies_twoSends :
    CollisionFreeOn Keccak.keccak256 (twoSends.verificationInputs 2 1) ∧
      ¬ twoSends.ProofVerifies 2 1 := by
  have hcf : CollisionFreeOn Keccak.keccak256 (twoSends.verificationInputs 2 1) := by
    unfold CollisionFreeOn
    decide +kernel
  exact ⟨hcf, outbox_proof_never_verifies twoSends (by decide) (by decide) hcf⟩

end Arbreth.Outbox
