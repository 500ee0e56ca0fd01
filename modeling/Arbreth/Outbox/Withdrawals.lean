/-
  Withdrawn ether leaves L2 exactly once.

  A send through ArbSys leaves three traces: the value its call moved to the ArbSys account, a leaf
  of the send accumulator and an `L2ToL1Tx` log. `commit_transaction` only sees the logs, adds up
  the call values in them and burns the sum from the ArbSys account. `Steps` is a tree of calls
  like `Acts`, in which the calls of ArbSys name their method; what they do is `handler`, as in
  arbsys.rs. By induction over the tree the three traces agree in every frame (`Books`), however
  the calls are made and whichever frames are reverted.

  Of all other code it is assumed that it logs under other addresses, leaves the subspace of the
  sends alone and takes no ether from ArbSys (`Harmless`).
-/
import Arbreth.Exec.Tips
import Arbreth.Outbox.ArbSys
import Arbreth.Stylus.Frames

namespace Arbreth.Outbox

open Arbreth.Lib Arbreth.Merkle Arbreth.ArbSys Function
open Arbreth.Exec hiding arbsysAddress Log Frame
open Arbreth.Stylus (Journal CallScheme CodeKind Frame Acts Ran)

/-! ## The precompile -/

/-- The method a call of ArbSys names. -/
inductive Method where
  | withdrawEth (destination : Address)
  | sendTxToL1 (destination : Address) (calldata : Bytes)
  | mapL1SenderContractAddressToL2Alias
  | view
  | undecodable
  deriving DecidableEq

/-- `withdrawEth` and `sendTxToL1`: payable, and refused where the call is static. -/
def Method.sends : Method → Bool
  | .withdrawEth _ => true
  | .sendTxToL1 _ _ => true
  | _ => false

/-- The one method that may be called for another account. -/
def Method.isPure (m : Method) : Bool := m = .mapL1SenderContractAddressToL2Alias

/-- The block a transaction runs in. -/
structure SendBlock where
  l2BlockNumber : Nat
  l1BlockNumber : Nat
  timestamp : U256
  arbosVersion : Nat

/-- A call of ArbSys: the method, the number of native token owners it finds, whether a method
    that sends nothing returns, and whether the gas suffices. -/
structure ArbSysInput where
  method : Method
  nativeTokenOwners : Nat
  answers : Bool
  gasSuffices : Bool

/-- What `handler` refuses before it looks at the method: data it cannot decode, value for a
    method that is not payable, a send in a static call, and a call for another account. -/
def refuses (callee : Frame) (m : Method) : Bool :=
  m = .undecodable || (callee.callValue ≠ 0 && !m.sends) || (callee.isStatic && m.sends) ||
    (callee.self ≠ arbsysAddress && !m.isPure)

section Handler

variable (keccak256 : Bytes → B256) (topics : Topics) (block : SendBlock)

/-- The send a call asks for. -/
def sendOf (callee : Frame) (i : ArbSysInput) : Option SendCall :=
  let send (destination : Address) (calldata : Bytes) : SendCall :=
    ⟨callee.caller, destination, callee.callValue, calldata, block.l2BlockNumber,
      block.l1BlockNumber, block.timestamp, block.arbosVersion, i.nativeTokenOwners⟩
  match i.method with
  | .withdrawEth destination => some (send destination [])
  | .sendTxToL1 destination calldata => some (send destination calldata)
  | _ => none

/-- The send's effect on the journal, where it does not revert. -/
def sendEffect (c : SendCall) (j : Journal) : Journal :=
  match doSendTxToL1 keccak256 topics j.storage c with
  | some r => { j with
      storage := r.state
      logs := j.logs ++ r.logs.map fun l => ⟨l.address, l.topics, l.data⟩ }
  | none => j

/-- A send with value reverts while native token owners exist. -/
def SendCall.blocked (c : SendCall) : Bool :=
  c.value ≠ 0 && 41 ≤ c.arbosVersion && c.nativeTokenOwners ≠ 0

/-- `handler`, as the acts of the precompile's frame. Gas is checked last. -/
def handler (callee : Frame) (i : ArbSysInput) : Acts :=
  if refuses callee i.method then .done false
  else
    match sendOf block callee i with
    | none => .done (i.answers && i.gasSuffices)
    | some c =>
      if SendCall.blocked c then .done false
      else .change (sendEffect keccak256 topics c) (.done i.gasSuffices)

end Handler

/-! ## Trees of calls -/

/-- The acts of a frame in order. A call of ArbSys says what it asks for. -/
inductive Steps where
  | done (success : Bool)
  | change (effect : Journal → Journal) (rest : Steps)
  | arbsys (scheme : CallScheme) (value : U256) (input : ArbSysInput) (rest : Steps)
  | call (scheme : CallScheme) (address : Address) (value : U256) (code : CodeKind)
      (body rest : Steps)
  | create (endowment : U256) (created : Address) (deployed : Bytes) (init rest : Steps)

open Steps

/-- The frame a call enters, if it does. -/
def calleeOf (f : Frame) (scheme : CallScheme) (address : Address) (value : U256)
    (code : CodeKind) : Frame :=
  let i := f.callInputs scheme address value
  if f.runner = .revm then ⟨code.revmRunner, i.targetAddress, i.caller, i.value, i.isStatic⟩
  else ⟨code.trampolineRunner, i.targetAddress, i.caller, i.value, scheme.callType = 2⟩

theorem enter_eq_calleeOf {f callee : Frame} {scheme : CallScheme} {address : Address} {value : U256}
    {code : CodeKind} {j j₁ : Journal}
    (h : f.enter scheme address value code j = some (j₁, callee)) :
    callee = calleeOf f scheme address value code := by
  have hscheme : (f.callInputs scheme address value).scheme = scheme := by cases scheme <;> rfl
  unfold Frame.enter at h
  unfold calleeOf
  split at h
  · next hrunner =>
      obtain ⟨_, _, heq⟩ := Option.map_eq_some_iff.mp h
      injection heq with _ heq
      rw [if_pos hrunner, ← heq]
  · cases h
  all_goals
    next hrunner =>
      obtain ⟨_, _, heq⟩ := Option.map_eq_some_iff.mp h
      injection heq with _ heq
      rw [if_neg (by simp [hrunner]), ← heq, hscheme]

/-- What a tally counts: the sends that are not undone, and the ether ArbSys received otherwise. -/
structure Tally where
  sends : List SendCall
  received : Nat

namespace Tally

def zero : Tally := ⟨[], 0⟩

def add (t t' : Tally) : Tally := ⟨t.sends ++ t'.sends, t.received + t'.received⟩

/-- The values of the sends together. -/
def withdrawn (t : Tally) : Nat := (t.sends.map fun c => c.value.toNat).sum

end Tally

/-- What the ArbSys account gained from one state to another. -/
def gained (j j' : Journal) : Nat := (j'.balance arbsysAddress).toNat - (j.balance arbsysAddress).toNat

section Trees

variable (keccak256 : Bytes → B256) (topics : Topics) (block : SendBlock)

/-- The same tree with the acts of ArbSys filled in. -/
def Steps.acts (f : Frame) : Steps → Acts
  | .done success => .done success
  | .change effect rest => .change effect (rest.acts f)
  | .arbsys scheme value input rest =>
    .call scheme arbsysAddress value .precompile
      (handler keccak256 topics block (calleeOf f scheme arbsysAddress value .precompile) input)
      (rest.acts f)
  | .call scheme address value code body rest =>
    .call scheme address value code (body.acts (calleeOf f scheme address value code)) (rest.acts f)
  | .create endowment created deployed init rest =>
    .create endowment created deployed (init.acts (f.initFrame endowment created)) (rest.acts f)

/-- What a sub-frame that ended adds. -/
def tallyOf (r : Ran) (t : Tally) : Tally := if r.success then t else .zero

/-- The sends of a frame and the frames below it that are not undone, in order, and what else
    ArbSys received. -/
def Steps.tally (f : Frame) : Steps → Journal → Tally
  | .done _, _ => .zero
  | .change effect rest, j =>
    if f.isStatic then rest.tally f j
    else .add ⟨[], gained j (effect j)⟩ (rest.tally f (effect j))
  | .arbsys scheme value input rest, j =>
    if f.refusesCall scheme value then rest.tally f j
    else
      match f.enter scheme arbsysAddress value .precompile j with
      | none => rest.tally f j
      | some (j₁, callee) =>
        let sub := (handler keccak256 topics block callee input).run callee j₁
        .add (tallyOf sub ⟨(sendOf block callee input).toList, 0⟩) (rest.tally f (sub.close j id))
  | .call scheme address value code body rest, j =>
    if f.refusesCall scheme value then rest.tally f j
    else
      match f.enter scheme address value code j with
      | none => rest.tally f j
      | some (j₁, callee) =>
        let sub := (body.acts keccak256 topics block callee).run callee j₁
        .add (tallyOf sub (body.tally callee j₁)) (rest.tally f (sub.close j id))
  | .create endowment created deployed init rest, j =>
    if f.isStatic then rest.tally f j
    else
      match f.enterCreate endowment created j with
      | none => rest.tally f j
      | some (bumped, none) => rest.tally f bumped
      | some (bumped, some j₁) =>
        let callee := f.initFrame endowment created
        let sub := (init.acts keccak256 topics block callee).run callee j₁
        let j₂ := sub.close bumped fun j' =>
          { j' with code := update j'.code created deployed }
        .add (tallyOf sub (init.tally callee j₁)) (rest.tally f j₂)

end Trees

/-! ## The three traces -/

/-- What the scan of `commit_transaction` reads from a log. -/
def withdrawnValue (log : Exec.Log) : Option U256 :=
  if log.address = Exec.arbsysAddress ∧ log.topics.head? = some l2ToL1TxTopic ∧
      160 ≤ log.data.length then
    some (BitVec.ofNat 256 (beNat ((log.data.drop 128).take 32)))
  else none

/-- The call values in a list of logs. -/
def withdrawnIn (logs : List Exec.Log) : List U256 := logs.filterMap withdrawnValue

theorem withdrawals_eq (r : TxResult) :
    withdrawals r = if r.success then withdrawnIn r.logs else [] := rfl

section Traces

variable (keccak256 : Bytes → B256)

/-- The leaf of a send. -/
def leafOf (c : SendCall) : B256 := keccak256 (wordBytes (computeSendHash keccak256 c))

/-- The send accumulator holds these leaves. -/
def Accumulated (leaves : List B256) (st : Backend) : Prop :=
  Holds keccak256 (sendStorage keccak256) (fun i => leaves.getD i 0) leaves.length st ∧
    ∀ l ∈ leaves, l ≠ 0

/-- The traces agree from one state of the journal to another: the ArbSys account has the values
    of the sends and what else it received, the logs have the values, the accumulator the leaves. -/
structure Books (j j' : Journal) (t : Tally) : Prop where
  balance : (j'.balance arbsysAddress).toNat =
    (j.balance arbsysAddress).toNat + t.withdrawn + t.received
  logs : withdrawnIn j'.logs = withdrawnIn j.logs ++ t.sends.map SendCall.value
  leaves : ∀ leaves, Accumulated keccak256 leaves j.storage →
    leaves.length + t.sends.length < 2 ^ 64 →
      Accumulated keccak256 (leaves ++ t.sends.map (leafOf keccak256)) j'.storage

/-- What code other than ArbSys may do. -/
structure Harmless (effect : Journal → Journal) : Prop where
  balance : ∀ j, (j.balance arbsysAddress).toNat ≤ ((effect j).balance arbsysAddress).toNat
  logs : ∀ j, ∃ new, (effect j).logs = j.logs ++ new ∧ ∀ l ∈ new, l.address ≠ arbsysAddress
  sends : ∀ j o, sload (effect j).storage arbosStateAddress ((sendStorage keccak256).newSlot keccak256 o) =
    sload j.storage arbosStateAddress ((sendStorage keccak256).newSlot keccak256 o)

/-- Every change is harmless, calls of ArbSys are steps of their own, and no contract is created
    at its address. -/
def Steps.WellFormed : Steps → Prop
  | .done _ => True
  | .change effect rest => Harmless keccak256 effect ∧ rest.WellFormed
  | .arbsys _ _ _ rest => rest.WellFormed
  | .call _ address _ _ body rest => address ≠ arbsysAddress ∧ body.WellFormed ∧ rest.WellFormed
  | .create _ created _ init rest => created ≠ arbsysAddress ∧ init.WellFormed ∧ rest.WellFormed

end Traces

variable {keccak256 : Bytes → B256} {topics : Topics} {block : SendBlock} {j j' j'' j₁ : Journal}
  {t t' : Tally} {f callee : Frame}

theorem Books.of_eq (hbalance : j'.balance arbsysAddress = j.balance arbsysAddress)
    (hlogs : j'.logs = j.logs) (hstorage : j'.storage = j.storage) :
    Books keccak256 j j' .zero := by
  refine ⟨by rw [hbalance]; rfl, by rw [hlogs]; exact (List.append_nil _).symm, ?_⟩
  intro leaves h _
  rw [hstorage]
  exact (List.append_nil leaves).symm ▸ h

theorem Books.refl (j : Journal) : Books keccak256 j j .zero := .of_eq rfl rfl rfl

theorem Books.trans (h : Books keccak256 j j' t) (h' : Books keccak256 j' j'' t') :
    Books keccak256 j j'' (t.add t') := by
  refine ⟨?_, ?_, ?_⟩
  · have hsum : (t.add t').withdrawn = t.withdrawn + t'.withdrawn := by
      simp [Tally.withdrawn, Tally.add]
    have hreceived : (t.add t').received = t.received + t'.received := rfl
    rw [h'.balance, h.balance, hsum, hreceived]
    omega
  · rw [h'.logs, h.logs, List.append_assoc, ← List.map_append]
    rfl
  · intro leaves hl hlen
    have hlen' : leaves.length + (t.sends.length + t'.sends.length) < 2 ^ 64 := by
      rw [← List.length_append]
      exact hlen
    have hstep := h'.leaves _ (h.leaves leaves hl (by omega)) (by
      rw [List.length_append, List.length_map]
      omega)
    rw [List.append_assoc, ← List.map_append] at hstep
    exact hstep

theorem zero_add_tally (t : Tally) : Tally.zero.add t = t := by
  unfold Tally.zero Tally.add
  rw [List.nil_append, Nat.zero_add]

variable {leaves : List B256} {c : SendCall}

/-- A state in which the subspace of the sends reads the same holds the same leaves. -/
theorem Accumulated.congr {st st' : Backend} (h : Accumulated keccak256 leaves st)
    (hreads : ∀ o, sload st' arbosStateAddress ((sendStorage keccak256).newSlot keccak256 o) =
      sload st arbosStateAddress ((sendStorage keccak256).newSlot keccak256 o)) :
    Accumulated keccak256 leaves st' := by
  refine ⟨⟨?_, fun l hl => ?_⟩, h.2⟩
  · rw [← h.1.size]
    unfold StorageBackedUint64.get
    rw [show sload st' arbosStateAddress (openMerkleAccumulator keccak256
      (sendStorage keccak256)).size.slot = _ from hreads 0]
    rfl
  · rw [← h.1.levels l hl]
    exact hreads (wrap64 (2 + l))

theorem books_of_harmless {effect : Journal → Journal} (h : Harmless keccak256 effect) (j : Journal) :
    Books keccak256 j (effect j) ⟨[], gained j (effect j)⟩ := by
  refine ⟨?_, ?_, fun leaves hl _ => ?_⟩
  · have hle := h.balance j
    change _ = (j.balance arbsysAddress).toNat + 0 + gained j (effect j)
    unfold gained
    omega
  · obtain ⟨new, hnew, hother⟩ := h.logs j
    have hnone : new.filterMap withdrawnValue = [] :=
      List.filterMap_eq_nil_iff.mpr fun l hl => if_neg fun hc => hother l hl hc.1
    rw [hnew, withdrawnIn, List.filterMap_append, hnone]
    rfl
  · rw [List.map_nil, List.append_nil]
    exact hl.congr (h.sends j)

/-! ## One send -/

theorem l2ToL1TxData_value (c : SendCall) :
    160 ≤ (l2ToL1TxData c).length ∧
      wordOfBytes (((l2ToL1TxData c).drop 128).take 32) = c.value := by
  have hsplit : l2ToL1TxData c =
      (List.replicate 12 0 ++ addressBytes c.caller ++ wordBytes (wordOfNat c.l2BlockNumber) ++
        wordBytes (wordOfNat c.l1BlockNumber) ++ wordBytes c.timestamp) ++
      (wordBytes c.value ++ (wordBytes (wordOfNat (6 * 32)) ++
        wordBytes (wordOfNat c.calldata.length) ++ c.calldata ++
        List.replicate ((32 - c.calldata.length % 32) % 32) 0)) := by
    simp only [l2ToL1TxData, List.append_assoc]
  have hhead : (List.replicate 12 (0 : UInt8) ++ addressBytes c.caller ++
      wordBytes (wordOfNat c.l2BlockNumber) ++ wordBytes (wordOfNat c.l1BlockNumber) ++
      wordBytes c.timestamp).length = 128 := by
    simp [addressBytes]
  constructor
  · rw [hsplit, List.length_append, hhead, List.length_append, wordBytes_length]
    omega
  · rw [hsplit, List.drop_left' hhead, List.take_left' (wordBytes_length _), wordOfBytes_wordBytes]

/-- The logs of a send: one of them is read by the scan, with the value of the send. -/
theorem withdrawnIn_send {st : Backend} {r : SendResult}
    (htopic : topics.l2ToL1Tx = l2ToL1TxTopic)
    (hupdate : topics.sendMerkleUpdate ≠ topics.l2ToL1Tx)
    (hr : doSendTxToL1 keccak256 topics st c = some r) :
    withdrawnIn (r.logs.map fun l => ⟨l.address, l.topics, l.data⟩) = [c.value] := by
  obtain ⟨-, hlogs⟩ := doSend_cases hr
  obtain ⟨hlen, hvalue⟩ := l2ToL1TxData_value c
  rw [hlogs, List.map_append, withdrawnIn, List.filterMap_append]
  have hnone : ((((sendMerkleAccumulator keccak256).append keccak256 st
      (computeSendHash keccak256 c)).2.map (merkleUpdateLog topics)).map fun l =>
        (⟨l.address, l.topics, l.data⟩ : Exec.Log)).filterMap withdrawnValue = [] := by
    refine List.filterMap_eq_nil_iff.mpr fun log hlog => if_neg fun hc => ?_
    obtain ⟨l, hl, rfl⟩ := List.mem_map.mp hlog
    obtain ⟨e, -, rfl⟩ := List.mem_map.mp hl
    exact hupdate (Option.some.inj (hc.2.1.trans (congrArg some htopic.symm)))
  rw [hnone, List.nil_append, List.map_singleton, List.filterMap_cons]
  have hread : withdrawnValue ⟨arbsysAddress, [topics.l2ToL1Tx, c.destination.setWidth 256,
      computeSendHash keccak256 c, wordOfNat (wrap64 (wrap64
        ((sendMerkleAccumulator keccak256).size.get st + 1) + u64Max))], l2ToL1TxData c⟩ =
      some c.value := by
    unfold withdrawnValue
    rw [if_pos ⟨rfl, congrArg some htopic, hlen⟩]
    exact congrArg some hvalue
  simp only [l2ToL1TxLog, hread, List.filterMap_nil]

theorem Accumulated.send {st : Backend} {r : SendResult} (hk : ∀ x, keccak256 x ≠ 0)
    (h : Accumulated keccak256 leaves st) (hlen : leaves.length + 1 < 2 ^ 64)
    (hr : doSendTxToL1 keccak256 topics st c = some r) :
    Accumulated keccak256 (leaves ++ [leafOf keccak256 c]) r.state := by
  obtain ⟨hstate, -⟩ := doSend_cases hr
  have hsame : ∀ i, i < leaves.length →
      leaves.getD i 0 = (leaves ++ [leafOf keccak256 c]).getD i 0 := by
    intro i hi
    rw [List.getD_append _ _ _ _ hi]
  have hold : Holds keccak256 (sendStorage keccak256)
      (fun i => (leaves ++ [leafOf keccak256 c]).getD i 0) leaves.length st :=
    ⟨h.1.size, fun l hl => (h.1.levels l hl).trans (frontierAt_congr _ _ _ hsame l)⟩
  have hnonzero : ∀ i, i < leaves.length → (leaves ++ [leafOf keccak256 c]).getD i 0 ≠ 0 := by
    intro i hi
    rw [← hsame i hi, List.getD_eq_getElem _ _ hi]
    exact h.2 _ (List.getElem_mem hi)
  refine ⟨?_, ?_⟩
  · rw [hstate, List.length_append, List.length_singleton]
    exact append_holds keccak256 hk hold hlen hnonzero (by
      rw [List.getD_append_right _ _ _ _ (Nat.le_refl _), Nat.sub_self]
      rfl)
  · intro l hl
    rcases List.mem_append.mp hl with hl | hl
    · exact h.2 l hl
    · rw [List.mem_singleton.mp hl]
      exact hk _

variable (keccak256 topics) in
theorem doSend_of_not_blocked (st : Backend) {c : SendCall} (h : SendCall.blocked c = false) :
    ∃ r, doSendTxToL1 keccak256 topics st c = some r := by
  unfold doSendTxToL1
  rw [if_neg]
  · exact ⟨_, rfl⟩
  · rintro ⟨hvalue, hversion, howners⟩
    simp [SendCall.blocked, hversion, howners] at h
    exact hvalue h

/-! ## Transfers and calls -/

theorem transfer_spec {src dst : Address} {value : U256} (hsrc : src ≠ arbsysAddress)
    (h : j.transfer src dst value = some j₁) :
    (j₁.balance arbsysAddress).toNat =
        (j.balance arbsysAddress).toNat + (if dst = arbsysAddress then value.toNat else 0) ∧
      j₁.logs = j.logs ∧ j₁.storage = j.storage := by
  unfold Journal.transfer at h
  split at h
  · cases h
  · by_cases hnop : src = dst ∨ value = 0
    · rw [if_pos hnop] at h
      cases h
      refine ⟨?_, rfl, rfl⟩
      rcases hnop with rfl | rfl
      · rw [if_neg hsrc, Nat.add_zero]
      · split <;> rfl
    · rw [if_neg hnop] at h
      split at h
      · cases h
      · cases h
        refine ⟨?_, rfl, rfl⟩
        dsimp only
        by_cases hdst : dst = arbsysAddress
        · subst hdst
          rw [update_self, if_pos rfl, BitVec.toNat_add, Nat.mod_eq_of_lt (by omega)]
        · rw [update_of_ne (Ne.symm hdst), update_of_ne hsrc.symm, if_neg hdst,
            Nat.add_zero]

section Calls

variable {scheme : CallScheme} {address : Address} {value : U256} {code : CodeKind}

/-- Entering a call either moves nothing, or moves its value out of the calling account. -/
theorem enter_cases (h : f.enter scheme address value code j = some (j₁, callee)) :
    j₁ = j ∧ (callee.callValue = 0 ∨ scheme = .delegateCall) ∨
      ∃ dst, (dst = address ∨ scheme = .callCode ∧ dst = f.self) ∧
        j.transfer f.self dst callee.callValue = some j₁ := by
  unfold Frame.enter at h
  split at h
  · obtain ⟨j₂, htransfer, heq⟩ := Option.map_eq_some_iff.mp h
    injection heq with hj hcallee
    subst hj hcallee
    cases scheme with
    | delegateCall => exact .inl ⟨(Option.some.inj htransfer).symm, .inr rfl⟩
    | call => exact .inr ⟨address, .inl rfl, htransfer⟩
    | callCode => exact .inr ⟨f.self, .inr ⟨rfl, rfl⟩, htransfer⟩
    | staticCall => exact .inr ⟨address, .inl rfl, htransfer⟩
  · cases h
  all_goals
    obtain ⟨j₂, htransfer, heq⟩ := Option.map_eq_some_iff.mp h
    injection heq with hj hcallee
    subst hj hcallee
    split at htransfer
    · next hmoves =>
        cases scheme with
        | delegateCall => exact absurd rfl hmoves.1
        | call => exact .inr ⟨address, .inl rfl, htransfer⟩
        | callCode => exact .inr ⟨address, .inl rfl, htransfer⟩
        | staticCall => exact absurd rfl hmoves.2
    · next hkeeps =>
        refine .inl ⟨(Option.some.inj htransfer).symm, ?_⟩
        by_cases hdelegate : scheme = .delegateCall
        · exact .inr hdelegate
        · refine .inl (by_contra fun hvalue => hkeeps ⟨?_, hvalue⟩)
          cases scheme <;> simp_all [Frame.callInputs, CallScheme.callType]

/-- The account a callee acts for. -/
theorem callee_self (h : f.enter scheme address value code j = some (j₁, callee)) :
    callee.self = address ∧ (scheme = .call ∨ scheme = .staticCall) ∨
      callee.self = f.self ∧ (scheme = .callCode ∨ scheme = .delegateCall) := by
  rw [enter_eq_calleeOf h]
  unfold calleeOf
  split <;> cases scheme <;> simp [Frame.callInputs]

variable (keccak256) in
theorem enter_other (hself : f.self ≠ arbsysAddress) (haddress : address ≠ arbsysAddress)
    (h : f.enter scheme address value code j = some (j₁, callee)) :
    Books keccak256 j j₁ .zero ∧ callee.self ≠ arbsysAddress := by
  constructor
  · rcases enter_cases h with ⟨rfl, -⟩ | ⟨dst, hdst, htransfer⟩
    · exact .refl _
    · obtain ⟨hbalance, hlogs, hstorage⟩ := transfer_spec hself htransfer
      have hne : dst ≠ arbsysAddress := by
        rcases hdst with rfl | ⟨-, rfl⟩
        exacts [haddress, hself]
      rw [if_neg hne, Nat.add_zero] at hbalance
      exact .of_eq (BitVec.eq_of_toNat_eq hbalance) hlogs hstorage
  · rcases callee_self h with ⟨hcallee, -⟩ | ⟨hcallee, -⟩
    · rw [hcallee]
      exact haddress
    · rw [hcallee]
      exact hself

/-- A call of ArbSys: nothing but its balance may change, and that by the call's value where the
    call is made for ArbSys itself, and not at all where the call has no value. -/
theorem enter_arbsys (hself : f.self ≠ arbsysAddress)
    (h : f.enter scheme arbsysAddress value code j = some (j₁, callee)) :
    j₁.logs = j.logs ∧ j₁.storage = j.storage ∧
      (callee.callValue = 0 → (j₁.balance arbsysAddress).toNat = (j.balance arbsysAddress).toNat) ∧
      (callee.self = arbsysAddress → (j₁.balance arbsysAddress).toNat =
        (j.balance arbsysAddress).toNat + callee.callValue.toNat) := by
  have hscheme : callee.self = arbsysAddress → scheme ≠ .callCode ∧ scheme ≠ .delegateCall := by
    intro hcallee
    rcases callee_self h with ⟨-, rfl | rfl⟩ | ⟨hsame, -⟩
    · exact ⟨nofun, nofun⟩
    · exact ⟨nofun, nofun⟩
    · exact absurd (hsame.symm.trans hcallee) hself
  rcases enter_cases h with ⟨rfl, hnone⟩ | ⟨dst, hdst, htransfer⟩
  · refine ⟨rfl, rfl, fun _ => rfl, fun hcallee => ?_⟩
    rw [hnone.resolve_right (hscheme hcallee).2]
    rfl
  · obtain ⟨hbalance, hlogs, hstorage⟩ := transfer_spec hself htransfer
    refine ⟨hlogs, hstorage, fun h0 => ?_, fun hcallee => ?_⟩
    · rw [hbalance, h0]
      split <;> rfl
    · rw [hbalance, if_pos (hdst.resolve_right fun hc => (hscheme hcallee).1 hc.1)]

end Calls

variable (keccak256) in
theorem enterCreate_other {endowment : U256} {created : Address} {bumped : Journal}
    {funded : Option Journal} (hself : f.self ≠ arbsysAddress) (hcreated : created ≠ arbsysAddress)
    (h : f.enterCreate endowment created j = some (bumped, funded)) :
    Books keccak256 j bumped .zero ∧ ∀ j₁, funded = some j₁ → Books keccak256 j j₁ .zero := by
  unfold Frame.enterCreate at h
  split at h
  · cases h
  · injection h with h
    injection h with hbumped hfunded
    subst hbumped
    refine ⟨.of_eq rfl rfl rfl, fun j₁ hj₁ => ?_⟩
    rw [← hfunded] at hj₁
    obtain ⟨hbalance, hlogs, hstorage⟩ := transfer_spec hself hj₁
    rw [if_neg hcreated, Nat.add_zero] at hbalance
    exact .of_eq (BitVec.eq_of_toNat_eq hbalance) hlogs hstorage

/-! ## A call of ArbSys -/

/-- What `handler` lets through: a send is made for ArbSys itself and not in a static call, and
    nothing else has value. -/
theorem accepted_of_not_refuses {m : Method} (h : refuses callee m = false) :
    (m.sends = true → callee.isStatic = false ∧ callee.self = arbsysAddress) ∧
      (m.sends = false → callee.callValue = 0) := by
  simp only [refuses, Bool.or_eq_false_iff, Bool.and_eq_false_iff, decide_eq_false_iff_not,
    not_not] at h
  obtain ⟨⟨⟨-, hpayable⟩, hstatic⟩, hdelegate⟩ := h
  constructor
  · intro hsends
    refine ⟨hstatic.resolve_right (by simp [hsends]), hdelegate.resolve_right ?_⟩
    cases m <;> simp_all [Method.sends, Method.isPure]
  · intro hsends
    exact hpayable.resolve_right (by simp [hsends])

theorem sendOf_cases (block : SendBlock) (callee : Frame) (input : ArbSysInput) :
    sendOf block callee input = none ∧ input.method.sends = false ∨
      ∃ c, sendOf block callee input = some c ∧ c.value = callee.callValue ∧
        input.method.sends = true := by
  unfold sendOf
  cases input.method with
  | withdrawEth destination => exact .inr ⟨_, rfl, rfl, rfl⟩
  | sendTxToL1 destination calldata => exact .inr ⟨_, rfl, rfl, rfl⟩
  | mapL1SenderContractAddressToL2Alias => exact .inl ⟨rfl, rfl⟩
  | view => exact .inl ⟨rfl, rfl⟩
  | undecodable => exact .inl ⟨rfl, rfl⟩

/-- A frame that ends: its books count where it succeeds, and nothing happened where it fails. -/
theorem Books.close {r : Ran} {finish : Journal → Journal} (hbefore : Books keccak256 j j' .zero)
    (hsub : Books keccak256 j' r.journal t) (hfinish : ∀ j, (finish j).balance = j.balance ∧
      (finish j).logs = j.logs ∧ (finish j).storage = j.storage)
    {kept : Journal} (hkept : Books keccak256 j kept .zero) :
    Books keccak256 j (r.close kept finish) (tallyOf r t) := by
  unfold Ran.close tallyOf
  cases r.success with
  | false => exact hkept
  | true =>
    obtain ⟨hbalance, hlogs, hstorage⟩ := hfinish r.journal
    have hdone : Books keccak256 r.journal (finish r.journal) .zero :=
      .of_eq (congrFun hbalance _) hlogs hstorage
    have hall := (hbefore.trans hsub).trans hdone
    rw [zero_add_tally] at hall
    simpa [Tally.add, Tally.zero] using hall

/-! ## All frames -/

section Sends

variable (hk : ∀ x, keccak256 x ≠ 0) (htopic : topics.l2ToL1Tx = l2ToL1TxTopic)
  (hupdate : topics.sendMerkleUpdate ≠ topics.l2ToL1Tx)

include hk htopic hupdate

/-- A send adds its leaf and its log, and moves no ether itself. -/
theorem sendEffect_spec (hblocked : SendCall.blocked c = false) (j : Journal) :
    (sendEffect keccak256 topics c j).balance = j.balance ∧
      withdrawnIn (sendEffect keccak256 topics c j).logs = withdrawnIn j.logs ++ [c.value] ∧
      ∀ leaves, Accumulated keccak256 leaves j.storage → leaves.length + 1 < 2 ^ 64 →
        Accumulated keccak256 (leaves ++ [leafOf keccak256 c])
          (sendEffect keccak256 topics c j).storage := by
  obtain ⟨r, hr⟩ := doSend_of_not_blocked keccak256 topics j.storage hblocked
  have heffect : sendEffect keccak256 topics c j = { j with
      storage := r.state
      logs := j.logs ++ r.logs.map fun l => ⟨l.address, l.topics, l.data⟩ } := by
    unfold sendEffect
    rw [hr]
  rw [heffect]
  refine ⟨rfl, ?_, fun leaves hl hlen => hl.send hk hlen hr⟩
  change (j.logs ++ _).filterMap withdrawnValue = _
  rw [List.filterMap_append]
  exact congrArg (_ ++ ·) (withdrawnIn_send htopic hupdate hr)

/-- However ArbSys is called, its three traces agree afterwards. -/
theorem books_arbsys {scheme : CallScheme} {value : U256} {code : CodeKind} {input : ArbSysInput}
    (hself : f.self ≠ arbsysAddress)
    (h : f.enter scheme arbsysAddress value code j = some (j₁, callee)) :
    Books keccak256 j
      (((handler keccak256 topics block callee input).run callee j₁).close j id)
      (tallyOf ((handler keccak256 topics block callee input).run callee j₁)
        ⟨(sendOf block callee input).toList, 0⟩) := by
  obtain ⟨hlogs, hstorage, hnone, hvalue⟩ := enter_arbsys hself h
  have hundone : ∀ r : Ran, r.success = false → Books keccak256 j (r.close j id)
      (tallyOf r ⟨(sendOf block callee input).toList, 0⟩) := by
    intro r hr
    unfold Ran.close tallyOf
    rw [hr]
    exact .refl j
  unfold handler
  cases hrefuses : refuses callee input.method with
  | true => exact hundone _ rfl
  | false =>
    obtain ⟨hsend, hother⟩ := accepted_of_not_refuses hrefuses
    rw [if_neg Bool.false_ne_true]
    rcases sendOf_cases block callee input with
      ⟨hsendOf, hmethod⟩ | ⟨c, hsendOf, hcvalue, hmethod⟩
    · -- Another method: it has no value, so that nothing was moved to ArbSys.
      simp only [hsendOf]
      cases hok : input.answers && input.gasSuffices with
      | false => exact .refl j
      | true =>
        exact .of_eq (BitVec.eq_of_toNat_eq (hnone (hother hmethod))) hlogs hstorage
    · obtain ⟨hstatic, hcallee⟩ := hsend hmethod
      simp only [hsendOf]
      cases hblocked : SendCall.blocked c with
      | true => exact .refl j
      | false =>
        have hrun : ∀ gas, (Acts.change (sendEffect keccak256 topics c) (.done gas)).run callee j₁ =
            ⟨sendEffect keccak256 topics c j₁, gas, [sendEffect keccak256 topics c j₁]⟩ := by
          intro gas
          simp [Acts.run, hstatic]
        obtain ⟨hbalance, hlog, hleaf⟩ := sendEffect_spec hk htopic hupdate hblocked j₁
        rw [if_neg Bool.false_ne_true, hrun]
        cases input.gasSuffices with
        | false => exact .refl j
        | true =>
          refine ⟨?_, ?_, fun leaves hl hlen => ?_⟩
          · change ((sendEffect keccak256 topics c j₁).balance arbsysAddress).toNat =
              _ + (c.value.toNat + 0) + 0
            rw [hbalance, hvalue hcallee, hcvalue]
            rfl
          · exact hlog.trans (by rw [hlogs]; rfl)
          · exact hleaf leaves (hstorage ▸ hl) hlen

/-- Along every run of every tree of calls the traces of ArbSys agree. -/
theorem books_run (steps : Steps) (hself : f.self ≠ arbsysAddress)
    (hwf : steps.WellFormed keccak256) (j : Journal) :
    Books keccak256 j ((steps.acts keccak256 topics block f).run f j).journal
      (steps.tally keccak256 topics block f j) := by
  induction steps generalizing f j with
  | done success => exact .refl j
  | change effect rest ih =>
    simp only [acts, Acts.run, tally]
    cases f.isStatic with
    | true => exact ih hself hwf.2 j
    | false => exact (books_of_harmless hwf.1 j).trans (ih hself hwf.2 (effect j))
  | arbsys scheme value input rest ih =>
    simp only [acts, Acts.run, tally]
    cases f.refusesCall scheme value with
    | true => exact ih hself hwf j
    | false =>
      cases henter : f.enter scheme arbsysAddress value .precompile j with
      | none => exact ih hself hwf j
      | some entered =>
        obtain ⟨j₁, callee⟩ := entered
        obtain rfl := enter_eq_calleeOf henter
        exact (books_arbsys hk htopic hupdate hself henter).trans (ih hself hwf _)
  | call scheme address value code body rest ihBody ihRest =>
    obtain ⟨haddress, hbody, hrest⟩ := hwf
    simp only [acts, Acts.run, tally]
    cases f.refusesCall scheme value with
    | true => exact ihRest hself hrest j
    | false =>
      cases henter : f.enter scheme address value code j with
      | none => exact ihRest hself hrest j
      | some entered =>
        obtain ⟨j₁, callee⟩ := entered
        obtain rfl := enter_eq_calleeOf henter
        obtain ⟨hentered, hcallee⟩ := enter_other keccak256 hself haddress henter
        refine Books.trans ?_ (ihRest hself hrest _)
        exact hentered.close (ihBody hcallee hbody j₁) (fun _ => ⟨rfl, rfl, rfl⟩) (.refl j)
  | create endowment created deployed init rest ihInit ihRest =>
    obtain ⟨hcreated, hinit, hrest⟩ := hwf
    simp only [acts, Acts.run, tally]
    cases f.isStatic with
    | true => exact ihRest hself hrest j
    | false =>
      cases henter : f.enterCreate endowment created j with
      | none => exact ihRest hself hrest j
      | some entered =>
        obtain ⟨bumped, funded⟩ := entered
        obtain ⟨hbumped, hfunded⟩ := enterCreate_other keccak256 hself hcreated henter
        cases funded with
        | none =>
          have hrun := hbumped.trans (ihRest hself hrest bumped)
          rw [zero_add_tally] at hrun
          exact hrun
        | some j₁ =>
          refine Books.trans ?_ (ihRest hself hrest _)
          have hran := ihInit (f := f.initFrame endowment created) hcreated hinit j₁
          refine (hfunded j₁ rfl).close hran ?_ hbumped
          exact fun _ => ⟨rfl, rfl, rfl⟩

end Sends

/-! ## The commit -/

/-- What `commit_transaction` burns. -/
def withdrawalValue (r : TxResult) : U256 := (withdrawals r).foldl satAdd256 0

/-- The executor when it comes to burn. -/
def burning (s : Executor) (r : TxResult) : Executor :=
  match s.pending with
  | some p => sweepCancelled
      (payStylusDataFee (redirectTip (commitRun s r) p r.gasUsed) p)
  | none => sweepCancelled (commitRun s r)

/-- The executor once the withdrawn value is burned. -/
def burnt (s : Executor) (r : TxResult) : Executor :=
  burnWithdrawn (burning s r) (withdrawalValue r)

/-- The balance of ArbSys. -/
def arbsysBalance (w : World) : Nat := (w.getBalance Exec.arbsysAddress).toNat

/-- The result reports what a run did: its success, its logs, and the balance of ArbSys. -/
structure Reports (s : Executor) (r : TxResult) (ran : Ran) (j : Journal) : Prop where
  success : r.success = ran.success
  logs : r.success = true → r.logs = ran.journal.logs
  balance : (r.state.getD s.world).getBalance Exec.arbsysAddress =
    (ran.close j id).balance arbsysAddress

/-- ArbSys pays neither tips nor data fees and is no escrow. -/
structure PaysNothing (s : Executor) : Prop where
  coinbase : s.ctx.coinbase ≠ Exec.arbsysAddress
  sender : ∀ p, s.pending = some p → p.sender ≠ Exec.arbsysAddress
  sweep : ∀ e b, s.cancelEscrowSweep = some (e, b) → e ≠ Exec.arbsysAddress

/-- The settlement of a transaction names other accounts only. -/
structure SettlesElsewhere (x : Externals) (s : Executor) (p : Pending) : Prop where
  retry : ∀ c, p.retryContext = some c →
    c.refundTo ≠ Exec.arbsysAddress ∧ s.ctx.networkFeeAccount ≠ Exec.arbsysAddress ∧
      s.ctx.infraFeeAccount ≠ Exec.arbsysAddress ∧
      retryableEscrowAddress x.keccak256 c.ticketId ≠ Exec.arbsysAddress ∧
      (s.world.tickets c.ticketId).beneficiary ≠ Exec.arbsysAddress
  fees : ∀ h, s.hooks = some h → PaysTo (· ≠ Exec.arbsysAddress) h

/-- The withdrawn ether of a transaction leaves exactly once. `kept` counts what ArbSys received
    in the run otherwise than as the value of a send, and what the tip, the data fee and the sweep
    of an escrow brought it before the burn. -/
structure LeavesOnce (keccak256 : Bytes → B256) (x : Externals) (s : Executor)
    (r : TxResult) (j j' : Journal) (t : Tally) : Prop where
  burned : (withdrawalValue r).toNat = t.withdrawn
  covered : (withdrawalValue r).toNat ≤ arbsysBalance (burning s r).world
  kept : arbsysBalance (burnt s r).world = (j.balance arbsysAddress).toNat + t.received +
    (arbsysBalance (burning s r).world - arbsysBalance (r.state.getD s.world))
  settled : (∀ p, s.pending = some p → SettlesElsewhere x (burnt s r) p) →
    arbsysBalance (commitTransaction x s r).world = arbsysBalance (burnt s r).world
  leaves : ∀ leaves, Accumulated keccak256 leaves j.storage →
    leaves.length + t.sends.length < 2 ^ 64 →
      Accumulated keccak256 (leaves ++ t.sends.map (leafOf keccak256)) j'.storage

variable {x : Externals} {s : Executor} {r : TxResult}

/-- The sum of values does not saturate where it fits a word. -/
theorem foldl_satAdd256 (values : List U256) (acc : U256)
    (h : acc.toNat + (values.map BitVec.toNat).sum ≤ u256Max) :
    (values.foldl satAdd256 acc).toNat = acc.toNat + (values.map BitVec.toNat).sum := by
  induction values generalizing acc with
  | nil => rfl
  | cons v values ih =>
    rw [List.map_cons, List.sum_cons] at h ⊢
    have hstep : (satAdd256 acc v).toNat = acc.toNat + v.toNat := toNat_satAdd256_of_le (by omega)
    rw [List.foldl_cons, ih _ (by rw [hstep]; omega), hstep, Nat.add_assoc]

/-- Nothing before the burn takes ether from ArbSys. -/
theorem arbsysBalance_burning (hpays : PaysNothing s) :
    arbsysBalance (r.state.getD s.world) ≤ arbsysBalance (burning s r).world := by
  obtain ⟨hworld, hslot, -, hcoinbase⟩ := commitRun_kept s r
  have hsweep : ∀ s₁ : Executor, s₁.cancelEscrowSweep = s.cancelEscrowSweep →
      arbsysBalance s₁.world ≤ arbsysBalance (sweepCancelled s₁).world := by
    intro s₁ hs₁
    unfold arbsysBalance
    rw [(sweepCancelled_spec s₁).1, hs₁]
    cases he : s.cancelEscrowSweep with
    | none => exact Nat.le_refl _
    | some ends =>
      exact le_getBalance_transferBalance _ (.inl (hpays.sweep ends.1 ends.2 he).symm)
  unfold burning
  rw [← hworld]
  cases hp : s.pending with
  | none => exact hsweep _ hslot
  | some p =>
    have hpaid := (shell_payStylusDataFee (redirectTip (commitRun s r) p r.gasUsed)
      p).trans (shell_redirectTip (commitRun s r) p r.gasUsed)
    have htip : arbsysBalance (commitRun s r).world ≤
        arbsysBalance (redirectTip (commitRun s r) p r.gasUsed).world := by
      unfold redirectTip
      dsimp only
      split
      · exact le_getBalance_transferBalance _ (.inl (hcoinbase ▸ hpays.coinbase.symm))
      · exact Nat.le_refl _
    refine htip.trans (Nat.le_trans ?_ (hsweep _ ((sweep_of_shell hpaid).trans hslot)))
    unfold payStylusDataFee
    split
    · have hburn : (burnBalance (redirectTip (commitRun s r) p r.gasUsed).world p.sender
          p.stylusDataFee).getBalance Exec.arbsysAddress =
            (redirectTip (commitRun s r) p r.gasUsed).world.getBalance
              Exec.arbsysAddress := by
        rw [burnBalance_eq, World.getBalance_applyBurn,
          update_of_ne (hpays.sender p hp).symm]
      unfold arbsysBalance
      rw [← hburn]
      dsimp only [Executor.touch]
      rw [mintBalance_eq]
      exact le_getBalance_applyMint _ _ _ _
    · exact Nat.le_refl _

theorem arbsysBalance_burnt (h : (withdrawalValue r).toNat ≤ arbsysBalance (burning s r).world) :
    arbsysBalance (burnt s r).world + (withdrawalValue r).toNat = arbsysBalance (burning s r).world := by
  unfold burnt burnWithdrawn
  split
  · unfold arbsysBalance at h ⊢
    dsimp only [Executor.touch]
    rw [burnBalance_eq, World.getBalance_applyBurn, update_self, toNat_satSub256]
    omega
  · next h0 =>
    rw [not_not.mp h0]
    rfl

theorem arbsysBalance_commit (hpays : PaysNothing s)
    (h : ∀ p, s.pending = some p → SettlesElsewhere x (burnt s r) p) :
    arbsysBalance (commitTransaction x s r).world = arbsysBalance (burnt s r).world := by
  have hstages : commitTransaction x s r = finalise (match s.pending with
      | some p => settle x (burnt s r) p r
      | none => burnt s r) := by
    unfold commitTransaction burnt burning withdrawalValue
    cases s.pending <;> rfl
  have hfinal : ∀ s₁ : Executor, arbsysBalance (finalise s₁).world = arbsysBalance s₁.world :=
    fun s₁ => congrArg BitVec.toNat ((frame_finalise (A := fun _ => False)
      (T := fun _ => False) s₁).balance _ id)
  rw [hstages, hfinal]
  cases hp : s.pending with
  | none => rfl
  | some p =>
    have helse := h p hp
    have hframe := frame_settle (A := (· ≠ Exec.arbsysAddress)) (T := fun _ => True) (x := x)
      (s := burnt s r) (p := p) r (hpays.sender p hp)
      (fun c hc => ⟨trivial, helse.retry c hc⟩) helse.fees
    exact congrArg BitVec.toNat (hframe.balance _ fun hne => hne rfl)

/-- **Withdrawn ether leaves exactly once**, for every tree of calls, made in whatever way and
    with whatever frames reverted. -/
theorem withdrawn_ether_leaves_once (hk : ∀ x, keccak256 x ≠ 0)
    (htopic : topics.l2ToL1Tx = l2ToL1TxTopic)
    (hupdate : topics.sendMerkleUpdate ≠ topics.l2ToL1Tx) (hself : f.self ≠ arbsysAddress)
    (steps : Steps) (hwf : steps.WellFormed keccak256) (hstart : j.logs = [])
    (hreports : Reports s r ((steps.acts keccak256 topics block f).run f j) j)
    (hpays : PaysNothing s) :
    LeavesOnce keccak256 x s r j (((steps.acts keccak256 topics block f).run f j).close j id)
      (tallyOf ((steps.acts keccak256 topics block f).run f j)
        (steps.tally keccak256 topics block f j)) := by
  generalize hran : (steps.acts keccak256 topics block f).run f j = ran at hreports
  have hbooks : Books keccak256 j (ran.close j id)
      (tallyOf ran (steps.tally keccak256 topics block f j)) := by
    have hrun : Books keccak256 j ((steps.acts keccak256 topics block f).run f j).journal _ :=
      books_run hk htopic hupdate steps hself hwf j
    rw [hran] at hrun
    exact (Books.refl j).close hrun (fun _ => ⟨rfl, rfl, rfl⟩) (.refl j)
  generalize tallyOf ran (steps.tally keccak256 topics block f j) = t at hbooks
  -- The scan reads the logs of a transaction that succeeded; otherwise no send is left.
  have hscan : withdrawals r = t.sends.map SendCall.value := by
    have hlogs := hbooks.logs
    rw [withdrawals_eq]
    unfold Ran.close at hlogs
    rw [hstart] at hlogs
    cases hok : ran.success with
    | true =>
      have hsuccess := hreports.success.trans hok
      rw [hok] at hlogs
      rw [if_pos hsuccess, hreports.logs hsuccess]
      exact hlogs
    | false =>
      have hsuccess := hreports.success.trans hok
      rw [hok] at hlogs
      rw [if_neg (by rw [hsuccess]; exact Bool.false_ne_true)]
      simpa [hstart, withdrawnIn] using hlogs
  have hsum : ((t.sends.map SendCall.value).map BitVec.toNat).sum = t.withdrawn := by
    rw [List.map_map]
    rfl
  have hbalance := hbooks.balance
  have hfits := toNat_le_u256Max ((ran.close j id).balance arbsysAddress)
  have hzero : (0 : U256).toNat = 0 := rfl
  have hburned : (withdrawalValue r).toNat = t.withdrawn := by
    unfold withdrawalValue
    rw [hscan, foldl_satAdd256 _ _ (by rw [hsum]; omega), hsum, hzero, Nat.zero_add]
  have hran : arbsysBalance (r.state.getD s.world) =
      (j.balance arbsysAddress).toNat + t.withdrawn + t.received := by
    unfold arbsysBalance
    rw [hreports.balance, hbalance]
  have hbefore := arbsysBalance_burning (r := r) hpays
  have hcovered : (withdrawalValue r).toNat ≤ arbsysBalance (burning s r).world := by omega
  have hburnt := arbsysBalance_burnt hcovered
  exact
    { burned := hburned
      covered := hcovered
      kept := by omega
      settled := arbsysBalance_commit hpays
      leaves := hbooks.leaves }

/-! ## A transaction -/

def sampleTopics : Topics :=
  ⟨l2ToL1TxTopic, 0xe9e13da364699fb5b0496ff5a0fc70760ad5836e93ba96568a4e42b9914a8b95⟩

def sampleBlock : SendBlock := ⟨100, 50, 1700000000, 40⟩

/-- The sender calls a contract, which withdraws 5, tries again for its own account, and calls a
    Stylus program that sends 7 and reverts. -/
def sampleSteps : Steps :=
  let program := arbsys .call 7 ⟨.sendTxToL1 0xb0b [1], 0, true, true⟩ (.done false)
  let contract := arbsys .call 5 ⟨.withdrawEth 0xb0b, 0, true, true⟩
    (.arbsys .delegateCall 0 ⟨.withdrawEth 0xb0b, 0, true, true⟩
      (.call .call 0x5e 7 .stylus program (.done true)))
  .call .call 0xc0 12 .evm contract (.done true)

def sampleFrame : Frame := ⟨.revm, sampleSender, sampleSender, 0, false⟩

def sampleJournal : Journal where
  balance a := if a = sampleSender then 100 else if a = arbsysAddress then 3 else 0
  nonce _ := 0
  storage _ _ := 0
  transient _ _ := 0
  code _ := []
  logs := []

def sampleRan : Ran :=
  (sampleSteps.acts Keccak.keccak256Nz sampleTopics sampleBlock sampleFrame).run sampleFrame
    sampleJournal

def sampleResult : TxResult where
  success := sampleRan.success
  gasUsed := 0
  output := []
  logs := sampleRan.journal.logs
  state := some { (fundedExecutor false).world with
    accounts := update (fun _ => none) Exec.arbsysAddress
      (some ⟨(sampleRan.close sampleJournal id).balance arbsysAddress, 0, true⟩) }
  touched := []
  dirtyParams := none

/-- The transaction is pending: a legacy one that used 30 gas. -/
def samplePending : Executor :=
  { fundedExecutor false with
    pending := some (endedPending (fundedExecutor false) sampleSender 30 .legacy 30) }

/-- Of the three sends one is left, and its value is burned. -/
theorem withdrawn_ether_leaves_once_sample :
    LeavesOnce Keccak.keccak256Nz (sampleExternals plainCall) samplePending
        sampleResult sampleJournal (sampleRan.close sampleJournal id)
        (tallyOf sampleRan (sampleSteps.tally Keccak.keccak256Nz sampleTopics sampleBlock sampleFrame
          sampleJournal)) ∧
      (withdrawalValue sampleResult).toNat = 5 := by
  have hwf : sampleSteps.WellFormed Keccak.keccak256Nz :=
    ⟨by decide, ⟨by decide, trivial, trivial⟩, trivial⟩
  have hreports : Reports samplePending sampleResult sampleRan sampleJournal :=
    ⟨rfl, fun _ => rfl, by simp [sampleResult, World.getBalance]⟩
  have hpays : PaysNothing samplePending :=
    ⟨by decide +kernel, fun p h => (by cases h; decide +kernel), fun _ _ h => (by cases h)⟩
  have hleaves := withdrawn_ether_leaves_once (x := sampleExternals plainCall)
    Keccak.keccak256Nz_ne_zero rfl (by decide +kernel) (by decide +kernel) sampleSteps hwf rfl
    hreports hpays
  refine ⟨hleaves, hleaves.burned.trans ?_⟩
  decide +kernel

end Arbreth.Outbox
