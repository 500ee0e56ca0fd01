/-
  Which L1 messages can crash the node.

  `max_fee_per_gas` narrows the fee cap of unsigned and contract transactions to 128 bits and
  panics when it does not fit; the parser bounds the gas limit and the nonce but not the fee
  cap. So a message crashes the node exactly when it is accepted and holds a fee word of 2^128
  or more (`parsed_convert_iff`). Signed transactions, deposits, submitted retryables and
  reports never do.
-/
import Arbreth.Lib.Keccak
import Arbreth.Parse.Format

namespace Arbreth.Parse

open Arbreth.Lib Arbreth.Tx

/-- No accepted unsigned or contract transaction of the message, in a batch or funded by L1,
    has a fee word of more than 128 bits. -/
def FeeCapsFit (c : Codecs) (kind : UInt8) (hasId : Bool) (l2Msg : Bytes) : Prop :=
  l2Msg.length ≤ maxL2MessageSize →
    (kind = 3 → accepts c maxL2MessageBatchDepth hasId l2Msg = true →
      feesFit maxL2MessageBatchDepth l2Msg = true) ∧
    (kind = 7 → hasId = true → ∀ txKind body, l2Msg = txKind :: body →
      acceptsTx txKind true body = true → feeWordFits body = true)

section L1

variable {c : Codecs} {keccak256 : Bytes → B256} {selector : Bytes} {chainId : Nat}

/-- A result whose transactions all convert. -/
def AllConvert (c : Codecs) (selector : Bytes) (chainId : Nat)
    (result : Except IoError (List ParsedTransaction)) : Prop :=
  ∀ txs, result = .ok txs → ∀ p ∈ txs, Converts c selector chainId p

theorem AllConvert.error (e : IoError) : AllConvert c selector chainId (.error e) :=
  fun _ h => (nomatch h)

open AllConvert

theorem AllConvert.nil : AllConvert c selector chainId (.ok []) := by
  intro txs h
  cases h
  exact fun p hp => (nomatch hp)

/-- A step that ends in one transaction which converts. -/
theorem AllConvert.single {α : Type} {x : Except IoError α} {f : α → ParsedTransaction}
    (h : ∀ a, Converts c selector chainId (f a)) :
    AllConvert c selector chainId (do let a ← x; return [f a]) := by
  intro txs htxs
  obtain ⟨a, -, ha⟩ := bind_eq_ok.mp htxs
  cases ha
  intro p hp
  rw [List.mem_singleton.mp hp]
  exact h a

variable (data : Bytes) (poster : Address) (id : B256)

theorem parseEthDeposit_converts :
    AllConvert c selector chainId (parseEthDeposit data poster id) := by
  exact single (fun a => converts_deposit _ _ _ _)

theorem parseSubmitRetryable_converts (l1BaseFee : U256) :
    AllConvert c selector chainId (parseSubmitRetryable data poster id l1BaseFee) := by
  exact single (fun a => converts_submitRetryable _ _ _ _ _ _ _ _ _ _ _ _)

theorem parseBatchPostingReport_converts :
    AllConvert c selector chainId (parseBatchPostingReport data) := by
  exact single (fun a => converts_batchPostingReport _ _ _ _ _ _)

theorem AllConvert.needId {f : B256 → Except IoError (List ParsedTransaction)}
    (h : ∀ id, AllConvert c selector chainId (f id)) (requestId : Option B256) (what : String) :
    AllConvert c selector chainId (needRequestId requestId what >>= f) := by
  cases requestId with
  | none => exact error _
  | some id => exact h id

/-- The kinds after `L2FundedByL1` in the dispatch hold no unsigned transaction. -/
theorem parse_others_convert {kind : UInt8} (h7 : kind ≠ 7) {poster : Address} {l2Msg : Bytes}
    {requestId : Option B256} {l1BaseFee : Option U256} :
    AllConvert c selector chainId
      (if kind = 6 then .ok []
       else if kind = 7 then do
         parseL2FundedByL1 keccak256 l2Msg poster (← needRequestId requestId "L2 funded by L1")
       else if kind = 9 then do
         parseSubmitRetryable l2Msg poster (← needRequestId requestId "submit retryable")
           (l1BaseFee.getD 0)
       else if kind = 12 then do
         parseEthDeposit l2Msg poster (← needRequestId requestId "deposit")
       else if kind = 13 then parseBatchPostingReport l2Msg
       else if kind = 10 then
         .error (invalidData "L1 message type BatchForGasEstimation is unimplemented")
       else .ok []) := by
  rw [if_neg h7]
  split
  · exact nil
  split
  · exact needId (fun id => parseSubmitRetryable_converts _ _ id _) _ _
  split
  · exact needId (fun id => parseEthDeposit_converts _ _ id) _ _
  split
  · exact parseBatchPostingReport_converts l2Msg
  split
  · exact error _
  · exact nil

/-- The message a deposit pays for is parsed after the deposit, which always converts. -/
theorem parseL2FundedByL1_converts (l2Msg : Bytes) :
    AllConvert c selector chainId (parseL2FundedByL1 keccak256 l2Msg poster id) ↔
      ∀ txKind body, l2Msg = txKind :: body → acceptsTx txKind true body = true →
        feeWordFits body = true := by
  cases l2Msg with
  | nil => exact ⟨fun _ _ _ h => (nomatch h), fun _ => error _⟩
  | cons kind body =>
    have hmeets : Meets c selector chainId (parseL2FundedByL1 keccak256 (kind :: body) poster id)
        (acceptsTx kind true body) (feeWordFits body) :=
      parseUnsignedTx_meets (fun tx => [.ethDeposit 0 poster tx.fundedValue _])
        (fun tx p hp => by rw [List.mem_singleton.mp hp]; exact converts_deposit _ _ _ _)
        body poster (some _) kind
    rw [AllConvert, hmeets.converts_iff]
    constructor
    · intro h txKind body' hcons
      cases hcons
      exact h
    · intro h
      exact h kind body rfl

theorem parse_l2Message_converts (c : Codecs) (keccak256 : Bytes → B256) (selector : Bytes)
    (poster : Address) {l2Msg : Bytes} (hlen : l2Msg.length ≤ maxL2MessageSize)
    (requestId : Option B256) (l1BaseFee : Option U256) (chainId : Nat) :
    AllConvert c selector chainId
        (parseL2Transactions c keccak256 3 poster l2Msg requestId l1BaseFee) ↔
      (accepts c maxL2MessageBatchDepth requestId.isSome l2Msg = true →
        feesFit maxL2MessageBatchDepth l2Msg = true) := by
  unfold parseL2Transactions
  rw [if_neg (by omega), if_pos rfl]
  exact (parseL2Message_meets l2Msg poster requestId 0).converts_iff

/-- The transactions of an L1 message all convert to an EVM environment without a panic
    exactly when the fee caps of its unsigned and contract transactions fit 128 bits. -/
theorem parsed_convert_iff (c : Codecs) (keccak256 : Bytes → B256) (selector : Bytes)
    (kind : UInt8) (poster : Address) (l2Msg : Bytes) (requestId : Option B256)
    (l1BaseFee : Option U256) (chainId : Nat) :
    (∀ txs, parseL2Transactions c keccak256 kind poster l2Msg requestId l1BaseFee = .ok txs →
      ∀ p ∈ txs, ∀ tx, parsedTxToSigned c p chainId = some tx →
        ∀ sender, ∃ env, arbTxToTxEnv selector tx sender = .ok env) ↔
      FeeCapsFit c kind requestId.isSome l2Msg := by
  change AllConvert c selector chainId _ ↔ _
  by_cases hlen : maxL2MessageSize < l2Msg.length
  · unfold parseL2Transactions
    rw [if_pos hlen]
    exact ⟨fun _ h => absurd h (by omega), fun _ => error _⟩
  have hle : l2Msg.length ≤ maxL2MessageSize := by omega
  -- Two kinds parse unsigned transactions; for all others both sides hold.
  by_cases h3 : kind = 3
  · subst h3
    rw [parse_l2Message_converts c keccak256 selector poster hle]
    exact ⟨fun h _ => ⟨fun _ => h, fun h7 => absurd h7 (by decide)⟩, fun h => (h hle).1 rfl⟩
  unfold parseL2Transactions
  rw [if_neg hlen]
  by_cases h7 : kind = 7
  · subst h7
    rw [if_neg (by decide), if_neg (by decide), if_pos rfl]
    cases requestId with
    | none =>
      exact ⟨fun _ _ => ⟨fun h => absurd h (by decide), fun _ h => (nomatch h)⟩,
        fun _ => error _⟩
    | some id =>
      refine (parseL2FundedByL1_converts poster id l2Msg).trans ?_
      exact ⟨fun h _ => ⟨fun h3 => absurd h3 (by decide), fun _ _ => h⟩,
        fun h => (h hle).2 rfl rfl⟩
  rw [if_neg h3]
  exact ⟨fun _ _ => ⟨fun h => absurd h h3, fun h => absurd h h7⟩,
    fun _ => parse_others_convert h7⟩

end L1

/-! ## A message that does -/

/-- An unsigned user transaction, all of whose words are zero but the fee cap. -/
def crashMessage : Bytes :=
  0 :: (wordBytes 0 ++ wordBytes (BitVec.ofNat 256 (2 ^ 128)) ++ wordBytes 0 ++ wordBytes 0 ++
    wordBytes 0)

/-- The message is accepted, and the transaction it becomes panics when it is converted. -/
theorem crashMessage_panics :
    ¬ ∀ txs, parseL2Transactions sampleCodecs Keccak.keccak256 3 1 crashMessage none none = .ok txs →
      ∀ p ∈ txs, ∀ tx, parsedTxToSigned sampleCodecs p 42161 = some tx →
        ∀ sender, ∃ env, arbTxToTxEnv [] tx sender = .ok env := by
  have hlen : crashMessage.length ≤ maxL2MessageSize := by decide +kernel
  have hacc : accepts sampleCodecs maxL2MessageBatchDepth (none : Option B256).isSome
      crashMessage = true := by decide +kernel
  have hfit : feesFit maxL2MessageBatchDepth crashMessage = false := by decide +kernel
  intro hall
  have hfits := (parse_l2Message_converts sampleCodecs Keccak.keccak256 [] 1 hlen none none
    42161).mp hall hacc
  rw [hfits] at hfit
  exact absurd hfit (by decide)

end Arbreth.Parse
