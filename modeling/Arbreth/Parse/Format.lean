/-
  The format of L2 messages, read off the bytes.

  `accepts` says which messages the parser takes and `feesFit` whether the fee words in a
  message fit 128 bits. Neither builds a transaction. `parseLevels_meets` ties both to the
  parser, by induction on the batch levels: a message is parsed exactly when it is accepted,
  and then all its transactions convert exactly when the fee words fit.
-/
import Arbreth.Parse.TxEnv

namespace Arbreth.Parse

open Arbreth.Lib Arbreth.Tx

/-! ## The format -/

/-- The `i`-th 32-byte word of a message, big-endian. -/
def wordAt (data : Bytes) (i : Nat) : Nat := beNat ((data.drop (32 * i)).take 32)

/-- Unsigned transactions have five words before the calldata, contract transactions four and
    a request id. The gas limit and the nonce are 64-bit numbers. -/
def acceptsTx (kind : UInt8) (hasId : Bool) (data : Bytes) : Bool :=
  if kind = 0 then decide (160 ≤ data.length ∧ wordAt data 0 < 2 ^ 64 ∧ wordAt data 2 < 2 ^ 64)
  else if kind = 1 then hasId && decide (128 ≤ data.length ∧ wordAt data 0 < 2 ^ 64)
  else false

/-- The fee cap is the second word of both. -/
def feeWordFits (data : Bytes) : Bool := decide (wordAt data 1 < 2 ^ 128)

/-- The payload starts with a transaction of a type that users may send. -/
def acceptsSigned (c : Codecs) (payload : Bytes) : Bool :=
  match decode2718 c payload with
  | .ok (tx, _) => !decide (0x64 ≤ tx.ty ∨ tx.ty = 3)
  | .error _ => false

/-- One L2 message, given what holds of batches. -/
def acceptsOne (c : Codecs) (batch : Bytes → Bool) (hasId : Bool) : Bytes → Bool
  | [] => false
  | kind :: payload =>
    if kind = 4 then acceptsSigned c payload
    else if kind = 0 ∨ kind = 1 then acceptsTx kind hasId payload
    else if kind = 3 then batch payload
    else kind = 6

/-- The L2 messages that are taken with so many batch levels left. -/
def accepts (c : Codecs) : Nat → Bool → Bytes → Bool
  | 0, hasId, data => acceptsOne c (fun _ => false) hasId data
  | levels + 1, hasId, data =>
    acceptsOne c (fun payload => (segments payload).all (accepts c levels hasId)) hasId data

/-- The fee words of one L2 message, given those of batches. -/
def feesFitOne (batch : Bytes → Bool) : Bytes → Bool
  | [] => true
  | kind :: payload =>
    if kind = 0 ∨ kind = 1 then feeWordFits payload
    else if kind = 3 then batch payload
    else true

/-- Every fee word in the message fits 128 bits. -/
def feesFit : Nat → Bytes → Bool
  | 0, data => feesFitOne (fun _ => true) data
  | levels + 1, data => feesFitOne (fun payload => (segments payload).all (feesFit levels)) data

/-! ## Reading words -/

variable {β : Type}

theorem uint256_bind_run (k : U256 → Reader β) (bs : Bytes) :
    (uint256FromReader >>= k).run bs =
      if bs.length < 32 then .error ⟨.unexpectedEof, "failed to fill whole buffer"⟩
      else (k (wordOfBytes (bs.take 32))).run (bs.drop 32) := by
  unfold uint256FromReader hashFromReader
  rw [bind_assoc, StateT.run_bind, StateT.run, readExact]
  split <;> rfl

theorem toU64_bind_run (x : U256) (message : String) (k : Nat → Reader β) (bs : Bytes) :
    (toU64 x message >>= k).run bs =
      if x.toNat < 2 ^ 64 then (k x.toNat).run bs else .error (invalidData message) := by
  unfold toU64
  by_cases h : x.toNat < 2 ^ 64
  · rw [if_pos h, if_pos h]
    rfl
  · rw [if_neg h, if_neg h]
    rfl

theorem toNat_wordOfBytes_take (bs : Bytes) :
    (wordOfBytes (bs.take 32)).toNat = beNat (bs.take 32) := by
  rw [wordOfBytes, BitVec.toNat_ofNat]
  apply Nat.mod_eq_of_lt
  have hlen : (bs.take 32).length ≤ 32 := by simp
  calc beNat (bs.take 32) < 256 ^ (bs.take 32).length := beNat_lt _
    _ ≤ 256 ^ 32 := Nat.pow_le_pow_right (by decide) hlen
    _ = 2 ^ 256 := by decide

/-- All words of an unsigned transaction are there and its numbers fit. -/
def fieldsFit (withNonce : Bool) (data : Bytes) : Prop :=
  (if withNonce then 160 else 128) ≤ data.length ∧ wordAt data 0 < 2 ^ 64 ∧
    (withNonce = true → wordAt data 2 < 2 ^ 64)

/-- What follows the nonce: two words, then everything. -/
theorem tail_run (g : Address → U256 → Bytes → β) (bs : Bytes) :
    (do
      let toAddr ← addressFrom256FromReader
      let value ← uint256FromReader
      let calldata ← readToEnd
      return g toAddr value calldata : Reader β).run bs =
      if bs.length < 64 then .error ⟨.unexpectedEof, "failed to fill whole buffer"⟩
      else .ok (g (BitVec.ofNat 160 (beNat ((wordBytes (wordOfBytes (bs.take 32))).drop 12)))
        (wordOfBytes ((bs.drop 32).take 32)) (bs.drop 64), []) := by
  have haddr : addressFrom256FromReader = (uint256FromReader >>= fun h =>
      return BitVec.ofNat 160 (beNat ((wordBytes h).drop 12))) := rfl
  rw [haddr, bind_assoc, uint256_bind_run]
  by_cases h0 : bs.length < 32
  · rw [if_pos h0, if_pos (by omega)]
  rw [if_neg h0, pure_bind, uint256_bind_run, List.length_drop]
  by_cases h1 : bs.length < 64
  · rw [if_pos (by omega), if_pos h1]
  · rw [if_neg (by omega), if_neg h1, List.drop_drop]
    rfl

/-- The fields are read exactly when they fit, and the fee cap is the second word. -/
theorem parseUnsignedFields_run (withNonce : Bool) (data : Bytes) :
    match (parseUnsignedFields withNonce).run data with
    | .ok ((_, fee, _), _) => fieldsFit withNonce data ∧ fee.toNat = wordAt data 1
    | .error _ => ¬ fieldsFit withNonce data := by
  have hfee : (wordOfBytes ((data.drop 32).take 32)).toNat = wordAt data 1 :=
    toNat_wordOfBytes_take _
  unfold parseUnsignedFields fieldsFit
  rw [uint256_bind_run]
  by_cases h0 : data.length < 32
  · rw [if_pos h0]
    cases withNonce <;> simp <;> omega
  rw [if_neg h0, toU64_bind_run, toNat_wordOfBytes_take]
  have hword0 : beNat (data.take 32) = wordAt data 0 := rfl
  by_cases hgas : wordAt data 0 < 2 ^ 64
  swap
  · rw [hword0, if_neg hgas]
    exact fun h => hgas h.2.1
  rw [hword0, if_pos hgas, uint256_bind_run, List.length_drop, List.drop_drop]
  by_cases h1 : data.length - 32 < 32
  · rw [if_pos h1]
    cases withNonce <;> simp <;> omega
  rw [if_neg h1]
  cases withNonce with
  | false =>
    simp only [Bool.false_eq_true, if_false, pure_bind, false_implies, and_true]
    rw [tail_run, List.length_drop]
    by_cases h2 : data.length - 64 < 64
    · rw [if_pos h2]
      exact fun h => absurd h.1 (by omega)
    · rw [if_neg h2]
      exact ⟨⟨by omega, hgas⟩, hfee⟩
  | true =>
    simp only [if_true, true_implies]
    rw [uint256_bind_run, List.length_drop]
    by_cases h2 : data.length - 64 < 32
    · rw [if_pos h2]
      exact fun h => absurd h.1 (by omega)
    have hword2 : beNat ((data.drop 64).take 32) = wordAt data 2 := rfl
    rw [if_neg h2, toU64_bind_run, toNat_wordOfBytes_take, hword2]
    by_cases hnonce : wordAt data 2 < 2 ^ 64
    · rw [if_pos hnonce, tail_run, List.drop_drop, List.length_drop]
      by_cases h3 : data.length - 96 < 64
      · rw [if_pos h3]
        exact fun h => absurd h.1 (by omega)
      · rw [if_neg h3]
        exact ⟨⟨by omega, hgas, hnonce⟩, hfee⟩
    · rw [if_neg hnonce]
      exact fun h => hnonce h.2.2

/-! ## The parser meets the format -/

section Meets

variable (c : Codecs) (keccak256 : Bytes → B256) (selector : Bytes) (chainId : Nat)

/-- A parse succeeds exactly on the accepted messages, and then all transactions convert
    exactly when the fees fit. -/
def Meets (result : Except IoError (List ParsedTransaction)) (accepted fit : Bool) : Prop :=
  match result with
  | .ok txs => accepted = true ∧ ((∀ p ∈ txs, Converts c selector chainId p) ↔ fit = true)
  | .error _ => accepted = false

variable {c keccak256 selector chainId}

theorem Meets.converts_iff {result : Except IoError (List ParsedTransaction)}
    {accepted fit : Bool} (h : Meets c selector chainId result accepted fit) :
    (∀ txs, result = .ok txs → ∀ p ∈ txs, Converts c selector chainId p) ↔
      (accepted = true → fit = true) := by
  cases result with
  | error e =>
    have hacc : accepted = false := h
    rw [hacc]
    exact ⟨fun _ h => (nomatch h), fun _ _ h => (nomatch h)⟩
  | ok txs =>
    obtain ⟨hacc, hfit⟩ := h
    constructor
    · intro hall _
      exact hfit.mp (hall txs rfl)
    · intro himp txs' h'
      cases h'
      exact hfit.mpr (himp hacc)

/-- A transaction list that converts as a whole makes the fee condition void. -/
theorem Meets.of_all {txs : List ParsedTransaction}
    (h : ∀ p ∈ txs, Converts c selector chainId p) :
    Meets c selector chainId (.ok txs) true true :=
  ⟨rfl, fun _ => rfl, fun _ => h⟩

theorem parseSigned_meets (payload : Bytes) :
    Meets c selector chainId (parseSigned c payload) (acceptsSigned c payload) true := by
  unfold parseSigned acceptsSigned
  cases hdec : decode2718 c payload with
  | error e => exact rfl
  | ok r =>
    obtain ⟨tx, rest⟩ := r
    by_cases hty : 0x64 ≤ tx.ty ∨ tx.ty = 3
    · simp only [if_pos hty, Meets, decide_eq_true hty, Bool.not_true]
    · simp only [if_neg hty, decide_eq_false hty, Bool.not_false]
      apply Meets.of_all
      intro p hp
      rw [List.mem_singleton.mp hp]
      exact converts_signed hdec hty

theorem acceptsTx_iff (kind : UInt8) (hasId : Bool) (data : Bytes) :
    acceptsTx kind hasId data = true ↔
      fieldsFit (kind = 0) data ∧ (kind = 0 ∨ kind = 1 ∧ hasId = true) := by
  unfold acceptsTx fieldsFit
  by_cases h0 : kind = 0
  · simp only [h0, decide_true, if_true, decide_eq_true_eq, true_implies, true_or, and_true]
  · by_cases h1 : kind = 1
    · simp [h1, and_comm]
    · simp [h0, h1]

/-- An unsigned or contract transaction is taken when its fields fit, and convertible when its
    fee word does. -/
theorem parseUnsignedTx_cases (c : Codecs) (selector : Bytes) (chainId : Nat) (data : Bytes)
    (poster : Address) (requestId : Option B256) (kind : UInt8) :
    (acceptsTx kind requestId.isSome data = false ∧
      ∃ e, parseUnsignedTx data poster requestId kind = .error e) ∨
    (acceptsTx kind requestId.isSome data = true ∧
      ∃ tx, parseUnsignedTx data poster requestId kind = .ok tx ∧
        (Converts c selector chainId tx ↔ feeWordFits data = true)) := by
  have hrun := parseUnsignedFields_run (kind = 0) data
  rw [← Bool.not_eq_true, acceptsTx_iff]
  unfold parseUnsignedTx StateT.run'
  cases h : (parseUnsignedFields (kind = 0)) data with
  | error e =>
    rw [StateT.run, h] at hrun
    exact .inl ⟨fun hacc => hrun hacc.1, e, rfl⟩
  | ok r =>
    obtain ⟨⟨gas, fee, nonce, toAddr, value, calldata⟩, rest⟩ := r
    rw [StateT.run, h] at hrun
    obtain ⟨hfit, hfee⟩ := hrun
    have hword : fee.toNat < 2 ^ 128 ↔ feeWordFits data = true := by
      rw [hfee, feeWordFits, decide_eq_true_iff]
    by_cases h0 : kind = 0
    · refine .inr ⟨⟨hfit, .inl h0⟩, .unsignedUserTx poster toAddr value gas fee nonce calldata,
        ?_, (converts_unsigned ..).trans hword⟩
      simp only [if_pos h0]
      rfl
    by_cases h1 : kind = 1
    · cases requestId with
      | none =>
        refine .inl ⟨fun hacc => hacc.2.elim h0 (fun hid => (nomatch hid.2)),
          invalidData "cannot issue contract tx without L1 request id", ?_⟩
        simp only [if_neg h0, if_pos h1]
        rfl
      | some id =>
        refine .inr ⟨⟨hfit, .inr ⟨h1, rfl⟩⟩, .contractTx poster toAddr value gas fee calldata id,
          ?_, (converts_contract ..).trans hword⟩
        simp only [if_neg h0, if_pos h1]
        rfl
    · refine .inl ⟨fun hacc => hacc.2.elim h0 (fun hid => h1 hid.1),
        invalidData "invalid L2 tx type in parseUnsignedTx", ?_⟩
      simp only [if_neg h0, if_neg h1]
      rfl

theorem parseUnsignedTx_meets (before : ParsedTransaction → List ParsedTransaction)
    (hbefore : ∀ tx, ∀ p ∈ before tx, Converts c selector chainId p)
    (data : Bytes) (poster : Address) (requestId : Option B256) (kind : UInt8) :
    Meets c selector chainId
      ((fun tx => before tx ++ [tx]) <$> parseUnsignedTx data poster requestId kind)
      (acceptsTx kind requestId.isSome data) (feeWordFits data) := by
  obtain ⟨hacc, e, he⟩ | ⟨hacc, tx, htx, hconv⟩ :=
    parseUnsignedTx_cases c selector chainId data poster requestId kind
  · rw [he]
    exact hacc
  · rw [htx]
    refine ⟨hacc, ?_⟩
    rw [← hconv, List.forall_mem_append, List.forall_mem_singleton]
    exact and_iff_right (hbefore tx)

theorem batchLoop_meets {sub : Option B256 → Bytes → Except IoError (List ParsedTransaction)}
    {requestId : Option B256} {acc fit : Bytes → Bool}
    (hsub : ∀ id segment, id.isSome = requestId.isSome →
      Meets c selector chainId (sub id segment) (acc segment) (fit segment))
    (segs : List Bytes) (index : Nat) :
    Meets c selector chainId (batchLoop keccak256 sub requestId index segs)
      (segs.all acc) (segs.all fit) := by
  induction segs generalizing index with
  | nil => exact Meets.of_all (fun p hp => (nomatch hp))
  | cons segment rest ih =>
    have hhead := hsub (requestId.map (subRequestId keccak256 · index)) segment (by simp)
    have htail := ih (index + 1)
    unfold batchLoop
    rw [List.all_cons, List.all_cons]
    cases hs : sub (requestId.map (subRequestId keccak256 · index)) segment with
    | error e =>
      rw [hs] at hhead
      have hacc : acc segment = false := hhead
      simp [Meets, bind, Except.bind, hacc]
    | ok subTxs =>
      rw [hs] at hhead
      obtain ⟨hacc, hfit⟩ := hhead
      cases ht : batchLoop keccak256 sub requestId (index + 1) rest with
      | error e =>
        rw [ht] at htail
        have hall : rest.all acc = false := htail
        simp [Meets, bind, Except.bind, hall]
      | ok txs =>
        rw [ht] at htail
        obtain ⟨hall, hfits⟩ := htail
        refine ⟨by rw [hacc, hall]; rfl, ?_⟩
        rw [Bool.and_eq_true, ← hfit, ← hfits, List.forall_mem_append]

theorem dispatchL2_meets {batch : Option B256 → Bytes → Except IoError (List ParsedTransaction)}
    {requestId : Option B256} (acc fit : Bytes → Bool)
    (hbatch : ∀ payload, Meets c selector chainId (batch requestId payload) (acc payload) (fit payload))
    (poster : Address) (data : Bytes) :
    Meets c selector chainId (dispatchL2 c batch poster requestId data)
      (acceptsOne c acc requestId.isSome data) (feesFitOne fit data) := by
  cases data with
  | nil => exact rfl
  | cons kind payload =>
    unfold dispatchL2 acceptsOne feesFitOne
    by_cases h7 : kind = 7
    · subst h7
      exact rfl
    by_cases h4 : kind = 4
    · subst h4
      exact parseSigned_meets payload
    by_cases h01 : kind = 0 ∨ kind = 1
    · simp only [if_neg h7, if_neg h4, if_pos h01]
      exact parseUnsignedTx_meets (fun _ => []) (fun _ p hp => (nomatch hp)) payload poster
        requestId kind
    by_cases h3 : kind = 3
    · subst h3
      exact hbatch payload
    by_cases h6 : kind = 6
    · subst h6
      exact Meets.of_all (fun p hp => (nomatch hp))
    simp only [if_neg h7, if_neg h4, if_neg h01, if_neg h3, if_neg h6, decide_eq_false h6]
    split
    · exact rfl
    · exact rfl

/-- The parser at any depth: the induction is on the batch levels left. -/
theorem parseLevels_meets (poster : Address) (levels : Nat) (requestId : Option B256)
    (data : Bytes) :
    Meets c selector chainId (parseLevels c keccak256 poster levels requestId data)
      (accepts c levels requestId.isSome data) (feesFit levels data) := by
  induction levels generalizing requestId data with
  | zero =>
    refine dispatchL2_meets _ _ (fun payload => ?_) poster data
    exact rfl
  | succ levels ih =>
    refine dispatchL2_meets _ _ (fun payload => ?_) poster data
    refine batchLoop_meets (fun id segment hid => ?_) (segments payload) 0
    rw [← hid]
    exact ih id segment

theorem parseL2Message_meets (data : Bytes) (poster : Address) (requestId : Option B256)
    (depth : Nat) :
    Meets c selector chainId (parseL2Message c keccak256 data poster requestId depth)
      (accepts c (maxL2MessageBatchDepth - depth) requestId.isSome data)
      (feesFit (maxL2MessageBatchDepth - depth) data) :=
  parseLevels_meets poster (maxL2MessageBatchDepth - depth) requestId data

end Meets

end Arbreth.Parse
