/-
  Transactions and their EIP-2718 envelope (arb-primitives, signed_tx.rs).

  The record types of the five Ethereum and six Arbitrum transactions, the envelope
  dispatch of `encode_2718` and `decode_2718`, and the strict `decode_2718_exact`. The RLP
  codecs of the single types are library code and are parameters (`Codecs`); what is
  assumed of them is in `RlpCodec.Lawful`: an accepted string is the canonical encoding of
  what it decodes to, followed by the bytes the decoder did not read, and those bytes do
  not influence it.

  The cached hash of a signed transaction and its lazily built input are left out.
-/
import Arbreth.Lib.Bytes

namespace Arbreth.Tx

open Arbreth.Lib

/-! ## Transaction records -/

structure Signature where
  r : U256
  s : U256
  yParity : Bool

structure AccessListItem where
  address : Address
  storageKeys : List B256

structure SignedAuthorization where
  chainId : U256
  address : Address
  nonce : Nat
  signature : Signature

structure TxLegacy where
  chainId : Option Nat
  nonce : Nat
  gasPrice : Nat
  gasLimit : Nat
  toAddr : Option Address
  value : U256
  input : Bytes

structure TxEip2930 where
  chainId : Nat
  nonce : Nat
  gasPrice : Nat
  gasLimit : Nat
  toAddr : Option Address
  value : U256
  accessList : List AccessListItem
  input : Bytes

structure TxEip1559 where
  chainId : Nat
  nonce : Nat
  gasLimit : Nat
  maxFeePerGas : Nat
  maxPriorityFeePerGas : Nat
  toAddr : Option Address
  value : U256
  accessList : List AccessListItem
  input : Bytes

structure TxEip4844 where
  chainId : Nat
  nonce : Nat
  gasLimit : Nat
  maxFeePerGas : Nat
  maxPriorityFeePerGas : Nat
  toAddr : Address
  value : U256
  accessList : List AccessListItem
  blobVersionedHashes : List B256
  maxFeePerBlobGas : Nat
  input : Bytes

structure TxEip7702 where
  chainId : Nat
  nonce : Nat
  gasLimit : Nat
  maxFeePerGas : Nat
  maxPriorityFeePerGas : Nat
  toAddr : Address
  value : U256
  accessList : List AccessListItem
  authorizationList : List SignedAuthorization
  input : Bytes

structure ArbDepositTx where
  chainId : U256
  l1RequestId : B256
  sender : Address
  toAddr : Address
  value : U256

structure ArbUnsignedTx where
  chainId : U256
  sender : Address
  nonce : Nat
  gasFeeCap : U256
  gas : Nat
  toAddr : Option Address
  value : U256
  data : Bytes

structure ArbContractTx where
  chainId : U256
  requestId : B256
  sender : Address
  gasFeeCap : U256
  gas : Nat
  toAddr : Option Address
  value : U256
  data : Bytes

structure ArbRetryTx where
  chainId : U256
  nonce : Nat
  sender : Address
  gasFeeCap : U256
  gas : Nat
  toAddr : Option Address
  value : U256
  data : Bytes
  ticketId : B256
  refundTo : Address
  maxRefund : U256
  submissionFeeRefund : U256

structure ArbSubmitRetryableTx where
  chainId : U256
  requestId : B256
  sender : Address
  l1BaseFee : U256
  depositValue : U256
  gasFeeCap : U256
  gas : Nat
  retryTo : Option Address
  retryValue : U256
  beneficiary : Address
  maxSubmissionFee : U256
  feeRefundAddr : Address
  retryData : Bytes

structure ArbInternalTx where
  chainId : U256
  data : Bytes

/-- `ArbTypedTransaction`. -/
inductive ArbTypedTransaction where
  | deposit (tx : ArbDepositTx)
  | unsigned (tx : ArbUnsignedTx)
  | contract (tx : ArbContractTx)
  | retry (tx : ArbRetryTx)
  | submitRetryable (tx : ArbSubmitRetryableTx)
  | internal (tx : ArbInternalTx)
  | legacy (tx : TxLegacy)
  | eip2930 (tx : TxEip2930)
  | eip1559 (tx : TxEip1559)
  | eip4844 (tx : TxEip4844)
  | eip7702 (tx : TxEip7702)

/-- `ArbTransactionSigned`. -/
structure ArbTransactionSigned where
  transaction : ArbTypedTransaction
  signature : Signature

/-- The signature of the types that carry none. -/
def zeroSig : Signature := ⟨0, 0, false⟩

/-! ## Type bytes -/

/-- `ArbTxType`. -/
inductive ArbTxType where
  | deposit | unsigned | contract | retry | submitRetryable | internal | legacy
  deriving DecidableEq

def ArbTxType.asU8 : ArbTxType → UInt8
  | .deposit => 0x64
  | .unsigned => 0x65
  | .contract => 0x66
  | .retry => 0x68
  | .submitRetryable => 0x69
  | .internal => 0x6A
  | .legacy => 0x78

/-- `ArbTxType::from_u8`: the inverse of `as_u8`. -/
def ArbTxType.fromU8 (ty : UInt8) : Option ArbTxType :=
  [ArbTxType.deposit, .unsigned, .contract, .retry, .submitRetryable, .internal, .legacy].find?
    fun t => t.asU8 = ty

/-- The type byte of a transaction. -/
def ArbTransactionSigned.ty (tx : ArbTransactionSigned) : UInt8 :=
  match tx.transaction with
  | .legacy _ => 0
  | .deposit _ => ArbTxType.deposit.asU8
  | .unsigned _ => ArbTxType.unsigned.asU8
  | .contract _ => ArbTxType.contract.asU8
  | .retry _ => ArbTxType.retry.asU8
  | .submitRetryable _ => ArbTxType.submitRetryable.asU8
  | .internal _ => ArbTxType.internal.asU8
  | .eip2930 _ => 1
  | .eip1559 _ => 2
  | .eip4844 _ => 3
  | .eip7702 _ => 4

/-! ## Codecs -/

/-- An RLP codec: the decoder returns the value and the bytes it did not read. -/
structure RlpCodec (α : Type) where
  encode : α → Bytes
  decode : Bytes → Option (α × Bytes)

open RlpCodec

/-- What a codec of the library promises. -/
structure RlpCodec.Lawful {α : Type} (c : RlpCodec α) : Prop where
  canonical : ∀ buf x rest, c.decode buf = some (x, rest) → buf = c.encode x ++ rest
  rest_irrelevant : ∀ enc rest x, c.decode (enc ++ rest) = some (x, rest) ↔
    c.decode enc = some (x, [])

/-- The codecs of all types. Those of the typed Ethereum transactions include the signature
    and start after the type byte. -/
structure Codecs where
  legacy : RlpCodec (TxLegacy × Signature)
  eip2930 : RlpCodec (TxEip2930 × Signature)
  eip1559 : RlpCodec (TxEip1559 × Signature)
  eip4844 : RlpCodec (TxEip4844 × Signature)
  eip7702 : RlpCodec (TxEip7702 × Signature)
  deposit : RlpCodec ArbDepositTx
  unsigned : RlpCodec ArbUnsignedTx
  contract : RlpCodec ArbContractTx
  retry : RlpCodec ArbRetryTx
  submitRetryable : RlpCodec ArbSubmitRetryableTx
  internal : RlpCodec ArbInternalTx

/-- All codecs keep their promise, and the empty string is no legacy transaction. -/
structure Codecs.Lawful (c : Codecs) : Prop where
  legacy : c.legacy.Lawful
  legacy_nil : c.legacy.decode [] = none
  eip2930 : c.eip2930.Lawful
  eip1559 : c.eip1559.Lawful
  eip4844 : c.eip4844.Lawful
  eip7702 : c.eip7702.Lawful
  deposit : c.deposit.Lawful
  unsigned : c.unsigned.Lawful
  contract : c.contract.Lawful
  retry : c.retry.Lawful
  submitRetryable : c.submitRetryable.Lawful
  internal : c.internal.Lawful

/-! ## The envelope -/

/-- `Eip2718Error`. -/
inductive Eip2718Error where
  | unexpectedType (ty : UInt8)
  | rlp
  deriving DecidableEq

section Envelope

variable (c : Codecs)

/-- `encode_2718`. -/
def encode2718 (tx : ArbTransactionSigned) : Bytes :=
  match tx.transaction with
  | .legacy t => c.legacy.encode (t, tx.signature)
  | .deposit t => ArbTxType.deposit.asU8 :: c.deposit.encode t
  | .unsigned t => ArbTxType.unsigned.asU8 :: c.unsigned.encode t
  | .contract t => ArbTxType.contract.asU8 :: c.contract.encode t
  | .retry t => ArbTxType.retry.asU8 :: c.retry.encode t
  | .submitRetryable t => ArbTxType.submitRetryable.asU8 :: c.submitRetryable.encode t
  | .internal t => ArbTxType.internal.asU8 :: c.internal.encode t
  | .eip2930 t => 1 :: c.eip2930.encode (t, tx.signature)
  | .eip1559 t => 2 :: c.eip1559.encode (t, tx.signature)
  | .eip4844 t => 3 :: c.eip4844.encode (t, tx.signature)
  | .eip7702 t => 4 :: c.eip7702.encode (t, tx.signature)

/-- One arm of a typed decoder: decode the body and wrap it. -/
def decodeWith {α : Type} (codec : RlpCodec α) (wrap : α → ArbTransactionSigned) (buf : Bytes) :
    Except Eip2718Error (ArbTransactionSigned × Bytes) :=
  match codec.decode buf with
  | some (x, rest) => .ok (wrap x, rest)
  | none => .error .rlp

/-- `typed_decode`: the Arbitrum types first, then the Ethereum ones. -/
def typedDecode (ty : UInt8) (buf : Bytes) : Except Eip2718Error (ArbTransactionSigned × Bytes) :=
  match ArbTxType.fromU8 ty with
  | some .deposit => decodeWith c.deposit (fun t => ⟨.deposit t, zeroSig⟩) buf
  | some .unsigned => decodeWith c.unsigned (fun t => ⟨.unsigned t, zeroSig⟩) buf
  | some .contract => decodeWith c.contract (fun t => ⟨.contract t, zeroSig⟩) buf
  | some .retry => decodeWith c.retry (fun t => ⟨.retry t, zeroSig⟩) buf
  | some .submitRetryable => decodeWith c.submitRetryable (fun t => ⟨.submitRetryable t, zeroSig⟩) buf
  | some .internal => decodeWith c.internal (fun t => ⟨.internal t, zeroSig⟩) buf
  | some .legacy => .error (.unexpectedType 0x78)
  | none =>
    if ty = 0 then .error (.unexpectedType 0)
    else if ty = 1 then decodeWith c.eip2930 (fun t => ⟨.eip2930 t.1, t.2⟩) buf
    else if ty = 2 then decodeWith c.eip1559 (fun t => ⟨.eip1559 t.1, t.2⟩) buf
    else if ty = 3 then decodeWith c.eip4844 (fun t => ⟨.eip4844 t.1, t.2⟩) buf
    else if ty = 4 then decodeWith c.eip7702 (fun t => ⟨.eip7702 t.1, t.2⟩) buf
    else .error (.unexpectedType ty)

/-- `fallback_decode`. -/
def fallbackDecode (buf : Bytes) : Except Eip2718Error (ArbTransactionSigned × Bytes) :=
  decodeWith c.legacy (fun t => ⟨.legacy t.1, t.2⟩) buf

/-- `decode_2718`: a first byte up to `0x7f` is a type byte. The unread rest of the buffer is
    returned beside the transaction. -/
def decode2718 (buf : Bytes) : Except Eip2718Error (ArbTransactionSigned × Bytes) :=
  match buf with
  | [] => fallbackDecode c []
  | b :: rest => if b ≤ 0x7f then typedDecode c b rest else fallbackDecode c (b :: rest)

/-- `decode_2718_exact`: nothing may be left over. -/
def decode2718Exact (buf : Bytes) : Except Eip2718Error ArbTransactionSigned :=
  match decode2718 c buf with
  | .ok (tx, []) => .ok tx
  | .ok _ => .error .rlp
  | .error e => .error e

end Envelope

/-! ## The envelope keeps the promise of its codecs -/

section Laws

variable {c : Codecs}

variable {α : Type} {codec : RlpCodec α} {wrap : α → ArbTransactionSigned} {buf rest : Bytes}
  {tx : ArbTransactionSigned}

theorem decodeWith_ok :
    decodeWith codec wrap buf = .ok (tx, rest) ↔
      ∃ x, codec.decode buf = some (x, rest) ∧ tx = wrap x := by
  unfold decodeWith
  cases codec.decode buf with
  | none => simp
  | some p =>
    obtain ⟨x, r⟩ := p
    simp only [Except.ok.injEq, Prod.mk.injEq, Option.some.injEq]
    constructor
    · rintro ⟨rfl, rfl⟩
      exact ⟨x, ⟨rfl, rfl⟩, rfl⟩
    · rintro ⟨y, ⟨rfl, rfl⟩, rfl⟩
      exact ⟨rfl, rfl⟩

/-- One arm: the encoding of what it decodes is its type byte and the body it read. -/
theorem decodeWith_canonical (hc : codec.Lawful) {pre : Bytes}
    (hwrap : ∀ x, encode2718 c (wrap x) = pre ++ codec.encode x)
    (h : decodeWith codec wrap buf = .ok (tx, rest)) : pre ++ buf = encode2718 c tx ++ rest := by
  obtain ⟨x, hx, rfl⟩ := decodeWith_ok.mp h
  rw [hwrap, List.append_assoc, ← hc.canonical _ _ _ hx]

theorem decodeWith_rest (hc : codec.Lawful) (wrap : α → ArbTransactionSigned) (enc rest : Bytes)
    (tx : ArbTransactionSigned) :
    decodeWith codec wrap (enc ++ rest) = .ok (tx, rest) ↔
      decodeWith codec wrap enc = .ok (tx, []) := by
  rw [decodeWith_ok, decodeWith_ok]
  simp only [hc.rest_irrelevant]

theorem fromU8_asU8 {ty : UInt8} {t : ArbTxType} (h : ArbTxType.fromU8 ty = some t) :
    t.asU8 = ty := by
  simpa using List.find?_some h

/-- What `typed_decode` does with a type byte: refuse every body, or run one lawful codec whose
    encoding starts with that byte. -/
theorem typedDecode_cases (hc : c.Lawful) (ty : UInt8) :
    (∃ e, ∀ buf, typedDecode c ty buf = .error e) ∨
    ∃ (α : Type) (codec : RlpCodec α) (wrap : α → ArbTransactionSigned), codec.Lawful ∧
      (∀ x, encode2718 c (wrap x) = [ty] ++ codec.encode x) ∧
      ∀ buf, typedDecode c ty buf = decodeWith codec wrap buf := by
  unfold typedDecode
  cases harb : ArbTxType.fromU8 ty with
  | some t =>
    have hty := fromU8_asU8 harb
    cases t with
    | deposit => exact .inr ⟨_, _, _, hc.deposit, fun x => by rw [← hty]; rfl, fun _ => rfl⟩
    | unsigned => exact .inr ⟨_, _, _, hc.unsigned, fun x => by rw [← hty]; rfl, fun _ => rfl⟩
    | contract => exact .inr ⟨_, _, _, hc.contract, fun x => by rw [← hty]; rfl, fun _ => rfl⟩
    | retry => exact .inr ⟨_, _, _, hc.retry, fun x => by rw [← hty]; rfl, fun _ => rfl⟩
    | submitRetryable =>
      exact .inr ⟨_, _, _, hc.submitRetryable, fun x => by rw [← hty]; rfl, fun _ => rfl⟩
    | internal => exact .inr ⟨_, _, _, hc.internal, fun x => by rw [← hty]; rfl, fun _ => rfl⟩
    | legacy => exact .inl ⟨_, fun _ => rfl⟩
  | none =>
    by_cases h0 : ty = 0
    · exact .inl ⟨_, fun _ => if_pos h0⟩
    by_cases h1 : ty = 1
    · subst h1
      exact .inr ⟨_, _, _, hc.eip2930, fun _ => rfl, fun _ => rfl⟩
    by_cases h2 : ty = 2
    · subst h2
      exact .inr ⟨_, _, _, hc.eip1559, fun _ => rfl, fun _ => rfl⟩
    by_cases h3 : ty = 3
    · subst h3
      exact .inr ⟨_, _, _, hc.eip4844, fun _ => rfl, fun _ => rfl⟩
    by_cases h4 : ty = 4
    · subst h4
      exact .inr ⟨_, _, _, hc.eip7702, fun _ => rfl, fun _ => rfl⟩
    refine .inl ⟨.unexpectedType ty, fun buf => ?_⟩
    simp only [if_neg h0, if_neg h1, if_neg h2, if_neg h3, if_neg h4]

theorem decode2718_cons (b : UInt8) (rest : Bytes) : decode2718 c (b :: rest) =
    if b ≤ 0x7f then typedDecode c b rest else fallbackDecode c (b :: rest) := rfl

/-- **An accepted string is canonical**: it is the encoding of the transaction it decodes to,
    followed by the unread rest. -/
theorem decode2718_canonical (hc : c.Lawful) (h : decode2718 c buf = .ok (tx, rest)) :
    buf = encode2718 c tx ++ rest := by
  have hfall : ∀ buf, fallbackDecode c buf = .ok (tx, rest) → buf = encode2718 c tx ++ rest := by
    intro buf h
    obtain ⟨x, hx, rfl⟩ := decodeWith_ok.mp h
    exact hc.legacy.canonical _ _ _ hx
  cases buf with
  | nil => exact hfall [] h
  | cons b buf =>
    rw [decode2718_cons] at h
    split at h
    · rcases typedDecode_cases hc b with ⟨e, he⟩ | ⟨α, codec, wrap, hl, hw, hdec⟩
      · rw [he] at h
        exact absurd h (by simp)
      · rw [hdec] at h
        exact decodeWith_canonical hl hw h
    · exact hfall _ h

theorem decode2718_nil (hc : c.Lawful) : decode2718 c [] = .error .rlp := by
  show decodeWith c.legacy _ [] = _
  unfold decodeWith
  rw [hc.legacy_nil]

theorem decode2718_rest (hc : c.Lawful) {enc : Bytes} (hne : enc ≠ []) (rest : Bytes)
    (tx : ArbTransactionSigned) :
    decode2718 c (enc ++ rest) = .ok (tx, rest) ↔ decode2718 c enc = .ok (tx, []) := by
  obtain ⟨b, enc, rfl⟩ := List.exists_cons_of_ne_nil hne
  rw [List.cons_append, decode2718_cons, decode2718_cons]
  by_cases hb : b ≤ 0x7f
  · simp only [if_pos hb]
    rcases typedDecode_cases hc b with ⟨e, he⟩ | ⟨α, codec, wrap, hl, hw, hdec⟩
    · simp [he]
    · rw [hdec, hdec]
      exact decodeWith_rest hl wrap enc rest tx
  · simp only [if_neg hb]
    rw [← List.cons_append]
    exact decodeWith_rest hc.legacy _ (b :: enc) rest tx

theorem encode2718_ne_nil (hc : c.Lawful) (h : decode2718 c buf = .ok (tx, rest)) :
    encode2718 c tx ≠ [] := by
  intro hnil
  have hbuf := decode2718_canonical hc h
  rw [hnil, List.nil_append] at hbuf
  subst hbuf
  cases buf with
  | nil =>
    rw [decode2718_nil hc] at h
    cases h
  | cons b buf =>
    rw [decode2718_cons] at h
    split at h
    · rcases typedDecode_cases hc b with ⟨e, he⟩ | ⟨α, codec, wrap, hl, hw, hdec⟩
      · rw [he] at h
        cases h
      · rw [hdec] at h
        obtain ⟨x, -, rfl⟩ := decodeWith_ok.mp h
        rw [hw] at hnil
        cases hnil
    · obtain ⟨x, hx, -⟩ := decodeWith_ok.mp h
      -- A decoder that read nothing would also accept the empty string.
      have hempty := (hc.legacy.rest_irrelevant [] (b :: buf) x).mp hx
      rw [hc.legacy_nil] at hempty
      cases hempty

end Laws

/-! ## A small instance -/

/-- The codec that knows one encoding. -/
def RlpCodec.single {α : Type} (enc : Bytes) (x : α) : RlpCodec α where
  encode _ := enc
  decode buf := if buf.take enc.length = enc then some (x, buf.drop enc.length) else none

variable {α : Type}

theorem RlpCodec.single_decode (enc : Bytes) (x y : α) (buf rest : Bytes) :
    (single enc x).decode buf = some (y, rest) ↔ y = x ∧ buf = enc ++ rest := by
  simp only [single]
  constructor
  · intro h
    split at h
    case isTrue htake =>
      cases h
      refine ⟨rfl, ?_⟩
      conv_lhs => rw [← List.take_append_drop enc.length buf, htake]
    case isFalse => cases h
  · rintro ⟨rfl, rfl⟩
    rw [List.take_left, if_pos rfl, List.drop_left]

theorem RlpCodec.single_lawful (enc : Bytes) (x : α) : (single enc x).Lawful where
  canonical := fun buf y rest h => ((single_decode enc x y buf rest).mp h).2
  rest_irrelevant := by
    intro enc' rest y
    rw [single_decode, single_decode, List.append_nil, List.append_left_inj]

/-- The codec that accepts nothing. -/
def RlpCodec.refuse {α : Type} : RlpCodec α where
  encode _ := []
  decode _ := none

theorem RlpCodec.refuse_lawful : (refuse : RlpCodec α).Lawful where
  canonical := fun _ _ _ h => (nomatch h)
  rest_irrelevant := fun _ _ _ => ⟨fun h => (nomatch h), fun h => (nomatch h)⟩

/-- A node that knows a single legacy transaction and no other. -/
def singleLegacy (enc : Bytes) (tx : TxLegacy × Signature) : Codecs where
  legacy := .single enc tx
  eip2930 := .refuse
  eip1559 := .refuse
  eip4844 := .refuse
  eip7702 := .refuse
  deposit := .refuse
  unsigned := .refuse
  contract := .refuse
  retry := .refuse
  submitRetryable := .refuse
  internal := .refuse

theorem singleLegacy_lawful {enc : Bytes} (hne : enc ≠ []) (tx : TxLegacy × Signature) :
    (singleLegacy enc tx).Lawful where
  legacy := single_lawful enc tx
  legacy_nil := if_neg (by simpa using hne.symm)
  eip2930 := refuse_lawful
  eip1559 := refuse_lawful
  eip4844 := refuse_lawful
  eip7702 := refuse_lawful
  deposit := refuse_lawful
  unsigned := refuse_lawful
  contract := refuse_lawful
  retry := refuse_lawful
  submitRetryable := refuse_lawful
  internal := refuse_lawful

/-- An empty legacy transaction without chain id, signed by `r = s = 1`, `v = 27`. -/
def sampleLegacy : TxLegacy × Signature := (⟨none, 0, 0, 0, none, 0, []⟩, ⟨1, 1, false⟩)

/-- Its RLP encoding. -/
def sampleEncoding : Bytes := [0xc9, 0x80, 0x80, 0x80, 0x80, 0x80, 0x80, 0x1b, 0x01, 0x01]

def sampleCodecs : Codecs := singleLegacy sampleEncoding sampleLegacy

end Arbreth.Tx
