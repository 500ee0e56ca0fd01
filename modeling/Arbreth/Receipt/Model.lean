/-
  Receipts and their two wire formats (arb-primitives, receipt.rs).

  A receipt is written with its bloom (`rlp_encode_with_bloom`, the consensus form) or
  without it (`encode_2718` and alloy's `network_encode` around it), and read back by
  `rlp_decode_with_bloom` and `network_decode`. Both forms put a type byte before a list of
  fields, in a string header of its own; a legacy receipt is the bare list.

  The RLP codecs of the single fields, `network_encode` and `network_decode` around the
  receipt's own coders, and the reading of a type byte are library code and are parameters
  (`Primitives`); what is assumed of them is in `Primitives.Lawful`. The length functions of the
  source are the lengths of what is written. `multi_gas_used`, like `gas_used_for_l1`, is on
  neither wire; it is left out.
-/
import Arbreth.Parse.Tx

namespace Arbreth.Receipt

open Arbreth.Lib Arbreth.Tx

/-! ## Receipts -/

/-- `Eip658Value`: the status, or the state root of a receipt from before EIP-658. -/
inductive Eip658Value where
  | eip658 (success : Bool)
  | postState (root : B256)
  deriving DecidableEq

/-- `coerce_status`: only a failed status counts as failed. -/
def Eip658Value.coerceStatus : Eip658Value → Bool
  | .eip658 success => success
  | .postState _ => true

structure Log where
  address : Address
  topics : List B256
  data : Bytes
  deriving DecidableEq

structure AlloyReceipt where
  status : Eip658Value
  cumulativeGasUsed : Nat
  logs : List Log
  deriving DecidableEq

structure ArbDepositReceipt where
  status : Bool
  deriving DecidableEq

inductive ArbReceiptKind where
  | legacy (r : AlloyReceipt)
  | eip1559 (r : AlloyReceipt)
  | eip2930 (r : AlloyReceipt)
  | eip7702 (r : AlloyReceipt)
  | deposit (d : ArbDepositReceipt)
  | unsigned (r : AlloyReceipt)
  | contract (r : AlloyReceipt)
  | retry (r : AlloyReceipt)
  | submitRetryable (r : AlloyReceipt)
  | internal (r : AlloyReceipt)
  deriving DecidableEq

structure ArbReceipt where
  kind : ArbReceiptKind
  gasUsedForL1 : Nat
  deriving DecidableEq

/-- `ArbReceipt::new`: no L1 gas, filled in later. -/
def ArbReceipt.new (kind : ArbReceiptKind) : ArbReceipt := ⟨kind, 0⟩

namespace ArbReceiptKind

/-- The fields that go on the wire. The arm of a deposit writes its status, no gas and no
    logs; every other arm writes the receipt it wraps. -/
def body : ArbReceiptKind → AlloyReceipt
  | .legacy r | .eip1559 r | .eip2930 r | .eip7702 r | .unsigned r | .contract r | .retry r
  | .submitRetryable r | .internal r => r
  | .deposit d => ⟨.eip658 d.status, 0, []⟩

/-- `is_legacy`. -/
def isLegacy : ArbReceiptKind → Bool
  | .legacy _ => true
  | _ => false

/-- `Typed2718::ty`. -/
def ty : ArbReceiptKind → UInt8
  | .legacy _ => 0x00
  | .eip2930 _ => 0x01
  | .eip1559 _ => 0x02
  | .eip7702 _ => 0x04
  | .deposit _ => 0x64
  | .unsigned _ => 0x65
  | .contract _ => 0x66
  | .retry _ => 0x68
  | .submitRetryable _ => 0x69
  | .internal _ => 0x6A

end ArbReceiptKind

/-! ## The library's codecs -/

/-- `alloy_rlp::Header`. -/
structure Header where
  list : Bool
  payloadLength : Nat

abbrev Bloom := BitVec 2048

/-- The errors of the decoders, those of the primitives as one. -/
inductive Error where
  | rlp
  | unexpectedString
  | unexpectedLength
  | inputTooShort
  | custom (text : String)
  | unexpectedType (ty : UInt8)
  deriving DecidableEq

/-- A decoder of receipts. -/
abbrev Decoder := Bytes → Except Error (ArbReceipt × Bytes)

/-- The library functions the receipts are made with: RLP primitives, `ArbTxType::from_u8`
    (arb-alloy-consensus), and the defaults of alloy-eips, of which `network_encode` is given whether
    the receipt is a legacy one and what `encode_2718` writes, `network_decode` the decoders
    `typed_decode` and `fallback_decode`. -/
structure Primitives where
  header : RlpCodec Header
  u8 : RlpCodec UInt8
  u64 : RlpCodec Nat
  status : RlpCodec Eip658Value
  bloom : RlpCodec Bloom
  logs : RlpCodec (List Log)
  fromU8 : UInt8 → Option ArbTxType
  networkEncode : Bool → Bytes → Bytes
  networkDecode : (UInt8 → Decoder) → Decoder → Decoder

/-- A list: its header and its fields. -/
def encodeList (p : Primitives) (fields : Bytes) : Bytes :=
  p.header.encode ⟨true, fields.length⟩ ++ fields

/-- A value is read back from its encoding, and what follows is left unread. -/
def RoundTrips {α : Type} (c : RlpCodec α) (x : α) : Prop :=
  ∀ rest, c.decode (c.encode x ++ rest) = some (x, rest)

/-- What the library promises. A header is only read when its payload is there; the string header
    of a single byte is refused where that byte is its own encoding, so it is excluded here. A
    byte below 0x80 other than zero is its own encoding. What `network_encode` writes of a list is
    read by the fallback, and what it writes of a type byte and more by the decoder of that type. -/
structure Primitives.Lawful (p : Primitives) : Prop where
  header : ∀ h rest, h.payloadLength < 2 ^ 64 → (h.list = false → h.payloadLength ≠ 1) →
    h.payloadLength ≤ rest.length →
    p.header.decode (p.header.encode h ++ rest) = some (h, rest)
  header_ne_nil : ∀ h, p.header.encode h ≠ []
  u8 : ∀ b rest, 0 < b → b < 0x80 → p.u8.decode (b :: rest) = some (b, rest)
  u64 : ∀ n, n < 2 ^ 64 → RoundTrips p.u64 n
  status : ∀ s, RoundTrips p.status s
  bloom : ∀ b, RoundTrips p.bloom b
  logs : ∀ ls, (p.logs.encode ls).length < 2 ^ 64 → RoundTrips p.logs ls
  fromU8 : ∀ t : ArbTxType, p.fromU8 t.asU8 = some t
  network_length : ∀ legacy payload, payload.length ≤ (p.networkEncode legacy payload).length
  network_legacy : ∀ (typedDecode : UInt8 → Decoder) (fallbackDecode : Decoder) fields r rest,
    fields.length < 2 ^ 64 → fallbackDecode (encodeList p fields ++ rest) = .ok (r, rest) →
      p.networkDecode typedDecode fallbackDecode (p.networkEncode true (encodeList p fields) ++ rest) =
        .ok (r, rest)
  network_typed : ∀ (typedDecode : UInt8 → Decoder) (fallbackDecode : Decoder) ty payload r rest,
    payload ≠ [] → (p.networkEncode false (ty :: payload)).length < 2 ^ 64 →
      typedDecode ty (payload ++ rest) = .ok (r, rest) →
        p.networkDecode typedDecode fallbackDecode (p.networkEncode false (ty :: payload) ++ rest) =
          .ok (r, rest)

section Wire

variable (p : Primitives)

/-! ## Encoding -/

/-- A type byte before the fields, for every kind but the legacy one. -/
def typed (kind : ArbReceiptKind) (payload : Bytes) : Bytes :=
  if !kind.isLegacy then kind.ty :: payload else payload

/-- The string header around a typed payload. -/
def wrapped (kind : ArbReceiptKind) (payload : Bytes) : Bytes :=
  if !kind.isLegacy then p.header.encode ⟨false, payload.length⟩ ++ payload else payload

/-- `rlp_encode_fields`. -/
def rlpEncodeFields (kind : ArbReceiptKind) (bloom : Bloom) : Bytes :=
  p.status.encode kind.body.status ++ (p.u64.encode kind.body.cumulativeGasUsed ++
    (p.bloom.encode bloom ++ p.logs.encode kind.body.logs))

/-- `rlp_encode_fields_without_bloom`. -/
def rlpEncodeFieldsWithoutBloom (kind : ArbReceiptKind) : Bytes :=
  p.status.encode kind.body.status ++ (p.u64.encode kind.body.cumulativeGasUsed ++
    p.logs.encode kind.body.logs)

/-- `eip2718_encode_with_bloom`. -/
def eip2718EncodeWithBloom (r : ArbReceipt) (bloom : Bloom) : Bytes :=
  typed r.kind (encodeList p (rlpEncodeFields p r.kind bloom))

/-- `rlp_encode_with_bloom`. -/
def rlpEncodeWithBloom (r : ArbReceipt) (bloom : Bloom) : Bytes :=
  wrapped p r.kind (eip2718EncodeWithBloom p r bloom)

/-- `encode_2718`. -/
def encode2718 (r : ArbReceipt) : Bytes :=
  typed r.kind (encodeList p (rlpEncodeFieldsWithoutBloom p r.kind))

/-- `network_encode`. -/
def networkEncode (r : ArbReceipt) : Bytes := p.networkEncode r.kind.isLegacy (encode2718 p r)

/-! ## Decoding -/

/-- One `decode(buf)?` of a primitive. -/
def read {α : Type} (c : RlpCodec α) (buf : Bytes) : Except Error (α × Bytes) :=
  match c.decode buf with
  | some x => .ok x
  | none => .error .rlp

/-- The header of a list, its fields by `fields`, and the check that they fill it. -/
def decodeList {α : Type} (fields : Bytes → Except Error (α × Bytes)) (buf : Bytes) :
    Except Error (α × Bytes) := do
  let (header, buf) ← read p.header buf
  if !header.list then
    throw .unexpectedString
  let remaining := buf.length
  let (x, buf) ← fields buf
  if buf.length + header.payloadLength ≠ remaining then
    throw .unexpectedLength
  return (x, buf)

/-- Status, cumulative gas, bloom and logs. -/
def decodeFields (buf : Bytes) : Except Error ((AlloyReceipt × Bloom) × Bytes) := do
  let (status, buf) ← read p.status buf
  let (cumulativeGasUsed, buf) ← read p.u64 buf
  let (bloom, buf) ← read p.bloom buf
  let (logs, buf) ← read p.logs buf
  return ((⟨status, cumulativeGasUsed, logs⟩, bloom), buf)

/-- Status, cumulative gas and logs. -/
def decodeFieldsWithoutBloom (buf : Bytes) : Except Error (AlloyReceipt × Bytes) := do
  let (status, buf) ← read p.status buf
  let (cumulativeGasUsed, buf) ← read p.u64 buf
  let (logs, buf) ← read p.logs buf
  return (⟨status, cumulativeGasUsed, logs⟩, buf)

/-- `rlp_decode_inner`. The second arm is alloy's decoder of its own receipt, which reads
    the same list; its result is a legacy receipt whatever the type was. -/
def rlpDecodeInner (buf : Bytes) (txType : ArbTxType) :
    Except Error ((ArbReceipt × Bloom) × Bytes) := do
  match txType with
  | .deposit =>
    let ((receipt, bloom), buf) ← decodeList p (decodeFields p) buf
    return ((ArbReceipt.new (.deposit ⟨receipt.status.coerceStatus⟩), bloom), buf)
  | _ =>
    let ((receipt, bloom), buf) ← decodeList p (decodeFields p) buf
    return ((ArbReceipt.new (.legacy receipt), bloom), buf)

/-- `rlp_decode_with_bloom`. -/
def rlpDecodeWithBloom (buf : Bytes) : Except Error ((ArbReceipt × Bloom) × Bytes) := do
  let (header, headerBuf) ← read p.header buf
  if header.list then
    rlpDecodeInner p buf .legacy
  else
    let remaining := headerBuf.length
    let (ty, buf) ← read p.u8 headerBuf
    match p.fromU8 ty with
    | none => throw (.custom "unexpected arb receipt tx type")
    | some txType =>
      let (this, buf) ← rlpDecodeInner p buf txType
      if buf.length + header.payloadLength ≠ remaining then
        throw .unexpectedLength
      return (this, buf)

/-- The kind `rlp_decode_inner_without_bloom` gives a receipt of a type. -/
def kindOf (txType : ArbTxType) (receipt : AlloyReceipt) : ArbReceiptKind :=
  match txType with
  | .deposit => .deposit ⟨receipt.status.coerceStatus⟩
  | .unsigned => .unsigned receipt
  | .contract => .contract receipt
  | .retry => .retry receipt
  | .submitRetryable => .submitRetryable receipt
  | .internal => .internal receipt
  | .legacy => .legacy receipt

/-- `rlp_decode_inner_without_bloom`. -/
def rlpDecodeInnerWithoutBloom (buf : Bytes) (txType : ArbTxType) :
    Except Error (ArbReceipt × Bytes) := do
  let (receipt, buf) ← decodeList p (decodeFieldsWithoutBloom p) buf
  return (ArbReceipt.new (kindOf txType receipt), buf)

/-- `decode_standard_receipt`. -/
def decodeStandardReceipt (buf : Bytes) (wrap : AlloyReceipt → ArbReceiptKind) :
    Except Error (ArbReceipt × Bytes) := do
  let (receipt, buf) ← decodeList p (decodeFieldsWithoutBloom p) buf
  return (ArbReceipt.new (wrap receipt), buf)

/-- `typed_decode`: the Ethereum types first, which `ArbTxType` does not know. -/
def typedDecode (ty : UInt8) (buf : Bytes) : Except Error (ArbReceipt × Bytes) :=
  match ty with
  | 0x01 => decodeStandardReceipt p buf .eip2930
  | 0x02 => decodeStandardReceipt p buf .eip1559
  | 0x04 => decodeStandardReceipt p buf .eip7702
  | ty =>
    match p.fromU8 ty with
    | none => throw (.unexpectedType ty)
    | some txType => rlpDecodeInnerWithoutBloom p buf txType

/-- `fallback_decode`. -/
def fallbackDecode (buf : Bytes) : Except Error (ArbReceipt × Bytes) :=
  rlpDecodeInnerWithoutBloom p buf .legacy

/-- `network_decode`. -/
def networkDecode : Decoder := p.networkDecode (typedDecode p) (fallbackDecode p)

end Wire

end Arbreth.Receipt
