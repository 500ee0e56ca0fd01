/-
  Parsing of L1 messages into transactions (arbos, parse_l2.rs and util/serialization.rs).

  A reader consumes a byte string from the front and fails as `std::io` does.
  `parseL2Transactions` dispatches on the L1 message kind, `parseL2Message` on the kind byte of
  an L2 message. Batches nest up to sixteen levels; the recursion is on the levels left.

  `chain_id` is passed along by the parser and never used by it, so it is left out there.
-/
import Arbreth.Lib.Machine
import Arbreth.Parse.Tx

namespace Arbreth.Parse

open Arbreth.Lib Arbreth.Tx

/-! ## Readers -/

inductive ErrorKind where
  | invalidData
  | unexpectedEof
  deriving DecidableEq

/-- `io::Error`. -/
structure IoError where
  kind : ErrorKind
  message : String
  deriving DecidableEq

def invalidData (message : String) : IoError := ⟨.invalidData, message⟩

/-- A reader over the bytes that are left. -/
abbrev Reader := StateT Bytes (Except IoError)

/-- `read_exact`. -/
def readExact (n : Nat) : Reader Bytes := fun bs =>
  if bs.length < n then .error ⟨.unexpectedEof, "failed to fill whole buffer"⟩
  else .ok (bs.take n, bs.drop n)

/-- `read_to_end`. -/
def readToEnd : Reader Bytes := fun bs => .ok (bs, [])

/-- `read` into a zeroed buffer of `n` bytes: what is there, up to `n`, and how much it was. -/
def readInto (n : Nat) : Reader (Bytes × Nat) := fun bs =>
  let got := bs.take n
  .ok ((got ++ List.replicate (n - got.length) 0, got.length), bs.drop n)

/-- `hash_from_reader`. -/
def hashFromReader : Reader B256 := do return wordOfBytes (← readExact 32)

/-- `uint256_from_reader`. -/
def uint256FromReader : Reader U256 := hashFromReader

/-- `address_from_reader`. -/
def addressFromReader : Reader Address := do return BitVec.ofNat 160 (beNat (← readExact 20))

/-- `address_from_256_from_reader`: the last 20 of 32 bytes. -/
def addressFrom256FromReader : Reader Address := do
  return BitVec.ofNat 160 (beNat ((wordBytes (← hashFromReader)).drop 12))

/-- `uint64_from_reader`. -/
def uint64FromReader : Reader Nat := do return beNat (← readExact 8)

/-- `bytestring_from_reader`: a length and that many bytes. -/
def bytestringFromReader (maxBytesToRead : Nat) : Reader Bytes := do
  let len ← uint64FromReader
  if maxBytesToRead < len then
    throw (invalidData ("byte-string length " ++ toString len ++ " exceeds max " ++
      toString maxBytesToRead))
  readExact len

/-- `try_into::<u64>` with the error of the caller. -/
def toU64 (x : U256) (message : String) : Reader Nat :=
  if x.toNat < 2 ^ 64 then return x.toNat else throw (invalidData message)

/-! ## Parsed transactions -/

/-- `ParsedTransaction`. -/
inductive ParsedTransaction where
  | signed (rlp : Bytes)
  | unsignedUserTx (sender : Address) (toAddr : Option Address) (value : U256) (gas : Nat)
      (gasFeeCap : U256) (nonce : Nat) (data : Bytes)
  | contractTx (sender : Address) (toAddr : Option Address) (value : U256) (gas : Nat)
      (gasFeeCap : U256) (data : Bytes) (requestId : B256)
  | ethDeposit (sender toAddr : Address) (value : U256) (requestId : B256)
  | submitRetryable (requestId : B256) (l1BaseFee deposit callvalue gasFeatureCap : U256)
      (gasLimit : Nat) (maxSubmissionFee : U256) (sender : Address) (toAddr : Option Address)
      (feeRefundAddr beneficiary : Address) (data : Bytes)
  | batchPostingReport (batchTimestamp : Nat) (batchPoster : Address) (dataHash : B256)
      (batchNumber : Nat) (l1BaseFeeEstimate : U256) (extraGas : Nat)
  | internalStartBlock (l1BlockNumber l1Timestamp : Nat)

/-- `MAX_L2_MESSAGE_SIZE`. -/
def maxL2MessageSize : Nat := 256 * 1024

/-- `MAX_L2_MESSAGE_BATCH_DEPTH`. -/
def maxL2MessageBatchDepth : Nat := 16

/-- A zero address stands for contract creation. -/
def destination (a : Address) : Option Address := if a = 0 then none else some a

/-! ## Unsigned and contract transactions -/

/-- The fields of `parse_unsigned_tx`, in the order they are read. The nonce is there for
    unsigned user transactions only. -/
def parseUnsignedFields (withNonce : Bool) :
    Reader (Nat × U256 × Nat × Option Address × U256 × Bytes) := do
  let gasLimit ← toU64 (← uint256FromReader) "unsigned user tx gas limit >= 2^64"
  let maxFeePerGas ← uint256FromReader
  let nonce ← if withNonce then do toU64 (← uint256FromReader) "unsigned user tx nonce >= 2^64"
    else pure 0
  let toAddr ← addressFrom256FromReader
  let value ← uint256FromReader
  let calldata ← readToEnd
  return (gasLimit, maxFeePerGas, nonce, destination toAddr, value, calldata)

/-- `parse_unsigned_tx`. -/
def parseUnsignedTx (data : Bytes) (poster : Address) (requestId : Option B256) (kind : UInt8) :
    Except IoError ParsedTransaction := do
  let (gas, fee, nonce, toAddr, value, calldata) ← (parseUnsignedFields (kind = 0)).run' data
  if kind = 0 then
    return .unsignedUserTx poster toAddr value gas fee nonce calldata
  else if kind = 1 then
    match requestId with
    | some id => return .contractTx poster toAddr value gas fee calldata id
    | none => throw (invalidData "cannot issue contract tx without L1 request id")
  else throw (invalidData "invalid L2 tx type in parseUnsignedTx")

/-! ## L2 messages -/

section Messages

variable (c : Codecs) (keccak256 : Bytes → B256)

/-- The request id of the `index`-th part of a message. -/
def subRequestId (parent : B256) (index : Nat) : B256 :=
  keccak256 (pairBytes parent (BitVec.ofNat 256 (wrap64 index)))

/-- The segments of a batch: length-prefixed strings up to the first that cannot be read. A
    segment takes at least eight bytes, so there are fewer than bytes. -/
def segmentsLoop : Nat → Bytes → List Bytes
  | 0, _ => []
  | fuel + 1, bs =>
    match (bytestringFromReader maxL2MessageSize).run bs with
    | .error _ => []
    | .ok (segment, rest) =>
      if maxL2MessageSize < segment.length then [] else segment :: segmentsLoop fuel rest

def segments (payload : Bytes) : List Bytes := segmentsLoop payload.length payload

/-- The body of the batch loop over the segments. -/
def batchLoop (sub : Option B256 → Bytes → Except IoError (List ParsedTransaction))
    (requestId : Option B256) : Nat → List Bytes → Except IoError (List ParsedTransaction)
  | _, [] => .ok []
  | index, segment :: rest => do
      let subTxs ← sub (requestId.map (subRequestId keccak256 · index)) segment
      let txs ← batchLoop sub requestId (index + 1) rest
      return subTxs ++ txs

/-- A signed transaction: decodable, and of no Arbitrum type and not a blob transaction. What
    is left of the payload after the transaction is not looked at. -/
def parseSigned (payload : Bytes) : Except IoError (List ParsedTransaction) :=
  match decode2718 c payload with
  | .ok (tx, _) =>
    if 0x64 ≤ tx.ty ∨ tx.ty = 3 then
      .error (invalidData ("unsupported tx type: " ++ toString tx.ty.toNat))
    else .ok [.signed payload]
  | .error _ => .error (invalidData "failed to decode signed transaction")

/-- The dispatch of `parse_l2_message` on the kind byte. `batch` parses a batch payload. -/
def dispatchL2 (batch : Option B256 → Bytes → Except IoError (List ParsedTransaction))
    (poster : Address) (requestId : Option B256) : Bytes → Except IoError (List ParsedTransaction)
  | [] => .error ⟨.unexpectedEof, "L2 message is empty (missing kind byte)"⟩
  | kind :: payload =>
    if kind = 7 then .error (invalidData "L2 message kind SignedCompressedTx is unimplemented")
    else if kind = 4 then parseSigned c payload
    else if kind = 0 ∨ kind = 1 then do
      let tx ← parseUnsignedTx payload poster requestId kind
      return [tx]
    else if kind = 3 then batch requestId payload
    else if kind = 6 then .ok []
    else if kind = 2 then
      .error (invalidData "L2 message kind NonmutatingCall is unimplemented")
    else .error (invalidData ("unknown L2 message kind " ++ toString kind.toNat))

/-- `parse_l2_message`, by the number of batch levels left. -/
def parseLevels (poster : Address) :
    Nat → Option B256 → Bytes → Except IoError (List ParsedTransaction)
  | 0, requestId, data =>
    dispatchL2 c (fun _ _ => .error (invalidData "L2 message batches have a max depth of 16"))
      poster requestId data
  | levels + 1, requestId, data =>
    dispatchL2 c (fun requestId payload =>
        batchLoop keccak256 (parseLevels poster levels) requestId 0 (segments payload))
      poster requestId data

/-- `parse_l2_message`. -/
def parseL2Message (data : Bytes) (poster : Address) (requestId : Option B256) (depth : Nat) :
    Except IoError (List ParsedTransaction) :=
  parseLevels c keccak256 poster (maxL2MessageBatchDepth - depth) requestId data

/-! ## L1 messages -/

/-- The value of a parsed transaction that L1 funds. -/
def ParsedTransaction.fundedValue : ParsedTransaction → U256
  | .unsignedUserTx _ _ value _ _ _ _ => value
  | .contractTx _ _ value _ _ _ _ => value
  | _ => 0

/-- `parse_l2_funded_by_l1`: a deposit to the poster, then the transaction it pays for. -/
def parseL2FundedByL1 (data : Bytes) (poster : Address) (requestId : B256) :
    Except IoError (List ParsedTransaction) :=
  match data with
  | [] => .error (invalidData "L2FundedByL1 message has no data")
  | kind :: body => do
      let tx ← parseUnsignedTx body poster (some (subRequestId keccak256 requestId 1)) kind
      return [.ethDeposit 0 poster tx.fundedValue (subRequestId keccak256 requestId 0), tx]

/-- `parse_eth_deposit_message`. -/
def parseEthDeposit (data : Bytes) (poster : Address) (requestId : B256) :
    Except IoError (List ParsedTransaction) := do
  let read : Reader (Address × U256) := do return (← addressFromReader, ← uint256FromReader)
  let (toAddr, value) ← read.run' data
  return [.ethDeposit poster toAddr value requestId]

/-- The data of a retryable: a declared length and what follows, zero-filled. -/
def retryDataFromReader : Reader Bytes := do
  let dataLength := (← hashFromReader).toNat
  if 2 ^ 64 ≤ dataLength then throw (invalidData "data length too large")
  if maxL2MessageSize < dataLength then
    throw (invalidData ("data length " ++ toString dataLength ++ " exceeds MAX_L2_MESSAGE_SIZE " ++
      toString maxL2MessageSize))
  if dataLength = 0 then return []
  let (calldata, read) ← readInto dataLength
  if read = 0 then throw ⟨.unexpectedEof, "missing retry data"⟩
  return calldata

/-- The fields of a submitted retryable, in the order they are read. -/
structure RetryableFields where
  retryTo : Address
  callvalue : U256
  deposit : U256
  maxSubmissionFee : U256
  feeRefundAddr : Address
  beneficiary : Address
  gasLimit : Nat
  gasFeatureCap : U256
  calldata : Bytes

def retryableFieldsFromReader : Reader RetryableFields := do
  let retryTo ← addressFrom256FromReader
  let callvalue ← uint256FromReader
  let deposit ← uint256FromReader
  let maxSubmissionFee ← uint256FromReader
  let feeRefundAddr ← addressFrom256FromReader
  let beneficiary ← addressFrom256FromReader
  let gasLimit ← toU64 (← uint256FromReader) "gas limit too large"
  let gasFeatureCap ← uint256FromReader
  let calldata ← retryDataFromReader
  return ⟨retryTo, callvalue, deposit, maxSubmissionFee, feeRefundAddr, beneficiary, gasLimit,
    gasFeatureCap, calldata⟩

/-- `parse_submit_retryable_message`. -/
def parseSubmitRetryable (data : Bytes) (poster : Address) (requestId : B256) (l1BaseFee : U256) :
    Except IoError (List ParsedTransaction) := do
  let f ← retryableFieldsFromReader.run' data
  return [.submitRetryable requestId l1BaseFee f.deposit f.callvalue f.gasFeatureCap f.gasLimit
    f.maxSubmissionFee poster (destination f.retryTo) f.feeRefundAddr f.beneficiary f.calldata]

/-- `extra_gas`: zero when the message ends before it. -/
def extraGasFromReader : Reader Nat := fun bs =>
  match uint64FromReader.run bs with
  | .ok r => .ok r
  | .error e => if e.kind = .unexpectedEof then .ok (0, bs) else .error e

/-- The fields of a report: timestamp, poster, data hash, batch number, fee, extra gas. -/
def reportFieldsFromReader : Reader (Nat × Address × B256 × Nat × U256 × Nat) := do
  let batchTimestamp ← toU64 (← uint256FromReader) "batch timestamp too large"
  let batchPoster ← addressFromReader
  let dataHash ← hashFromReader
  let batchNumber ← toU64 (← uint256FromReader) "batch number too large"
  let l1BaseFeeEstimate ← uint256FromReader
  let extraGas ← extraGasFromReader
  return (batchTimestamp, batchPoster, dataHash, batchNumber, l1BaseFeeEstimate, extraGas)

/-- `parse_batch_posting_report`. -/
def parseBatchPostingReport (data : Bytes) : Except IoError (List ParsedTransaction) := do
  let f ← reportFieldsFromReader.run' data
  return [.batchPostingReport f.1 f.2.1 f.2.2.1 f.2.2.2.1 f.2.2.2.2.1 f.2.2.2.2.2]

/-- The request id a message kind cannot do without. -/
def needRequestId (requestId : Option B256) (what : String) : Except IoError B256 :=
  match requestId with
  | some id => .ok id
  | none => .error (invalidData ("cannot issue " ++ what ++ " tx without L1 request id"))

/-- `parse_l2_transactions`. -/
def parseL2Transactions (kind : UInt8) (poster : Address) (l2Msg : Bytes)
    (requestId : Option B256) (l1BaseFee : Option U256) :
    Except IoError (List ParsedTransaction) :=
  if maxL2MessageSize < l2Msg.length then .error (invalidData "message too large")
  else if kind = 3 then parseL2Message c keccak256 l2Msg poster requestId 0
  else if kind = 6 then .ok []
  else if kind = 7 then do
    parseL2FundedByL1 keccak256 l2Msg poster (← needRequestId requestId "L2 funded by L1")
  else if kind = 9 then do
    parseSubmitRetryable l2Msg poster (← needRequestId requestId "submit retryable")
      (l1BaseFee.getD 0)
  else if kind = 12 then do
    parseEthDeposit l2Msg poster (← needRequestId requestId "deposit")
  else if kind = 13 then parseBatchPostingReport l2Msg
  else if kind = 10 then
    .error (invalidData "L1 message type BatchForGasEstimation is unimplemented")
  else .ok []

end Messages

/-! ## Conversion -/

/-- `parsed_tx_to_signed`. Reports and start-block transactions are built elsewhere. -/
def parsedTxToSigned (c : Codecs) (parsed : ParsedTransaction) (chainId : Nat) :
    Option ArbTransactionSigned :=
  let chainId : U256 := BitVec.ofNat 256 (wrap64 chainId)
  match parsed with
  | .signed rlp =>
    match decode2718 c rlp with
    | .ok (tx, _) => some tx
    | .error _ => none
  | .unsignedUserTx sender toAddr value gas gasFeeCap nonce data =>
    some ⟨.unsigned ⟨chainId, sender, nonce, gasFeeCap, gas, toAddr, value, data⟩, zeroSig⟩
  | .contractTx sender toAddr value gas gasFeeCap data requestId =>
    some ⟨.contract ⟨chainId, requestId, sender, gasFeeCap, gas, toAddr, value, data⟩, zeroSig⟩
  | .ethDeposit sender toAddr value requestId =>
    some ⟨.deposit ⟨chainId, requestId, sender, toAddr, value⟩, zeroSig⟩
  | .submitRetryable requestId l1BaseFee deposit callvalue gasFeatureCap gasLimit maxSubmissionFee
      sender toAddr feeRefundAddr beneficiary data =>
      some ⟨.submitRetryable ⟨chainId, requestId, sender, l1BaseFee, deposit, gasFeatureCap,
        gasLimit, toAddr, callvalue, beneficiary, maxSubmissionFee, feeRefundAddr, data⟩, zeroSig⟩
  | .batchPostingReport _ _ _ _ _ _ => none
  | .internalStartBlock _ _ => none

end Arbreth.Parse
