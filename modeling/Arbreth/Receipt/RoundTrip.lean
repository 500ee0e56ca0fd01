/-
  Which receipts survive the wire.

  The form without a bloom gives every kind back. The form with a bloom does not: its
  decoder knows the Arbitrum types only, so a typed Ethereum receipt is refused, and it
  returns every type but a deposit as a legacy receipt. Exactly the legacy receipts and the
  deposits come back as they were written.
-/
import Arbreth.Lib.Outcome
import Arbreth.Receipt.Model

namespace Arbreth.Receipt

open Arbreth.Lib Arbreth.Tx ArbReceipt

variable {α : Type} {c : RlpCodec α} {buf rest : Bytes}

theorem read_encode {x : α} (h : RoundTrips c x) (rest : Bytes) :
    read c (c.encode x ++ rest) = .ok (x, rest) := by
  rw [read, h rest]

/-- What Rust's types bound: the gas is a `u64`, and an encoding is a byte vector. -/
structure Fits (p : Primitives) (r : ArbReceipt) (bloom : Bloom) : Prop where
  gas : r.kind.body.cumulativeGasUsed < 2 ^ 64
  withBloom : (rlpEncodeWithBloom p r bloom).length < 2 ^ 64
  withoutBloom : (networkEncode p r).length < 2 ^ 64

/-- The receipt comes back from both wire forms with its kind, which holds its status, gas
    and logs, with its bloom, and with the bytes after it unread. -/
def SurvivesWire (p : Primitives) (r : ArbReceipt) (bloom : Bloom) (suffix : Bytes) : Prop :=
  (∃ r', rlpDecodeWithBloom p (rlpEncodeWithBloom p r bloom ++ suffix) = .ok ((r', bloom), suffix) ∧
    r'.kind = r.kind) ∧
  ∃ r', networkDecode p (networkEncode p r ++ suffix) = .ok (r', suffix) ∧ r'.kind = r.kind

section Laws

variable {p : Primitives} (hp : p.Lawful)

variable {kind : ArbReceiptKind} {r : ArbReceipt} {fields : Bytes} {bloom : Bloom}

theorem wrapped_legacy (hkind : kind.isLegacy = true) (payload : Bytes) :
    wrapped p kind (typed kind payload) = payload := by
  rw [wrapped, typed, hkind, if_neg (by decide), if_neg (by decide)]

/-! ## The list of fields -/

include hp

theorem lt_length_encodeList (fields : Bytes) : fields.length < (encodeList p fields).length := by
  have hheader := List.length_pos_of_ne_nil (hp.header_ne_nil ⟨true, fields.length⟩)
  rw [encodeList, List.length_append]
  omega

theorem read_header_encodeList (hlen : fields.length < 2 ^ 64) (rest : Bytes) :
    read p.header (encodeList p fields ++ rest) =
      .ok (⟨true, fields.length⟩, fields ++ rest) := by
  have h := hp.header ⟨true, fields.length⟩ (fields ++ rest) hlen (by simp) (by simp)
  rw [encodeList, List.append_assoc, read, h]

theorem decodeList_encodeList {α : Type} {dec : Bytes → Except Error (α × Bytes)} {x : α}
    (hdec : ∀ rest, dec (fields ++ rest) = .ok (x, rest)) (hlen : fields.length < 2 ^ 64)
    (rest : Bytes) : decodeList p dec (encodeList p fields ++ rest) = .ok (x, rest) := by
  rw [decodeList, read_header_encodeList hp hlen, ok_bind]
  dsimp only
  rw [hdec, if_neg (by simp)]
  have hfill : ¬ (rest.length + fields.length ≠ (fields ++ rest).length) := by
    rw [List.length_append]; omega
  rw [ok_bind]
  rw [if_neg hfill]
  rfl

theorem decodeFields_encode (hgas : kind.body.cumulativeGasUsed < 2 ^ 64)
    (hlen : (rlpEncodeFields p kind bloom).length < 2 ^ 64) (rest : Bytes) :
    decodeFields p (rlpEncodeFields p kind bloom ++ rest) = .ok ((kind.body, bloom), rest) := by
  have hlogs : (p.logs.encode kind.body.logs).length < 2 ^ 64 := by
    simp only [rlpEncodeFields, List.length_append] at hlen; omega
  rw [rlpEncodeFields, decodeFields, List.append_assoc, read_encode (hp.status _), ok_bind]
  dsimp only
  rw [List.append_assoc, read_encode (hp.u64 _ hgas), ok_bind]
  rw [List.append_assoc, read_encode (hp.bloom _), ok_bind]
  rw [read_encode (hp.logs _ hlogs), ok_bind]
  rfl

theorem decodeFieldsWithoutBloom_encode (hgas : kind.body.cumulativeGasUsed < 2 ^ 64)
    (hlen : (rlpEncodeFieldsWithoutBloom p kind).length < 2 ^ 64) (rest : Bytes) :
    decodeFieldsWithoutBloom p (rlpEncodeFieldsWithoutBloom p kind ++ rest) =
      .ok (kind.body, rest) := by
  have hlogs : (p.logs.encode kind.body.logs).length < 2 ^ 64 := by
    simp only [rlpEncodeFieldsWithoutBloom, List.length_append] at hlen; omega
  rw [rlpEncodeFieldsWithoutBloom, decodeFieldsWithoutBloom, List.append_assoc,
    read_encode (hp.status _), ok_bind]
  dsimp only
  rw [List.append_assoc, read_encode (hp.u64 _ hgas), ok_bind]
  rw [read_encode (hp.logs _ hlogs), ok_bind]
  rfl

/-! ## The string header of a typed payload -/

/-- A typed payload that fits is read back behind its string header. -/
theorem read_header_wrapped (hkind : kind.isLegacy = false)
    (hlen : (wrapped p kind (typed kind (encodeList p fields))).length < 2 ^ 64) (rest : Bytes) :
    read p.header (wrapped p kind (typed kind (encodeList p fields)) ++ rest) =
      .ok (⟨false, (encodeList p fields).length + 1⟩, kind.ty :: (encodeList p fields ++ rest)) := by
  have hpos := lt_length_encodeList hp fields
  rw [wrapped, typed, hkind, if_pos (by rfl), if_pos (by rfl), List.length_append,
    List.length_cons] at hlen
  have h := hp.header ⟨false, (encodeList p fields).length + 1⟩
    (kind.ty :: (encodeList p fields ++ rest)) (by dsimp only; omega) (by dsimp only; omega)
    (by simp only [List.length_cons, List.length_append]; omega)
  rw [wrapped, typed, hkind, if_pos (by rfl), if_pos (by rfl), List.length_cons,
    List.append_assoc, List.cons_append, read, h]

/-- The fields of what fits fit. -/
theorem length_fields_lt
    (hlen : (wrapped p kind (typed kind (encodeList p fields))).length < 2 ^ 64) :
    fields.length < 2 ^ 64 := by
  have hpos := lt_length_encodeList hp fields
  have hle : (encodeList p fields).length ≤
      (wrapped p kind (typed kind (encodeList p fields))).length := by
    unfold wrapped typed
    split
    · rw [List.length_append, List.length_cons]; omega
    · exact Nat.le_refl _
  omega

/-! ## Without a bloom -/

theorem typedDecode_asU8 (t : ArbTxType) (buf : Bytes) :
    typedDecode p t.asU8 buf = rlpDecodeInnerWithoutBloom p buf t := by
  obtain ⟨h1, h2, h4⟩ : t.asU8 ≠ 0x01 ∧ t.asU8 ≠ 0x02 ∧ t.asU8 ≠ 0x04 := by
    cases t <;> decide
  rw [typedDecode, hp.fromU8]
  · exact h1
  · exact h2
  · exact h4

/-- The decoder a kind's type byte selects gives the kind back. -/
theorem typedDecode_encode (hkind : kind.isLegacy = false)
    (hgas : kind.body.cumulativeGasUsed < 2 ^ 64)
    (hlen : (rlpEncodeFieldsWithoutBloom p kind).length < 2 ^ 64) (rest : Bytes) :
    typedDecode p kind.ty (encodeList p (rlpEncodeFieldsWithoutBloom p kind) ++ rest) =
      .ok (new kind, rest) := by
  have h := decodeList_encodeList hp (decodeFieldsWithoutBloom_encode hp hgas hlen) hlen rest
  have harb : ∀ t : ArbTxType, typedDecode p t.asU8
      (encodeList p (rlpEncodeFieldsWithoutBloom p kind) ++ rest) =
        .ok (new (kindOf t kind.body), rest) := by
    intro t
    rw [typedDecode_asU8 hp, rlpDecodeInnerWithoutBloom, h]
    rfl
  cases kind with
  | legacy r => cases hkind
  | eip1559 r | eip2930 r | eip7702 r =>
    show decodeStandardReceipt p _ _ = _
    rw [decodeStandardReceipt, h]
    rfl
  | deposit d => exact harb .deposit
  | unsigned r => exact harb .unsigned
  | contract r => exact harb .contract
  | retry r => exact harb .retry
  | submitRetryable r => exact harb .submitRetryable
  | internal r => exact harb .internal

theorem networkDecode_networkEncode (hgas : r.kind.body.cumulativeGasUsed < 2 ^ 64)
    (hlen : (networkEncode p r).length < 2 ^ 64) (suffix : Bytes) :
    networkDecode p (networkEncode p r ++ suffix) = .ok (new r.kind, suffix) := by
  have hpayload := hp.network_length r.kind.isLegacy (encode2718 p r)
  have hlist := lt_length_encodeList hp (rlpEncodeFieldsWithoutBloom p r.kind)
  cases hkind : r.kind.isLegacy with
  | true =>
    have hencode : encode2718 p r = encodeList p (rlpEncodeFieldsWithoutBloom p r.kind) := by
      rw [encode2718, typed, hkind, if_neg (by decide)]
    rw [networkEncode] at hlen
    rw [hencode] at hpayload hlen
    have hfields : (rlpEncodeFieldsWithoutBloom p r.kind).length < 2 ^ 64 := by omega
    rw [networkEncode, networkDecode, hkind, hencode]
    refine hp.network_legacy _ _ _ _ _ hfields ?_
    rw [fallbackDecode, rlpDecodeInnerWithoutBloom,
      decodeList_encodeList hp (decodeFieldsWithoutBloom_encode hp hgas hfields) hfields suffix]
    cases hk : r.kind with
    | legacy a => rfl
    | _ => rw [hk] at hkind; cases hkind
  | false =>
    have hencode : encode2718 p r =
        r.kind.ty :: encodeList p (rlpEncodeFieldsWithoutBloom p r.kind) := by
      rw [encode2718, typed, hkind, if_pos (by rfl)]
    rw [networkEncode] at hlen
    rw [hencode, hkind] at hlen
    rw [hencode, hkind, List.length_cons] at hpayload
    rw [networkEncode, networkDecode, hkind, hencode]
    refine hp.network_typed _ _ _ _ _ _ (List.ne_nil_of_length_pos (by omega)) hlen ?_
    exact typedDecode_encode hp hkind hgas (by omega) suffix

/-! ## With a bloom -/

theorem rlpDecodeInner_encode (hgas : kind.body.cumulativeGasUsed < 2 ^ 64)
    (hlen : (rlpEncodeFields p kind bloom).length < 2 ^ 64) (rest : Bytes) :
    rlpDecodeInner p (encodeList p (rlpEncodeFields p kind bloom) ++ rest) .legacy =
        .ok ((new (.legacy kind.body), bloom), rest) ∧
    rlpDecodeInner p (encodeList p (rlpEncodeFields p kind bloom) ++ rest) .deposit =
        .ok ((new (.deposit ⟨kind.body.status.coerceStatus⟩), bloom), rest) := by
  have h := decodeList_encodeList hp (decodeFields_encode hp hgas hlen) hlen rest
  constructor
  · show (decodeList p (decodeFields p) _ >>= _) = _
    rw [h]
    rfl
  · show (decodeList p (decodeFields p) _ >>= _) = _
    rw [h]
    rfl

theorem rlpDecodeWithBloom_legacy {a : AlloyReceipt} (hkind : r.kind = .legacy a)
    (hfit : Fits p r bloom) (suffix : Bytes) :
    rlpDecodeWithBloom p (rlpEncodeWithBloom p r bloom ++ suffix) =
      .ok ((new r.kind, bloom), suffix) := by
  have hlegacy : r.kind.isLegacy = true := by rw [hkind]; rfl
  have hfields := length_fields_lt hp hfit.withBloom
  rw [rlpEncodeWithBloom, eip2718EncodeWithBloom, wrapped_legacy hlegacy, rlpDecodeWithBloom,
    read_header_encodeList hp hfields, ok_bind]
  dsimp only
  rw [if_pos rfl, (rlpDecodeInner_encode hp hfit.gas hfields suffix).1, hkind]
  rfl

theorem rlpDecodeWithBloom_deposit {d : ArbDepositReceipt} (hkind : r.kind = .deposit d)
    (hfit : Fits p r bloom) (suffix : Bytes) :
    rlpDecodeWithBloom p (rlpEncodeWithBloom p r bloom ++ suffix) =
      .ok ((new r.kind, bloom), suffix) := by
  have hlegacy : r.kind.isLegacy = false := by rw [hkind]; rfl
  have hfields := length_fields_lt hp hfit.withBloom
  have hread := read_header_wrapped hp hlegacy hfit.withBloom suffix
  have hty : r.kind.ty = 0x64 := by rw [hkind]; rfl
  have hu8 : read p.u8 (0x64 :: (encodeList p (rlpEncodeFields p r.kind bloom) ++ suffix)) =
      .ok (0x64, encodeList p (rlpEncodeFields p r.kind bloom) ++ suffix) := by
    rw [read, hp.u8 _ _ (by decide) (by decide)]
  rw [rlpEncodeWithBloom, eip2718EncodeWithBloom, rlpDecodeWithBloom, hread, hty, ok_bind]
  dsimp only
  rw [if_neg (by decide), hu8, ok_bind]
  rw [show p.fromU8 0x64 = some .deposit from hp.fromU8 .deposit]
  dsimp only
  rw [(rlpDecodeInner_encode hp hfit.gas hfields suffix).2, ok_bind]
  rw [if_neg (by simp only [List.length_cons, List.length_append]; omega), hkind]
  rfl

end Laws

/-! ## What the decoder with a bloom can return -/

/-- A legacy receipt or a deposit. -/
def LegacyOrDeposit (kind : ArbReceiptKind) : Prop :=
  (∃ a, kind = .legacy a) ∨ ∃ d, kind = .deposit d

theorem legacyOrDeposit_of_rlpDecodeInner {p : Primitives} {txType : ArbTxType} {r : ArbReceipt}
    {bloom : Bloom} (h : rlpDecodeInner p buf txType = .ok ((r, bloom), rest)) :
    LegacyOrDeposit r.kind := by
  unfold rlpDecodeInner at h
  split at h
  · obtain ⟨⟨⟨a, b⟩, buf'⟩, -, heq⟩ := bind_eq_ok.mp h
    cases heq
    exact Or.inr ⟨_, rfl⟩
  · obtain ⟨⟨⟨a, b⟩, buf'⟩, -, heq⟩ := bind_eq_ok.mp h
    cases heq
    exact Or.inl ⟨_, rfl⟩

theorem legacyOrDeposit_of_rlpDecodeWithBloom {p : Primitives} {r : ArbReceipt} {bloom : Bloom}
    (h : rlpDecodeWithBloom p buf = .ok ((r, bloom), rest)) : LegacyOrDeposit r.kind := by
  obtain ⟨⟨header, headerBuf⟩, -, h⟩ := bind_eq_ok.mp h
  dsimp only at h
  split at h
  · exact legacyOrDeposit_of_rlpDecodeInner h
  · obtain ⟨⟨ty, buf'⟩, -, h⟩ := bind_eq_ok.mp h
    split at h
    · cases h
    · obtain ⟨⟨⟨r', bloom'⟩, rest'⟩, hinner, h⟩ := bind_eq_ok.mp h
      split at h
      · cases h
      · cases h
        exact legacyOrDeposit_of_rlpDecodeInner hinner

/-- A receipt survives both wire forms exactly when it is a legacy receipt or a deposit. -/
theorem receipt_survives_wire_iff {p : Primitives} (hp : p.Lawful) (r : ArbReceipt) (bloom : Bloom)
    (suffix : Bytes) (hfit : Fits p r bloom) :
    SurvivesWire p r bloom suffix ↔ LegacyOrDeposit r.kind := by
  constructor
  · rintro ⟨⟨r', hdecode, hkind⟩, -⟩
    rw [← hkind]
    exact legacyOrDeposit_of_rlpDecodeWithBloom hdecode
  · intro hkind
    refine ⟨⟨new r.kind, ?_, rfl⟩, new r.kind,
      networkDecode_networkEncode hp hfit.gas hfit.withoutBloom suffix, rfl⟩
    rcases hkind with ⟨a, ha⟩ | ⟨d, hd⟩
    · exact rlpDecodeWithBloom_legacy hp ha hfit suffix
    · exact rlpDecodeWithBloom_deposit hp hd hfit suffix

/-! ## An instance of the laws -/

/-- A number in `w` bytes. -/
def numCodec (w : Nat) : RlpCodec Nat where
  encode n := beBytes w n
  decode buf := if buf.length < w then none else some (beNat (buf.take w), buf.drop w)

theorem roundTrips_num {w n : Nat} (hn : n < 256 ^ w) : RoundTrips (numCodec w) n := by
  intro rest
  have hlen : (beBytes w n).length = w := by simp
  show (if (beBytes w n ++ rest).length < w then none
    else some (beNat ((beBytes w n ++ rest).take w), (beBytes w n ++ rest).drop w)) = _
  rw [if_neg (by rw [List.length_append]; omega), List.take_left' hlen, List.drop_left' hlen,
    beNat_beBytes, Nat.mod_eq_of_lt hn]

/-- A codec behind a change of representation. -/
def mapCodec {α β : Type} (c : RlpCodec α) (toRep : β → α) (ofRep : α → β) : RlpCodec β where
  encode x := c.encode (toRep x)
  decode buf := (c.decode buf).map fun r => (ofRep r.1, r.2)

theorem roundTrips_map {α β : Type} {c : RlpCodec α} {toRep : β → α} {ofRep : α → β} {x : β}
    (hc : RoundTrips c (toRep x)) (hx : ofRep (toRep x) = x) :
    RoundTrips (mapCodec c toRep ofRep) x := by
  intro rest
  show (c.decode (c.encode (toRep x) ++ rest)).map _ = _
  rw [hc rest, Option.map_some, hx]

def pairCodec {α β : Type} (c : RlpCodec α) (d : RlpCodec β) : RlpCodec (α × β) where
  encode x := c.encode x.1 ++ d.encode x.2
  decode buf := (c.decode buf).bind fun r => (d.decode r.2).map fun s => ((r.1, s.1), s.2)

theorem roundTrips_pair {α β : Type} {c : RlpCodec α} {d : RlpCodec β} {x : α × β}
    (hc : RoundTrips c x.1) (hd : RoundTrips d x.2) : RoundTrips (pairCodec c d) x := by
  intro rest
  show (c.decode (c.encode x.1 ++ d.encode x.2 ++ rest)).bind _ = _
  rw [List.append_assoc, hc, Option.bind_some, hd, Option.map_some]

/-- A list, its length in unary: each element behind a one, and a zero at the end. The
    decoder's fuel is the length of its input. -/
def decodeListFuel {α : Type} (c : RlpCodec α) : Nat → Bytes → Option (List α × Bytes)
  | 0, _ => none
  | _ + 1, [] => none
  | fuel + 1, b :: buf =>
    if b = 0 then some ([], buf)
    else (c.decode buf).bind fun r => (decodeListFuel c fuel r.2).map fun s => (r.1 :: s.1, s.2)

def encodeElements {α : Type} (c : RlpCodec α) : List α → Bytes
  | [] => [0]
  | x :: xs => 1 :: (c.encode x ++ encodeElements c xs)

def listCodec {α : Type} (c : RlpCodec α) : RlpCodec (List α) where
  encode := encodeElements c
  decode buf := decodeListFuel c buf.length buf

theorem decodeListFuel_encode (hc : ∀ x, RoundTrips c x) (xs : List α) (rest : Bytes) :
    ∀ fuel, xs.length < fuel →
      decodeListFuel c fuel (encodeElements c xs ++ rest) = some (xs, rest) := by
  induction xs with
  | nil =>
    intro fuel hfuel
    obtain ⟨fuel, rfl⟩ := Nat.exists_eq_succ_of_ne_zero (Nat.ne_of_gt hfuel)
    rfl
  | cons x xs ih =>
    intro fuel hfuel
    obtain ⟨fuel, rfl⟩ := Nat.exists_eq_succ_of_ne_zero (Nat.ne_of_gt (Nat.zero_lt_of_lt hfuel))
    rw [encodeElements, List.cons_append, decodeListFuel, if_neg (by decide), List.append_assoc,
      hc x, Option.bind_some, ih fuel (by simpa using hfuel), Option.map_some]

theorem length_le_encodeElements (c : RlpCodec α) (xs : List α) :
    xs.length < (encodeElements c xs).length := by
  induction xs with
  | nil => exact Nat.zero_lt_one
  | cons x xs ih =>
    rw [encodeElements, List.length_cons, List.length_cons, List.length_append]
    omega

theorem roundTrips_list (hc : ∀ x, RoundTrips c x) (xs : List α) : RoundTrips (listCodec c) xs := by
  intro rest
  refine decodeListFuel_encode hc xs rest _ ?_
  have := length_le_encodeElements c xs
  show xs.length < (encodeElements c xs ++ rest).length
  rw [List.length_append]
  omega

def bitsCodec (w : Nat) : RlpCodec (BitVec (8 * w)) :=
  mapCodec (numCodec w) BitVec.toNat (BitVec.ofNat (8 * w))

theorem roundTrips_bits {w : Nat} (x : BitVec (8 * w)) : RoundTrips (bitsCodec w) x := by
  refine roundTrips_map (roundTrips_num ?_) (by simp)
  rw [show (256 : Nat) = 2 ^ 8 from rfl, ← Nat.pow_mul]
  exact x.isLt

/-- A log as its address, topics and data. -/
def logCodec : RlpCodec Log :=
  mapCodec (pairCodec (bitsCodec 20) (pairCodec (listCodec (bitsCodec 32)) (listCodec (bitsCodec 1))))
    (fun l => (l.address, l.topics, l.data.map UInt8.toBitVec))
    fun r => ⟨r.1, r.2.1, r.2.2.map UInt8.ofBitVec⟩

theorem roundTrips_log (l : Log) : RoundTrips logCodec l := by
  refine roundTrips_map (roundTrips_pair (roundTrips_bits _)
    (roundTrips_pair (roundTrips_list roundTrips_bits _) (roundTrips_list roundTrips_bits _))) ?_
  have hdata : (l.data.map UInt8.toBitVec).map UInt8.ofBitVec = l.data := by
    rw [List.map_map]
    exact List.map_id l.data
  rw [hdata]

/-- A header as its kind and its length. -/
def headerCodec : RlpCodec Header :=
  mapCodec (pairCodec (numCodec 1) (numCodec 8)) (fun h => (h.list.toNat, h.payloadLength))
    fun r => ⟨r.1 == 1, r.2⟩

theorem roundTrips_header {h : Header} (hlen : h.payloadLength < 2 ^ 64) :
    RoundTrips headerCodec h := by
  refine roundTrips_map (roundTrips_pair (roundTrips_num ?_) (roundTrips_num hlen)) ?_
  · show h.list.toNat < 256 ^ 1
    cases h.list <;> decide
  · cases h with
    | mk list payloadLength => cases list <;> rfl

/-- A status as one byte, and a state root behind a two. -/
def statusCodec : RlpCodec Eip658Value :=
  mapCodec (pairCodec (numCodec 1) (bitsCodec 32))
    (fun
      | .eip658 success => (success.toNat, 0)
      | .postState root => (2, root))
    fun r => if r.1 = 2 then .postState r.2 else .eip658 (r.1 == 1)

theorem roundTrips_status (s : Eip658Value) : RoundTrips statusCodec s := by
  refine roundTrips_map (roundTrips_pair (roundTrips_num ?_) (roundTrips_bits _)) ?_
  · cases s with
    | eip658 success => cases success <;> decide
    | postState root => exact (by decide : 2 < 256 ^ 1)
  · cases s with
    | eip658 success => cases success <;> rfl
    | postState root => rfl

/-- Primitives of fixed widths, not RLP's own, that keep the laws. -/
def fixedPrimitives : Primitives where
  header := headerCodec
  u8 :=
    { encode := fun b => [b]
      decode := fun
        | [] => none
        | b :: rest => some (b, rest) }
  u64 := numCodec 8
  status := statusCodec
  bloom := bitsCodec 256
  logs := listCodec logCodec
  fromU8 := ArbTxType.fromU8
  networkEncode legacy payload := legacy.toNat.toUInt8 :: payload
  networkDecode typedDecode fallbackDecode buf :=
    if buf.head? = some 1 then fallbackDecode (buf.drop 1)
    else typedDecode ((buf.drop 1).headD 0) (buf.drop 2)

theorem fixedPrimitives_lawful : fixedPrimitives.Lawful where
  header _ rest hlen _ _ := roundTrips_header hlen rest
  header_ne_nil _ := List.cons_ne_nil _ _
  u8 _ _ _ _ := rfl
  u64 _ hn := roundTrips_num (w := 8) hn
  status := roundTrips_status
  bloom := roundTrips_bits (w := 256)
  logs ls _ := roundTrips_list roundTrips_log ls
  fromU8 t := by cases t <;> rfl
  network_length _ _ := Nat.le_succ _
  network_legacy _ _ _ _ _ _ h := h
  network_typed _ _ _ _ _ _ _ _ h := h

/-- A deposit that was filtered comes back from both forms. -/
theorem receipt_survives_wire_iff_deposit :
    SurvivesWire fixedPrimitives ⟨.deposit ⟨false⟩, 0⟩ 0 [7] ↔
      LegacyOrDeposit (.deposit ⟨false⟩) :=
  receipt_survives_wire_iff fixedPrimitives_lawful ⟨.deposit ⟨false⟩, 0⟩ 0 [7]
    { gas := by decide
      withBloom := by decide +kernel
      withoutBloom := by decide +kernel }

/-- A receipt of an unsigned transaction comes back as a legacy one, and one of an EIP-1559
    transaction not at all, although the form without a bloom gives both back. -/
theorem typed_receipts_lost_with_bloom :
    rlpDecodeWithBloom fixedPrimitives
        (rlpEncodeWithBloom fixedPrimitives ⟨.unsigned ⟨.eip658 true, 21000, []⟩, 0⟩ 0) =
      .ok ((⟨.legacy ⟨.eip658 true, 21000, []⟩, 0⟩, 0), []) ∧
    rlpDecodeWithBloom fixedPrimitives
        (rlpEncodeWithBloom fixedPrimitives ⟨.eip1559 ⟨.eip658 true, 21000, []⟩, 0⟩ 0) =
      .error (.custom "unexpected arb receipt tx type") ∧
    networkDecode fixedPrimitives
        (networkEncode fixedPrimitives ⟨.unsigned ⟨.eip658 true, 21000, []⟩, 0⟩) =
      .ok (⟨.unsigned ⟨.eip658 true, 21000, []⟩, 0⟩, []) ∧
    ¬ SurvivesWire fixedPrimitives ⟨.unsigned ⟨.eip658 true, 21000, []⟩, 0⟩ 0 [] := by
  refine ⟨by decide +kernel, by decide +kernel, by decide +kernel, ?_⟩
  rintro ⟨⟨r', hdecode, hkind⟩, -⟩
  rcases legacyOrDeposit_of_rlpDecodeWithBloom hdecode with ⟨a, ha⟩ | ⟨d, hd⟩
  · rw [ha] at hkind; cases hkind
  · rw [hd] at hkind; cases hkind

end Arbreth.Receipt
