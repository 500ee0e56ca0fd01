/-
  Batches: what they parse to, and the request ids of their parts.

  A batch holds length-prefixed messages one after the other. Reading back what
  `bytestring_to_writer` wrote gives the messages, so that a batch parses to the concatenation of
  what its messages parse to (`parseL2Message_batch`), level by level down to the sixteenth.

  The request id of a part is the hash of the id of what it is a part of and its index, so the
  ids of a message are keys derived along paths of indices (`idAt`). A parsed transaction
  carries the id of the path it stands at and no two stand at the same (`Located`); that the ids
  differ is then `keyAt_inj`, given that the hash separates the strings it is applied to here and
  does not lead back to the message's own id.
-/
import Arbreth.Lib.Derivation
import Arbreth.Lib.Keccak
import Arbreth.Lib.Outcome
import Arbreth.Parse.ParseL2
import Mathlib.Data.Set.Function

namespace Arbreth.Parse

open Arbreth.Lib Arbreth.Tx

/-! ## Reading a batch back -/

/-- `bytestring_to_writer`. -/
def bytestringToWriter (data : Bytes) : Bytes := beBytes 8 data.length ++ data

theorem readExact_ok {n : Nat} {bs got rest : Bytes} (h : readExact n bs = .ok (got, rest)) :
    n ≤ bs.length ∧ rest = bs.drop n := by
  unfold readExact at h
  split at h
  case isTrue => cases h
  case isFalse hlen =>
    cases h
    exact ⟨by omega, rfl⟩

theorem readExact_append {n : Nat} {got : Bytes} (h : got.length = n) (rest : Bytes) :
    readExact n (got ++ rest) = .ok (got, rest) := by
  rw [readExact, if_neg (by rw [List.length_append]; omega), List.take_left' h, List.drop_left' h]

/-- What `bytestring_from_reader` does, read by read. -/
theorem bytestringFromReader_run (max : Nat) (bs : Bytes) :
    (bytestringFromReader max).run bs =
      (readExact 8 bs >>= fun r =>
        if max < beNat r.1 then
          .error (invalidData ("byte-string length " ++ toString (beNat r.1) ++ " exceeds max " ++
            toString max))
        else readExact (beNat r.1) r.2) := by
  unfold bytestringFromReader uint64FromReader
  rw [bind_assoc, StateT.run_bind, StateT.run]
  cases readExact 8 bs with
  | error e => rfl
  | ok r =>
    rw [ok_bind, ok_bind, pure_bind]
    split <;> rfl

theorem bytestringFromReader_written {data : Bytes} (hlen : data.length ≤ maxL2MessageSize)
    (rest : Bytes) :
    (bytestringFromReader maxL2MessageSize).run (bytestringToWriter data ++ rest) =
      .ok (data, rest) := by
  have hvalue : beNat (beBytes 8 data.length) = data.length := by
    rw [beNat_beBytes]
    unfold maxL2MessageSize at hlen
    exact Nat.mod_eq_of_lt (by omega)
  rw [bytestringFromReader_run, bytestringToWriter, List.append_assoc,
    readExact_append (beBytes_length 8 _), ok_bind]
  rw [hvalue, if_neg (Nat.not_lt.mpr hlen), readExact_append rfl]

variable {data part : Bytes} (fuel : Nat) {path : List Nat} {bs segment rest : Bytes} {i : Nat}

theorem bytestringFromReader_length {max : Nat}
    (h : (bytestringFromReader max).run bs = .ok (segment, rest)) :
    segment.length + rest.length + 8 = bs.length := by
  rw [bytestringFromReader_run] at h
  obtain ⟨⟨len, bs'⟩, hread, h⟩ := bind_eq_ok.mp h
  obtain ⟨hle, rfl⟩ := readExact_ok hread
  split at h
  · cases h
  · unfold readExact at h
    split at h
    · cases h
    · cases h
      rw [← List.length_append, List.take_append_drop, List.length_drop]
      omega

theorem segmentsLoop_succ
    (hread : (bytestringFromReader maxL2MessageSize).run bs = .ok (segment, rest))
    (hlen : segment.length ≤ maxL2MessageSize) :
    segmentsLoop (fuel + 1) bs = segment :: segmentsLoop fuel rest := by
  rw [segmentsLoop, hread]
  exact if_neg (Nat.not_lt.mpr hlen)

theorem segmentsLoop_unreadable {bs : Bytes} {e : IoError}
    (hread : (bytestringFromReader maxL2MessageSize).run bs = .error e) :
    segmentsLoop fuel bs = [] := by
  cases fuel with
  | zero => rfl
  | succ fuel => rw [segmentsLoop, hread]

/-- The messages written one after the other are read back, up to what cannot be read. -/
theorem segments_written {ms : List Bytes} (hms : ∀ m ∈ ms, m.length ≤ maxL2MessageSize)
    {tail : Bytes} {e : IoError}
    (htail : (bytestringFromReader maxL2MessageSize).run tail = .error e) :
    segments (ms.flatMap bytestringToWriter ++ tail) = ms := by
  have hloop : ∀ fuel, (ms.flatMap bytestringToWriter ++ tail).length ≤ fuel →
      segmentsLoop fuel (ms.flatMap bytestringToWriter ++ tail) = ms := by
    induction ms with
    | nil =>
      intro fuel _
      exact segmentsLoop_unreadable fuel htail
    | cons m ms ih =>
      intro fuel hfuel
      have hm := hms m List.mem_cons_self
      rw [List.flatMap_cons, List.append_assoc] at hfuel ⊢
      have hread := bytestringFromReader_written hm (ms.flatMap bytestringToWriter ++ tail)
      have hshrink := bytestringFromReader_length hread
      cases fuel with
      | zero => omega
      | succ fuel =>
        rw [segmentsLoop_succ fuel hread hm,
          ih (fun m' hm' => hms m' (List.mem_cons_of_mem m hm')) fuel (by omega)]
  exact hloop _ (Nat.le_refl _)

theorem length_segmentsLoop (bs : Bytes) : (segmentsLoop fuel bs).length ≤ fuel := by
  induction fuel generalizing bs with
  | zero => exact Nat.zero_le _
  | succ fuel ih =>
    rw [segmentsLoop]
    cases (bytestringFromReader maxL2MessageSize).run bs with
    | error e => exact Nat.zero_le _
    | ok r =>
      dsimp only
      split
      · exact Nat.zero_le _
      · exact Nat.succ_le_succ (ih r.2)

theorem length_le_of_mem_segmentsLoop {bs segment : Bytes} (h : segment ∈ segmentsLoop fuel bs) :
    segment.length ≤ bs.length := by
  induction fuel generalizing bs with
  | zero => exact absurd h List.not_mem_nil
  | succ fuel ih =>
    rw [segmentsLoop] at h
    cases hread : (bytestringFromReader maxL2MessageSize).run bs with
    | error e =>
      rw [hread] at h
      exact absurd h List.not_mem_nil
    | ok r =>
      have hlen := bytestringFromReader_length hread
      rw [hread] at h
      dsimp only at h
      split at h
      · exact absurd h List.not_mem_nil
      · rcases List.mem_cons.mp h with rfl | hmem
        · omega
        · have := ih hmem
          omega

/-! ## The concatenation -/

section Concatenation

variable (c : Codecs) (keccak256 : Bytes → B256)

theorem batchLoop_eq_mapM (sub : Option B256 → Bytes → Except IoError (List ParsedTransaction))
    (requestId : Option B256) (index : Nat) (segs : List Bytes) :
    batchLoop keccak256 sub requestId index segs =
      List.flatten <$> (segs.zipIdx index).mapM fun part =>
        sub (requestId.map (subRequestId keccak256 · part.2)) part.1 := by
  induction segs generalizing index with
  | nil => rfl
  | cons segment segs ih =>
    rw [batchLoop, ih, List.zipIdx_cons, List.mapM_cons]
    cases sub (requestId.map (subRequestId keccak256 · index)) segment with
    | error e => rfl
    | ok txs =>
      rw [ok_bind, ok_bind]
      cases (segs.zipIdx (index + 1)).mapM fun part =>
          sub (requestId.map (subRequestId keccak256 · part.2)) part.1 with
      | error e => rfl
      | ok parts => rfl

theorem parseL2Message_batch {depth : Nat} (hdepth : depth < maxL2MessageBatchDepth)
    (poster : Address) (requestId : Option B256) (payload : Bytes) :
    parseL2Message c keccak256 (3 :: payload) poster requestId depth =
      List.flatten <$> (segments payload).zipIdx.mapM fun part =>
        parseL2Message c keccak256 part.1 poster
          (requestId.map (subRequestId keccak256 · part.2)) (depth + 1) := by
  have hlevels : maxL2MessageBatchDepth - depth = maxL2MessageBatchDepth - (depth + 1) + 1 := by
    omega
  rw [parseL2Message, hlevels, parseLevels]
  exact batchLoop_eq_mapM keccak256 _ requestId 0 (segments payload)

theorem parseL2Message_too_deep {depth : Nat} (hdepth : maxL2MessageBatchDepth ≤ depth)
    (poster : Address) (requestId : Option B256) (payload : Bytes) :
    parseL2Message c keccak256 (3 :: payload) poster requestId depth =
      .error (invalidData "L2 message batches have a max depth of 16") := by
  rw [parseL2Message, Nat.sub_eq_zero_of_le hdepth]
  rfl

end Concatenation

/-! ## The ids of the parts -/

/-- The request id of a contract transaction or a deposit. -/
def ParsedTransaction.requestId? : ParsedTransaction → Option B256
  | .contractTx _ _ _ _ _ _ requestId => some requestId
  | .ethDeposit _ _ _ requestId => some requestId
  | _ => none

def requestIds (txs : List ParsedTransaction) : List B256 :=
  txs.filterMap ParsedTransaction.requestId?

/-- The part of a message at a path of indices. -/
def partAt : Bytes → List Nat → Option Bytes
  | data, [] => some data
  | kind :: payload, i :: path =>
    if kind = 3 then (segments payload)[i]?.bind (partAt · path) else none
  | [], _ :: _ => none

theorem partAt_cons {payload : Bytes} :
    partAt (3 :: payload) (i :: path) = (segments payload)[i]?.bind (partAt · path) := rfl

/-- The part at a path with one more index is a segment of the part at the path. -/
theorem partAt_concat (h : partAt data (path ++ [i]) = some part) :
    ∃ payload, partAt data path = some (3 :: payload) ∧ (segments payload)[i]? = some part := by
  induction path generalizing data with
  | nil =>
    match data, h with
    | kind :: payload, h =>
      rw [List.nil_append, partAt] at h
      by_cases hkind : kind = 3
      · subst hkind
        rw [if_pos rfl] at h
        obtain ⟨segment, hsegment, hpart⟩ := Option.bind_eq_some_iff.mp h
        cases hpart
        exact ⟨payload, rfl, hsegment⟩
      · rw [if_neg hkind] at h
        cases h
  | cons j path ih =>
    match data, h with
    | kind :: payload, h =>
      rw [List.cons_append, partAt] at h
      by_cases hkind : kind = 3
      · subst hkind
        rw [if_pos rfl] at h
        obtain ⟨segment, hsegment, hpart⟩ := Option.bind_eq_some_iff.mp h
        obtain ⟨inner, hinner, hlast⟩ := ih hpart
        refine ⟨inner, ?_, hlast⟩
        rw [partAt_cons, hsegment]
        exact hinner
      · rw [if_neg hkind] at h
        cases h

theorem length_partAt_le (h : partAt data path = some part) : part.length ≤ data.length := by
  induction path using List.reverseRecOn generalizing part with
  | nil =>
    cases h
    exact Nat.le_refl _
  | append_singleton path i ih =>
    obtain ⟨payload, hpayload, hsegment⟩ := partAt_concat h
    have hle := ih hpayload
    have hpart := length_le_of_mem_segmentsLoop _ (List.mem_of_getElem? hsegment)
    rw [List.length_cons] at hle
    omega

theorem index_lt_of_partAt (h : partAt data (path ++ [i]) = some part) : i < data.length := by
  obtain ⟨payload, hpayload, hsegment⟩ := partAt_concat h
  have hlt := (List.getElem?_eq_some_iff.mp hsegment).1
  have hcount := length_segmentsLoop payload.length payload
  have hle := length_partAt_le hpayload
  rw [List.length_cons] at hle
  change i < (segmentsLoop payload.length payload).length at hlt
  omega

section Located

variable (keccak256 : Bytes → B256)

/-- The request id at a path of indices. -/
def idAt (requestId : B256) (path : List Nat) : B256 := keyAt (subRequestId keccak256) requestId path

/-- The transactions with a request id stand at different parts of the message, and the id is
    that of the part. -/
def Located (requestId : Option B256) (data : Bytes) (txs : List ParsedTransaction) : Prop :=
  ∃ paths : List (List Nat), paths.Nodup ∧ (∀ path ∈ paths, (partAt data path).isSome) ∧
    (requestIds txs).map some = paths.map fun path => requestId.map (idAt keccak256 · path)

variable {keccak256}

variable {poster : Address} {requestId : Option B256} {data : Bytes} {txs : List ParsedTransaction}
  {tx : ParsedTransaction}

theorem Located.of_nil (h : requestIds txs = []) : Located keccak256 requestId data txs :=
  ⟨[], List.nodup_nil, fun _ hp => absurd hp List.not_mem_nil, by rw [h]; rfl⟩

theorem Located.of_self (h : (requestIds txs).map some = [requestId]) :
    Located keccak256 requestId data txs := by
  refine ⟨[[]], List.nodup_singleton _, ?_, ?_⟩
  · intro path hpath
    rw [List.mem_singleton.mp hpath]
    cases data <;> rfl
  · rw [h]
    cases requestId <;> rfl

/-- A single transaction has no id or the one it was parsed with. -/
theorem requestIds_parseUnsignedTx {kind : UInt8}
    (h : parseUnsignedTx data poster requestId kind = .ok tx) :
    tx.requestId? = none ∨ tx.requestId? = requestId ∧ requestId.isSome := by
  obtain ⟨⟨gas, fee, nonce, toAddr, value, calldata⟩, -, h⟩ := bind_eq_ok.mp h
  dsimp only at h
  split at h
  · cases h
    exact .inl rfl
  split at h
  · cases requestId with
    | none => cases h
    | some id =>
      cases h
      exact .inr ⟨rfl, rfl⟩
  · cases h

theorem Located.of_unsignedTx {data whole : Bytes} {kind : UInt8}
    (h : parseUnsignedTx data poster requestId kind = .ok tx) :
    Located keccak256 requestId whole [tx] := by
  rcases requestIds_parseUnsignedTx h with hnone | ⟨hid, hsome⟩
  · refine .of_nil ?_
    rw [requestIds, List.filterMap_cons_none hnone, List.filterMap_nil]
  · obtain ⟨id, rfl⟩ := Option.isSome_iff_exists.mp hsome
    refine .of_self ?_
    rw [requestIds, List.filterMap_cons_some hid, List.filterMap_nil]
    rfl

/-- The loop: the parts of the segment at an index stand below that index. -/
theorem located_batchLoop {sub : Option B256 → Bytes → Except IoError (List ParsedTransaction)}
    (hsub : ∀ id segment txs, sub id segment = .ok txs → Located keccak256 id segment txs)
    (segs : List Bytes) (index : Nat) (h : batchLoop keccak256 sub requestId index segs = .ok txs) :
    ∃ paths : List (List Nat), paths.Nodup ∧
      (∀ path ∈ paths, ∃ j inner segment, path = (index + j) :: inner ∧
        segs[j]? = some segment ∧ (partAt segment inner).isSome) ∧
      (requestIds txs).map some = paths.map fun path => requestId.map (idAt keccak256 · path) := by
  induction segs generalizing index txs with
  | nil =>
    cases h
    exact ⟨[], List.nodup_nil, fun _ hp => absurd hp List.not_mem_nil, rfl⟩
  | cons segment segs ih =>
    rw [batchLoop] at h
    obtain ⟨first, hfirst, h⟩ := bind_eq_ok.mp h
    obtain ⟨others, hothers, h⟩ := bind_eq_ok.mp h
    cases h
    obtain ⟨inner, hnodup, hinner, hids⟩ := hsub _ _ _ hfirst
    obtain ⟨paths, hnodup', hpaths, hids'⟩ := ih (index + 1) hothers
    refine ⟨inner.map (index :: ·) ++ paths, ?_, ?_, ?_⟩
    · refine List.nodup_append.mpr
        ⟨hnodup.map (fun _ _ heq => (List.cons.inj heq).2), hnodup', ?_⟩
      rintro path hpath other hother rfl
      obtain ⟨_, -, rfl⟩ := List.mem_map.mp hpath
      obtain ⟨j, _, _, heq, -⟩ := hpaths _ hother
      have := (List.cons.inj heq).1
      omega
    · intro path hpath
      rcases List.mem_append.mp hpath with hpath | hpath
      · obtain ⟨below, hbelow, rfl⟩ := List.mem_map.mp hpath
        exact ⟨0, below, segment, rfl, rfl, hinner below hbelow⟩
      · obtain ⟨j, below, seg, rfl, hseg, hsome⟩ := hpaths path hpath
        refine ⟨j + 1, below, seg, ?_, hseg, hsome⟩
        rw [Nat.add_assoc, Nat.add_comm 1 j]
    · rw [requestIds, List.filterMap_append, List.map_append, List.map_append]
      refine congrArg₂ (· ++ ·) ?_ hids'
      rw [List.map_map]
      refine hids.trans (List.map_congr_left fun path _ => ?_)
      cases requestId <;> rfl

variable {c : Codecs}

theorem located_dispatchL2 {batch : Option B256 → Bytes → Except IoError (List ParsedTransaction)}
    (hbatch : ∀ payload, data = 3 :: payload → batch requestId payload = .ok txs →
      Located keccak256 requestId data txs)
    (h : dispatchL2 c batch poster requestId data = .ok txs) :
    Located keccak256 requestId data txs := by
  match data, hbatch, h with
  | kind :: payload, hbatch, h =>
    rw [dispatchL2] at h
    split at h
    · cases h
    split at h
    · unfold parseSigned at h
      split at h
      · split at h
        · cases h
        · cases h
          exact .of_nil rfl
      · cases h
    split at h
    · obtain ⟨tx, htx, h⟩ := bind_eq_ok.mp h
      cases h
      exact .of_unsignedTx htx
    by_cases h3 : kind = 3
    · subst h3
      rw [if_pos rfl] at h
      exact hbatch payload rfl h
    rw [if_neg h3] at h
    split at h
    · cases h
      exact .of_nil rfl
    split at h <;> cases h

/-- Every transaction of a message, at any nesting, stands at its own part. -/
theorem located_parseLevels (levels : Nat)
    (h : parseLevels c keccak256 poster levels requestId data = .ok txs) :
    Located keccak256 requestId data txs := by
  induction levels generalizing requestId data txs with
  | zero => exact located_dispatchL2 (fun _ _ hbatch => by cases hbatch) h
  | succ levels ih =>
    refine located_dispatchL2 (fun payload hdata hbatch => ?_) h
    subst hdata
    obtain ⟨paths, hnodup, hpaths, hids⟩ :=
      located_batchLoop (fun _ _ _ hsub => ih hsub) (segments payload) 0 hbatch
    refine ⟨paths, hnodup, fun path hpath => ?_, hids⟩
    obtain ⟨j, inner, segment, rfl, hsegment, hsome⟩ := hpaths path hpath
    rw [Nat.zero_add, partAt_cons, hsegment]
    exact hsome

end Located

/-! ## The ids differ -/

section Distinct

variable (keccak256 : Bytes → B256)

/-- The strings that are hashed for the ids of a message of the given kind. -/
def hashedFor (kind : UInt8) (l2Msg : Bytes) (requestId : B256) : Set Bytes :=
  fun input =>
    (kind = 7 ∧ (input = pairBytes requestId 0 ∨ input = pairBytes requestId 1)) ∨
    (kind = 3 ∧ ∃ path i, (partAt l2Msg (path ++ [i])).isSome ∧
      input = pairBytes (idAt keccak256 requestId path) (BitVec.ofNat 256 i))

/-- The hash separates the strings hashed for a message and does not lead back to its id. -/
structure Separates (kind : UInt8) (l2Msg : Bytes) (requestId : B256) : Prop where
  injective : Set.InjOn keccak256 (hashedFor keccak256 kind l2Msg requestId)
  noCycle : ∀ input ∈ hashedFor keccak256 kind l2Msg requestId, keccak256 input ≠ requestId

variable {keccak256} {c : Codecs}

theorem ofNat_inj_of_lt {i j : Nat} (hi : i < 2 ^ 64) (hj : j < 2 ^ 64)
    (h : (BitVec.ofNat 256 i : B256) = BitVec.ofNat 256 j) : i = j := by
  have := congrArg BitVec.toNat h
  rw [BitVec.toNat_ofNat, BitVec.toNat_ofNat, Nat.mod_eq_of_lt (by omega),
    Nat.mod_eq_of_lt (by omega)] at this
  exact this

variable {l2Msg : Bytes} {poster : Address} {requestId : Option B256}
  {txs : List ParsedTransaction}

theorem Separates.idAt_inj {requestId : B256} (hsep : Separates keccak256 3 l2Msg requestId)
    (hsize : l2Msg.length ≤ maxL2MessageSize) {p q : List Nat} (hp : (partAt l2Msg p).isSome)
    (hq : (partAt l2Msg q).isSome) (heq : idAt keccak256 requestId p = idAt keccak256 requestId q) :
    p = q := by
  have hindex : ∀ path i, (partAt l2Msg (path ++ [i])).isSome → i < 2 ^ 64 := by
    intro path i hsome
    obtain ⟨part, hpart⟩ := Option.isSome_iff_exists.mp hsome
    have := index_lt_of_partAt hpart
    unfold maxL2MessageSize at hsize
    omega
  have hderive : ∀ path i, (partAt l2Msg (path ++ [i])).isSome →
      subRequestId keccak256 (idAt keccak256 requestId path) i =
        keccak256 (pairBytes (idAt keccak256 requestId path) (BitVec.ofNat 256 i)) := by
    intro path i hsome
    rw [subRequestId, wrap64_of_lt (hindex path i hsome)]
  refine keyAt_inj (fun path => (partAt l2Msg path).isSome) ?_ ?_ ?_ hp hq heq
  · intro path i hsome
    obtain ⟨part, hpart⟩ := Option.isSome_iff_exists.mp hsome
    obtain ⟨payload, hpayload, -⟩ := partAt_concat hpart
    exact Option.isSome_iff_exists.mpr ⟨_, hpayload⟩
  · intro p i q j hpi hqj heq
    have hhash := (hderive p i hpi).symm.trans (heq.trans (hderive q j hqj))
    obtain ⟨hids, hij⟩ := pairBytes_inj (hsep.injective (.inr ⟨rfl, p, i, hpi, rfl⟩)
      (.inr ⟨rfl, q, j, hqj, rfl⟩) hhash)
    exact ⟨hids, ofNat_inj_of_lt (hindex p i hpi) (hindex q j hqj) hij⟩
  · intro p i hpi hroot
    exact hsep.noCycle _ (.inr ⟨rfl, p, i, hpi, rfl⟩) ((hderive p i hpi).symm.trans hroot)

theorem nodup_requestIds_parseL2Message (hsize : l2Msg.length ≤ maxL2MessageSize)
    (hsep : ∀ id, requestId = some id → Separates keccak256 3 l2Msg id)
    (h : parseL2Message c keccak256 l2Msg poster requestId 0 = .ok txs) :
    (requestIds txs).Nodup := by
  obtain ⟨paths, hnodup, hparts, hids⟩ := located_parseLevels _ h
  cases requestId with
  | none =>
    -- no part has an id, so there is none
    have hnil : requestIds txs = [] := by
      refine List.eq_nil_iff_forall_not_mem.mpr fun id hid => ?_
      have hmem := hids ▸ List.mem_map_of_mem (f := some) hid
      obtain ⟨_, -, heq⟩ := List.mem_map.mp hmem
      cases heq
    rw [hnil]
    exact List.nodup_nil
  | some id =>
    refine List.Nodup.of_map some ?_
    rw [hids]
    refine List.Nodup.map_on (fun p hp q hq heq => ?_) hnodup
    exact (hsep id rfl).idAt_inj hsize (hparts p hp) (hparts q hq) (Option.some.inj heq)

theorem nodup_requestIds_parseL2FundedByL1 {id : B256} (hsep : Separates keccak256 7 l2Msg id)
    (h : parseL2FundedByL1 keccak256 l2Msg poster id = .ok txs) : (requestIds txs).Nodup := by
  have hne : subRequestId keccak256 id 0 ≠ subRequestId keccak256 id 1 := by
    intro heq
    have hinput := hsep.injective (.inl ⟨rfl, .inl rfl⟩) (.inl ⟨rfl, .inr rfl⟩) heq
    exact absurd (pairBytes_inj hinput).2 (by decide)
  match l2Msg, h with
  | kind :: body, h =>
    obtain ⟨tx, htx, h⟩ := bind_eq_ok.mp h
    cases h
    have hdeposit : (ParsedTransaction.ethDeposit 0 poster tx.fundedValue
        (subRequestId keccak256 id 0)).requestId? = some (subRequestId keccak256 id 0) := rfl
    rw [requestIds, List.filterMap_cons_some hdeposit]
    rcases requestIds_parseUnsignedTx htx with hnone | ⟨hid, -⟩
    · rw [List.filterMap_cons_none hnone]
      exact List.nodup_singleton _
    · rw [List.filterMap_cons_some hid, List.filterMap_nil]
      exact List.nodup_cons.mpr ⟨fun hmem => hne (List.mem_singleton.mp hmem),
        List.nodup_singleton _⟩

theorem nodup_requestIds_of_length_le (h : txs.length ≤ 1) : (requestIds txs).Nodup := by
  have hlen : (requestIds txs).length ≤ 1 := (List.length_filterMap_le _ _).trans h
  match requestIds txs, hlen with
  | [], _ => exact List.nodup_nil
  | [id], _ => exact List.nodup_singleton id

theorem nodup_requestIds_parseL2Transactions {kind : UInt8} {l1BaseFee : Option U256}
    (hsep : ∀ id, requestId = some id → Separates keccak256 kind l2Msg id)
    (h : parseL2Transactions c keccak256 kind poster l2Msg requestId l1BaseFee = .ok txs) :
    (requestIds txs).Nodup := by
  unfold parseL2Transactions at h
  by_cases hsize : maxL2MessageSize < l2Msg.length
  · rw [if_pos hsize] at h
    cases h
  rw [if_neg hsize] at h
  by_cases h3 : kind = 3
  · subst h3
    rw [if_pos rfl] at h
    exact nodup_requestIds_parseL2Message (Nat.not_lt.mp hsize) hsep h
  rw [if_neg h3] at h
  split at h
  · cases h
    exact List.nodup_nil
  by_cases h7 : kind = 7
  · subst h7
    rw [if_pos rfl] at h
    obtain ⟨id, hid, h⟩ := bind_eq_ok.mp h
    cases requestId with
    | none => cases hid
    | some id' =>
      cases hid
      exact nodup_requestIds_parseL2FundedByL1 (hsep id rfl) h
  rw [if_neg h7] at h
  -- the other kinds give one transaction at most
  refine nodup_requestIds_of_length_le ?_
  split at h
  · obtain ⟨id, -, h⟩ := bind_eq_ok.mp h
    obtain ⟨f, -, h⟩ := bind_eq_ok.mp h
    cases h
    exact Nat.le_refl 1
  split at h
  · obtain ⟨id, -, h⟩ := bind_eq_ok.mp h
    obtain ⟨f, -, h⟩ := bind_eq_ok.mp h
    cases h
    exact Nat.le_refl 1
  split at h
  · obtain ⟨f, -, h⟩ := bind_eq_ok.mp h
    cases h
    exact Nat.le_refl 1
  split at h
  · cases h
  · cases h
    exact Nat.zero_le 1

end Distinct

/-- A batch parses to the concatenation of what its messages parse to, with the request ids
    derived by their places, and only if all of them parse; the sixteenth level holds no batch;
    and the request ids of the transactions of one message are pairwise different. -/
theorem batch_parses_to_parts (c : Codecs) (keccak256 : Bytes → B256) (poster : Address) :
    (∀ depth < maxL2MessageBatchDepth, ∀ (requestId : Option B256) (ms : List Bytes)
        (tail : Bytes), (∀ m ∈ ms, m.length ≤ maxL2MessageSize) →
        (∃ e, (bytestringFromReader maxL2MessageSize).run tail = .error e) →
      let message := 3 :: (ms.flatMap bytestringToWriter ++ tail)
      let parsePart := fun (part : Bytes × Nat) => parseL2Message c keccak256 part.1 poster
        (requestId.map (subRequestId keccak256 · part.2)) (depth + 1)
      ((∃ txs, parseL2Message c keccak256 message poster requestId depth = .ok txs) ↔
        ∀ part ∈ ms.zipIdx, ∃ txs, parsePart part = .ok txs) ∧
      ∀ parts, List.Forall₂ (fun part txs => parsePart part = .ok txs) ms.zipIdx parts →
        parseL2Message c keccak256 message poster requestId depth = .ok parts.flatten) ∧
    (∀ depth, maxL2MessageBatchDepth ≤ depth → ∀ requestId payload,
      ∃ e, parseL2Message c keccak256 (3 :: payload) poster requestId depth = .error e) ∧
    ∀ (kind : UInt8) (l2Msg : Bytes) (requestId : Option B256) (l1BaseFee : Option U256),
      (∀ id, requestId = some id → Separates keccak256 kind l2Msg id) →
      ∀ txs, parseL2Transactions c keccak256 kind poster l2Msg requestId l1BaseFee = .ok txs →
        (requestIds txs).Nodup := by
  refine ⟨?_, ?_, ?_⟩
  · rintro depth hdepth requestId ms tail hms ⟨e, htail⟩
    dsimp only
    rw [parseL2Message_batch c keccak256 hdepth, segments_written hms htail]
    refine ⟨exists_map_ok.trans exists_mapM_ok, ?_⟩
    intro parts hparts
    rw [mapM_ok_of_forall₂ hparts]
    rfl
  · intro depth hdepth requestId payload
    exact ⟨_, parseL2Message_too_deep c keccak256 hdepth poster requestId payload⟩
  · intro kind l2Msg requestId l1BaseFee hsep txs htxs
    exact nodup_requestIds_parseL2Transactions hsep htxs

/-- A contract transaction whose fields are all zero. -/
def sampleContractTx : Bytes := 1 :: List.replicate 128 0

/-- A batch of two of them, and a byte too few for a third length. -/
def sampleBatch : Bytes :=
  3 :: ([sampleContractTx, sampleContractTx].flatMap bytestringToWriter ++ [0])

theorem length_sampleContractTx : sampleContractTx.length = 129 := by
  rw [sampleContractTx, List.length_cons, List.length_replicate]

theorem sampleContractTx_fits :
    ∀ m ∈ [sampleContractTx, sampleContractTx], m.length ≤ maxL2MessageSize := by
  intro m hm
  have hm' : m = sampleContractTx := by simpa using hm
  rw [hm', length_sampleContractTx]
  decide

theorem zero_unreadable : (bytestringFromReader maxL2MessageSize).run [0] =
    .error ⟨.unexpectedEof, "failed to fill whole buffer"⟩ := rfl

/-- The parts of the sample are its two transactions. -/
theorem partAt_sampleBatch (h : (partAt sampleBatch (path ++ [i])).isSome) : path = [] ∧ i < 2 := by
  obtain ⟨part, hpart⟩ := Option.isSome_iff_exists.mp h
  obtain ⟨payload, hpayload, hsegment⟩ := partAt_concat hpart
  have hsegments := segments_written sampleContractTx_fits zero_unreadable
  cases path with
  | nil =>
    cases hpayload
    rw [hsegments] at hsegment
    exact ⟨rfl, (List.getElem?_eq_some_iff.mp hsegment).1⟩
  | cons j path =>
    rw [sampleBatch, partAt_cons, hsegments] at hpayload
    obtain ⟨segment, hmem, hinner⟩ := Option.bind_eq_some_iff.mp hpayload
    have hseg : segment = sampleContractTx := by simpa using List.mem_of_getElem? hmem
    subst hseg
    cases path with
    | nil => cases hinner
    | cons _ _ => cases hinner

theorem separates_sampleBatch : Separates Keccak.keccak256 3 sampleBatch 7 := by
  have hinput : ∀ input ∈ hashedFor Keccak.keccak256 3 sampleBatch 7,
      input = pairBytes 7 0 ∨ input = pairBytes 7 1 := by
    rintro input (⟨h7, -⟩ | ⟨-, path, i, hsome, rfl⟩)
    · cases h7
    · obtain ⟨rfl, hi⟩ := partAt_sampleBatch hsome
      obtain rfl | rfl : i = 0 ∨ i = 1 := by omega
      · exact .inl rfl
      · exact .inr rfl
  have hne : Keccak.keccak256 (pairBytes 7 0) ≠ Keccak.keccak256 (pairBytes 7 1) := by
    decide +kernel
  constructor
  · intro x hx y hy heq
    rcases hinput x hx with rfl | rfl <;> rcases hinput y hy with rfl | rfl
    · rfl
    · exact absurd heq hne
    · exact absurd heq.symm hne
    · rfl
  · intro x hx
    rcases hinput x hx with rfl | rfl
    · decide +kernel
    · decide +kernel

/-- What the contract transaction parses to with a request id. -/
def sampleParsed (requestId : B256) : ParsedTransaction := .contractTx 1 none 0 0 0 [] requestId

set_option maxRecDepth 4000 in
theorem parse_sampleContractTx (requestId : B256) :
    parseL2Message sampleCodecs Keccak.keccak256 sampleContractTx 1 (some requestId) 1 =
      .ok [sampleParsed requestId] := rfl

/-- The sample is a batch of two contract transactions with different ids. -/
theorem batch_parses_to_parts_sample :
    let ids := [subRequestId Keccak.keccak256 7 0, subRequestId Keccak.keccak256 7 1]
    parseL2Transactions sampleCodecs Keccak.keccak256 3 1 sampleBatch (some 7) none =
      .ok (ids.map sampleParsed) ∧ ids.Nodup := by
  obtain ⟨hconcat, -, hids⟩ := batch_parses_to_parts sampleCodecs Keccak.keccak256 1
  have hparts := (hconcat 0 (by decide) (some 7) [sampleContractTx, sampleContractTx] [0]
    sampleContractTx_fits ⟨_, zero_unreadable⟩).2 _
    (.cons (parse_sampleContractTx _) (.cons (parse_sampleContractTx _) .nil))
  have hsize : ¬ maxL2MessageSize < sampleBatch.length := by decide +kernel
  have hparse : parseL2Transactions sampleCodecs Keccak.keccak256 3 1 sampleBatch (some 7) none =
      .ok [sampleParsed (subRequestId Keccak.keccak256 7 0),
        sampleParsed (subRequestId Keccak.keccak256 7 1)] := by
    rw [parseL2Transactions, if_neg hsize, if_pos rfl]
    exact hparts
  exact ⟨hparse, hids 3 sampleBatch (some 7) none
    (fun id hid => Option.some.inj hid ▸ separates_sampleBatch) _ hparse⟩

end Arbreth.Parse
