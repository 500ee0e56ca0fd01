/-
  Signed messages and what follows the transaction.

  `parse_l2_message` checks a signed payload with `decode_2718` and drops the rest of the
  buffer unseen, and `parsed_tx_to_signed` does the same again. The payload is then the
  encoding of its transaction exactly when no shorter part of it is one already
  (`signed_exact_iff`); other readers of the same bytes use `decode_2718_exact`.
-/
import Arbreth.Lib.Keccak
import Arbreth.Parse.ParseL2

namespace Arbreth.Parse

open Arbreth.Lib Arbreth.Tx

variable {c : Codecs} {keccak256 : Bytes → B256}

/-- A type that users may send in a signed message. -/
def Sendable (tx : ArbTransactionSigned) : Prop := ¬ (0x64 ≤ tx.ty ∨ tx.ty = 3)

/-- No proper initial part of the payload is a complete transaction that users may send. -/
def NoShorterTx (c : Codecs) (payload : Bytes) : Prop :=
  ∀ part rest, payload = part ++ rest → rest ≠ [] →
    ∀ tx, decode2718Exact c part = .ok tx → ¬ Sendable tx

variable {tx : ArbTransactionSigned}

theorem decode2718Exact_ok {buf : Bytes} :
    decode2718Exact c buf = .ok tx ↔ decode2718 c buf = .ok (tx, []) := by
  unfold decode2718Exact
  cases decode2718 c buf with
  | error e => simp
  | ok r =>
    obtain ⟨t, rest⟩ := r
    cases rest with
    | nil => simp
    | cons b bs => simp

/-- A signed message is accepted when its payload starts with a sendable transaction. -/
theorem parseSigned_ok {payload : Bytes} {txs : List ParsedTransaction} :
    parseSigned c payload = .ok txs ↔
      txs = [.signed payload] ∧ ∃ tx rest, decode2718 c payload = .ok (tx, rest) ∧ Sendable tx := by
  unfold parseSigned Sendable
  cases hdec : decode2718 c payload with
  | error e => simp
  | ok r =>
    obtain ⟨tx, rest⟩ := r
    by_cases hty : 0x64 ≤ tx.ty ∨ tx.ty = 3
    · simp only [if_pos hty]
      constructor
      · intro h
        cases h
      · rintro ⟨-, tx', rest', heq, hs⟩
        cases heq
        exact absurd hty hs
    · simp only [if_neg hty]
      constructor
      · intro h
        cases h
        exact ⟨rfl, tx, rest, rfl, hty⟩
      · rintro ⟨rfl, -⟩
        rfl

theorem parseL2Message_signed (payload : Bytes) (poster : Address) (requestId : Option B256)
    (depth : Nat) :
    parseL2Message c keccak256 (4 :: payload) poster requestId depth = parseSigned c payload := by
  unfold parseL2Message
  cases maxL2MessageBatchDepth - depth with
  | zero => rfl
  | succ levels => rfl

/-- A transaction decoded from the payload leaves nothing unread when no shorter part of the
    payload is a transaction: the part it was read from would be one. -/
theorem rest_nil_of_noShorterTx (hc : c.Lawful) {payload rest : Bytes}
    (hno : NoShorterTx c payload) (hdec : decode2718 c payload = .ok (tx, rest)) (hs : Sendable tx) :
    rest = [] := by
  have hsplit := decode2718_canonical hc hdec
  by_contra hne
  refine hno (encode2718 c tx) rest hsplit hne tx ?_ hs
  rw [decode2718Exact_ok, ← decode2718_rest hc (encode2718_ne_nil hc hdec) rest tx, ← hsplit]
  exact hdec

/-- For every payload: an accepted signed message is the encoding of the one transaction later
    decoded from it, with nothing after it, exactly when no shorter part of the payload is a
    complete transaction. -/
theorem signed_exact_iff (c : Codecs) (hc : c.Lawful) (keccak256 : Bytes → B256) (payload : Bytes)
    (poster : Address) (requestId : Option B256) (depth chainId : Nat) :
    (∀ txs, parseL2Message c keccak256 (4 :: payload) poster requestId depth = .ok txs →
      ∃ tx, txs.map (parsedTxToSigned c · chainId) = [some tx] ∧ encode2718 c tx = payload) ↔
      NoShorterTx c payload := by
  rw [parseL2Message_signed]
  constructor
  · intro hexact part rest hpay hne tx hpart hs
    rw [decode2718Exact_ok] at hpart
    have hpart_ne : part ≠ [] := by
      rintro rfl
      rw [decode2718_nil hc] at hpart
      cases hpart
    -- The part decodes the same with the rest behind it, so the message is accepted.
    have hdec : decode2718 c payload = .ok (tx, rest) := by
      rw [hpay, decode2718_rest hc hpart_ne]
      exact hpart
    obtain ⟨tx', hmap, henc⟩ := hexact _ (parseSigned_ok.mpr ⟨rfl, tx, rest, hdec, hs⟩)
    simp only [List.map_cons, List.map_nil, parsedTxToSigned, hdec] at hmap
    cases hmap
    have hsplit := decode2718_canonical hc hdec
    rw [henc] at hsplit
    exact hne (List.append_right_eq_self.mp hsplit.symm)
  · intro hno txs htxs
    obtain ⟨rfl, tx, rest, hdec, hs⟩ := parseSigned_ok.mp htxs
    have hrest := rest_nil_of_noShorterTx hc hno hdec hs
    subst hrest
    refine ⟨tx, ?_, ?_⟩
    · simp only [List.map_cons, List.map_nil, parsedTxToSigned, hdec]
    · rw [decode2718_canonical hc hdec, List.append_nil]

/-! ## A transaction followed by one more byte -/

theorem sampleCodecs_lawful : sampleCodecs.Lawful := singleLegacy_lawful (by decide) _

theorem sample_decode (rest : Bytes) :
    decode2718 sampleCodecs (sampleEncoding ++ rest) =
      .ok (⟨.legacy sampleLegacy.1, sampleLegacy.2⟩, rest) := by
  have hfall : decode2718 sampleCodecs (sampleEncoding ++ rest) =
      fallbackDecode sampleCodecs (sampleEncoding ++ rest) := rfl
  rw [hfall]
  exact decodeWith_ok.mpr ⟨sampleLegacy, (RlpCodec.single_decode ..).mpr ⟨rfl, rfl⟩, rfl⟩

/-- The message is accepted although a zero byte follows the transaction. -/
theorem trailing_byte_accepted :
    ¬ ∀ txs, parseL2Message sampleCodecs Keccak.keccak256 (4 :: (sampleEncoding ++ [0])) 1 none 0 =
        .ok txs →
      ∃ tx, txs.map (parsedTxToSigned sampleCodecs · 42161) = [some tx] ∧
        encode2718 sampleCodecs tx = sampleEncoding ++ [0] := by
  rw [parseL2Message_signed]
  intro hexact
  obtain ⟨tx, hmap, henc⟩ := hexact _
    (parseSigned_ok.mpr ⟨rfl, _, _, sample_decode [0], by unfold Sendable; decide⟩)
  cases hmap
  exact absurd henc (by decide)

/-- Without the byte the payload is the transaction's encoding. -/
theorem signed_exact_iff_sample : sampleCodecs.Lawful ∧
    ((∀ txs, parseL2Message sampleCodecs Keccak.keccak256 (4 :: sampleEncoding) 1 none 0 = .ok txs →
      ∃ tx, txs.map (parsedTxToSigned sampleCodecs · 42161) = [some tx] ∧
        encode2718 sampleCodecs tx = sampleEncoding) ↔ NoShorterTx sampleCodecs sampleEncoding) :=
  ⟨sampleCodecs_lawful, signed_exact_iff sampleCodecs sampleCodecs_lawful Keccak.keccak256
    sampleEncoding 1 none 0 42161⟩

end Arbreth.Parse
