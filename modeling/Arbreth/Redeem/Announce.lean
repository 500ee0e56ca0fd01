/-
  What a redeem announces (arb-precompiles, arbretryabletx.rs: handle_redeem; arb-evm, build.rs:
  the scan in execute_transaction_without_commit and the auto-redeem of execute_submit_retryable).

  A retry is known by the hash of its EIP-2718 form. Three values stand for it: the word `redeem`
  returns to its caller, topic 2 of the log in the receipt, and the hash of what is scheduled. The
  precompile cannot know the last one and hashes ticket and sequence number instead, "a
  placeholder". The scan replaces it in the log, so that every live log announces its retry
  (`announced_scan`); the word was returned long before and stays what it was. Two strings of
  different lengths are hashed, so it is never the retry's hash (`encodeRetry_ne`).

  A submission computes the hash after the retry and announces it rightly.

  Retries of one ticket have different nonces, hence different hashes (`nodup_retryHash`).
-/
import Arbreth.Outbox.Verify
import Arbreth.Receipt.RoundTrip
import Arbreth.Redeem.Sequence

namespace Arbreth.Redeem

open Arbreth.Lib Arbreth.Exec Arbreth.Tx Arbreth.Retryable Arbreth.Producer Arbreth.Storage
open Arbreth.Outbox (CollisionFreeOn)
open Arbreth.Receipt (RoundTrips)

/-! ## Hashes -/

/-- The EIP-2718 form of a retry. -/
def encodeRetry (codec : RlpCodec ArbRetryTx) (r : ArbRetryTx) : Bytes :=
  ArbTxType.retry.asU8 :: codec.encode r

def retryHash (x : Externals) (codec : RlpCodec ArbRetryTx) (r : ArbRetryTx) : B256 :=
  x.keccak256 (encodeRetry codec r)

/-- What is assumed of the RLP form of a retry: it can be read back, and it holds a ticket id and
    two addresses, with a byte or more before each and for each of the nine other fields. -/
structure RetryCodec (codec : RlpCodec ArbRetryTx) : Prop where
  roundTrips : ∀ r, r.nonce < 2 ^ 64 → r.gas < 2 ^ 64 → RoundTrips codec r
  length : ∀ r, 84 ≤ (codec.encode r).length

/-! ## Transactions -/

/-- A transaction that may schedule retries: one whose run succeeded, or a submission. -/
inductive SuccessfulTx (x : Externals) where
  | run (block : BlockCtx) (retryableId : B256) (start : RetryableState) (calls : RetryCalls)
      (hqueued : WindowsQueued start)
  | submission (s : Executor) (t : ExecutableTx x) (i : ArbSubmitRetryableTx)
      (htx : t.tx.transaction = .submitRetryable i) (hhooks : s.hooks.isSome)

/-- The log of an auto-redeem. -/
def autoRedeemLog (hash : ArbRetryTx → B256) (r : ArbRetryTx) : Log :=
  redeemScheduledLog r.ticketId (hash r) 0 r.gas r.refundTo r.maxRefund r.submissionFeeRefund

namespace SuccessfulTx

variable {x : Externals}

/-- The redeems of its calls that are not undone. -/
def redeems : SuccessfulTx x → List Redeemed
  | .run block retryableId start calls _ =>
    (runEnd ⟨x.keccak256, block, retryableId⟩ start calls).redeems
  | .submission .. => []

/-- The retries it schedules. -/
def retries (chainId : Nat) : SuccessfulTx x → List ArbRetryTx
  | .run block retryableId start calls _ =>
    runRetries chainId ⟨x.keccak256, block, retryableId⟩ start calls
  | .submission s t _ _ _ => scheduledTxs chainId x s t

/-- The `RedeemScheduled` logs of its receipt. -/
def receiptLogs (chainId : Nat) (hash : ArbRetryTx → B256) : SuccessfulTx x → List Log
  | .run block retryableId start calls _ =>
    (runScan chainId ⟨x.keccak256, block, retryableId⟩ start calls).2.map (patchLog hash)
  | .submission s t _ _ _ => (scheduledTxs chainId x s t).map (autoRedeemLog hash)

/-- Is a ticket live when the executor opens it? A submission opens its own at time zero. -/
def isLive : SuccessfulTx x → B256 → Bool
  | .run block _ start _ _, id =>
    (openRetryable block.arbosVersion start.world id block.blockTimestamp).isSome
  | .submission s t _ _ _, id => (openRetryable s.ctx.arbosVersion
      (executeTransactionWithoutCommit x s t).1.world id 0).isSome

/-- The logs whose ticket is live. -/
def liveLogs (chainId : Nat) (hash : ArbRetryTx → B256) (tx : SuccessfulTx x) : List Log :=
  (tx.receiptLogs chainId hash).filter fun log => (logTicket log).any tx.isLive

/-- The words that redeems returned, each with the retry its log was scanned to. -/
def returned (chainId : Nat) : SuccessfulTx x → List (B256 × ArbRetryTx)
  | .run block retryableId start calls _ =>
    ((runEnd ⟨x.keccak256, block, retryableId⟩ start calls).redeems.zip
      (runScan chainId ⟨x.keccak256, block, retryableId⟩ start calls).2).filterMap fun p =>
        p.2.2.map fun r => (p.1.output, r)
  | .submission .. => []

/-- The strings whose hashes are announced or scheduled. -/
def hashed (chainId : Nat) (codec : RlpCodec ArbRetryTx) (tx : SuccessfulTx x) : List Bytes :=
  (tx.redeems.filterMap fun r => (parseRedeemScheduled r.log).map fun e =>
    wordBytes e.ticketId ++ beBytes 32 e.nonce) ++ (tx.retries chainId).map (encodeRetry codec)

end SuccessfulTx

/-- A log that tells ticket, hash, sequence number and donated gas of a retry. -/
structure Announced (hash : ArbRetryTx → B256) (log : Log) (r : ArbRetryTx) : Prop where
  ticket : log.topics[1]? = some r.ticketId
  topic : log.topics[2]? = some (hash r)
  sequence : log.topics[3]? = some (BitVec.ofNat 256 r.nonce)
  donated : log.data.take 32 = beBytes 32 r.gas

/-- The receipt's live logs tell the scheduled retries, one by one and in order, and so do the
    words the callers were given. -/
structure SuccessfulTx.Announces {x : Externals} (chainId : Nat) (hash : ArbRetryTx → B256)
    (tx : SuccessfulTx x) : Prop where
  logs : List.Forall₂ (Announced hash) (tx.liveLogs chainId hash) (tx.retries chainId)
  returned : ∀ p ∈ tx.returned chainId, p.1 = hash p.2

/-! ## Logs -/

theorem announced_redeemScheduledLog (hash : ArbRetryTx → B256) (r : ArbRetryTx) (donor : Address)
    (maxRefund submissionFeeRefund : U256) :
    Announced hash (redeemScheduledLog r.ticketId (hash r) r.nonce r.gas donor maxRefund
      submissionFeeRefund) r :=
  ⟨rfl, rfl, rfl, by simp [redeemScheduledLog, List.append_assoc]⟩

theorem logTicket_redeemScheduledLog (id hash : B256) (nonce gas : Nat) (donor : Address)
    (maxRefund submissionFeeRefund : U256) :
    logTicket (redeemScheduledLog id hash nonce gas donor maxRefund submissionFeeRefund) = some id := by
  have hlen : 128 ≤ (redeemScheduledLog id hash nonce gas donor maxRefund
      submissionFeeRefund).data.length := by
    simp [redeemScheduledLog]
  unfold logTicket parseRedeemScheduled
  simp only [redeemScheduledLog] at hlen ⊢
  rw [if_pos ⟨trivial, trivial, hlen⟩, Option.map_some]

/-- The scan leaves a log for each retry that tells it, and no other one with a live ticket. -/
theorem announced_scan (hash : ArbRetryTx → B256) (chainId : Nat) (ctx : BlockCtx) (w : World)
    {c : CancelCtx} {redeems : List Redeemed} (h : ∀ r ∈ redeems, RedeemedBy c r) :
    List.Forall₂ (Announced hash)
      (((scanLogs chainId ctx w (redeems.map Redeemed.log)).2.map (patchLog hash)).filter fun log =>
        (logTicket log).any fun id => (openRetryable ctx.arbosVersion w id ctx.blockTimestamp).isSome)
      (scannedRetries chainId ctx w (redeems.map Redeemed.log)) := by
  rw [scannedRetries_eq, scanLogs_snd]
  induction redeems with
  | nil => exact .nil
  | cons r redeems ih =>
    have hrest := ih fun r' hr' => h r' (List.mem_cons_of_mem r hr')
    obtain ⟨i, id, w₀, t, nonce, donated, w₁, has⟩ := h r List.mem_cons_self
    have hscan : (scanLog chainId ctx w r.log).2 = _ := scanLog_snd_eq w r.log
    rw [parse_redeemed has, Option.bind_some] at hscan
    cases hopen : openRetryable ctx.arbosVersion w id ctx.blockTimestamp with
    | none =>
      have hlog : logTicket r.log = some id := by rw [has.log, logTicket_redeemScheduledLog]
      rw [hopen, Option.map_none] at hscan
      simp only [List.map_cons, List.filterMap_cons, hscan, patchLog, List.filter_cons, hlog,
        Option.any_some, hopen, Option.isSome_none, Bool.false_eq_true, if_false]
      exact hrest
    | some tk =>
      rw [hopen, Option.map_some] at hscan
      obtain ⟨tx, htx⟩ : ∃ tx, tx = makeTx tk (BitVec.ofNat 256 chainId) nonce ctx.basefee donated id
        i.caller (BitVec.allOnes 256) 0 := ⟨_, rfl⟩
      have hpatch : patchLog hash (r.log, some tx) =
          redeemScheduledLog id (hash tx) nonce donated i.caller (BitVec.allOnes 256) 0 := by
        rw [patchLog, has.log]
        rfl
      have hlog : logTicket (patchLog hash (r.log, some tx)) = some id := by
        rw [hpatch, logTicket_redeemScheduledLog]
      have hannounced : Announced hash (patchLog hash (r.log, some tx)) tx := by
        rw [hpatch]
        have htold := announced_redeemScheduledLog hash tx i.caller (BitVec.allOnes 256) 0
        rw [htx] at htold ⊢
        exact htold
      rw [← htx] at hscan
      simp only [List.map_cons, List.filterMap_cons, hscan, List.filter_cons, hlog,
        Option.any_some, hopen, Option.isSome_some, if_true]
      exact .cons hannounced hrest

theorem openRetryable_zero {v : Nat} {w : World} {id : B256} (h : (w.tickets id).timeout ≠ 0) :
    openRetryable v w id 0 = some (w.tickets id) := by
  unfold openRetryable
  rw [if_neg h, if_neg (Nat.not_lt_zero _)]

variable {x : Externals} {chainId : Nat} {codec : RlpCodec ArbRetryTx} {tx : SuccessfulTx x}

/-- Every receipt announces what is scheduled. -/
theorem announced_receipt (hash : ArbRetryTx → B256) (tx : SuccessfulTx x) :
    List.Forall₂ (Announced hash) (tx.liveLogs chainId hash) (tx.retries chainId) := by
  cases tx with
  | run block retryableId start calls hqueued =>
    exact announced_scan hash chainId block start.world
      (redeems_run ⟨x.keccak256, block, retryableId⟩ start calls)
  | submission s t i htx hhooks =>
    unfold SuccessfulTx.liveLogs SuccessfulTx.receiptLogs SuccessfulTx.retries
    rcases scheduled_submission chainId htx hhooks with ⟨hnone, -⟩ |
      ⟨r, hone, hid, hnonce, -, -, hlive⟩
    · dsimp only
      rw [hnone]
      exact .nil
    · dsimp only
      have hannounced : Announced hash (autoRedeemLog hash r) r := by
        rw [autoRedeemLog, ← hnonce]
        exact announced_redeemScheduledLog hash r _ _ _
      have hlog : logTicket (autoRedeemLog hash r) = some (x.trieHash t.tx) := by
        rw [autoRedeemLog, logTicket_redeemScheduledLog, hid]
      rw [hone, List.map_singleton, List.filter_cons, hlog, Option.any_some, SuccessfulTx.isLive,
        openRetryable_zero hlive]
      exact .cons hannounced .nil

/-! ## Returned words -/

/-- A surviving redeem's log is scanned to a retry, and the caller was given the hash of ticket
    and sequence number. -/
theorem returned_of_redeems (chainId : Nat) {block : BlockCtx} {retryableId : B256} {start : RetryableState}
    {calls : RetryCalls} (hqueued : WindowsQueued start) {r : Redeemed}
    (hr : r ∈ (runEnd ⟨x.keccak256, block, retryableId⟩ start calls).redeems) :
    ∃ e tx, parseRedeemScheduled r.log = some e ∧
      r.output = placeholderHash x.keccak256 e.ticketId e.nonce ∧
      tx ∈ runRetries chainId ⟨x.keccak256, block, retryableId⟩ start calls ∧
      (r.output, tx) ∈
        (SuccessfulTx.run (x := x) block retryableId start calls hqueued).returned chainId := by
  have hrun := tracked_runEnd ⟨x.keccak256, block, retryableId⟩ calls hqueued
  obtain ⟨i, id, w, t, nonce, donated, w', has⟩ := redeems_run _ start calls r hr
  have hparse := parse_redeemed has
  have hticket : logTicket r.log = some id := by rw [logTicket, hparse, Option.map_some]
  have hopen := hrun.redeemed id
    (List.mem_filterMap.mpr ⟨r.log, List.mem_map_of_mem hr, hticket⟩)
  have hsome : (scanLog chainId block start.world r.log).2.isSome := (scanLog_isSome hticket).mpr hopen
  obtain ⟨tx, htx⟩ := Option.isSome_iff_exists.mp hsome
  -- The scan's entries stand in the order of the redeems.
  have hscan : (runScan chainId ⟨x.keccak256, block, retryableId⟩ start calls).2 =
      (runEnd ⟨x.keccak256, block, retryableId⟩ start calls).redeems.map fun r =>
        (r.log, (scanLog chainId block start.world r.log).2) := by
    rw [runScan, scanLogs_snd, List.map_map]
    rfl
  refine ⟨_, tx, hparse, has.output, ?_, ?_⟩
  · rw [runRetries, hscan, List.filterMap_map]
    exact List.mem_filterMap.mpr ⟨r, hr, htx⟩
  · unfold SuccessfulTx.returned
    dsimp only
    rw [hscan]
    refine List.mem_filterMap.mpr ⟨(r, (r.log, some tx)), ?_, rfl⟩
    rw [← List.map_prod_left_eq_zip, ← htx]
    exact List.mem_map_of_mem hr

/-- The string of the placeholder is shorter than any retry. -/
theorem encodeRetry_ne (hcodec : RetryCodec codec) (id : B256) (nonce : Nat) (r : ArbRetryTx) :
    wordBytes id ++ beBytes 32 nonce ≠ encodeRetry codec r := by
  intro h
  have hlen := congrArg List.length h
  have hlong := hcodec.length r
  simp only [List.length_append, wordBytes, beBytes_length, encodeRetry, List.length_cons] at hlen
  omega

/-- No redeem returns the hash of the retry it schedules. -/
theorem redeems_eq_nil (hcodec : RetryCodec codec)
    (hhash : CollisionFreeOn x.keccak256 (tx.hashed chainId codec))
    (h : ∀ p ∈ tx.returned chainId, p.1 = retryHash x codec p.2) : tx.redeems = [] := by
  cases tx with
  | submission => rfl
  | run block retryableId start calls hqueued =>
    refine List.eq_nil_iff_forall_not_mem.mpr fun r hr => ?_
    obtain ⟨e, tx, hparse, hout, htx, hmem⟩ := returned_of_redeems chainId hqueued hr
    have hsame : x.keccak256 (wordBytes e.ticketId ++ beBytes 32 e.nonce) =
        x.keccak256 (encodeRetry codec tx) := hout.symm.trans (h _ hmem)
    refine encodeRetry_ne hcodec e.ticketId e.nonce tx (hhash _ ?_ _ ?_ hsame)
    · refine List.mem_append_left _ (List.mem_filterMap.mpr ⟨r, hr, ?_⟩)
      rw [hparse, Option.map_some]
    · exact List.mem_append_right _ (List.mem_map_of_mem htx)

/-! ## Different retries -/

theorem encodeRetry_inj (hcodec : RetryCodec codec) {r r' : ArbRetryTx}
    (hr : r.nonce < 2 ^ 64 ∧ r.gas < 2 ^ 64) (hr' : r'.nonce < 2 ^ 64 ∧ r'.gas < 2 ^ 64)
    (h : encodeRetry codec r = encodeRetry codec r') : r = r' := by
  have henc : codec.encode r = codec.encode r' := List.tail_eq_of_cons_eq h
  have hdecode := hcodec.roundTrips r hr.1 hr.2 []
  rw [henc, hcodec.roundTrips r' hr'.1 hr'.2 []] at hdecode
  exact (Prod.mk.inj (Option.some.inj hdecode)).1.symm

theorem nodup_retryHash {id : B256} {s : RetryableState} {retries : List ArbRetryTx}
    (hcodec : RetryCodec codec) (hlife : TicketRun chainId x id s retries)
    (hcounter : retries.length ≤ 2 ^ 64)
    (hhash : CollisionFreeOn x.keccak256 (retries.map (encodeRetry codec))) :
    (retries.map (retryHash x codec)).Nodup := by
  have hfits := fits_of_ticketRun hlife
  have hnonces := List.pairwise_map.mp (nodup_nonces hlife hcounter)
  refine List.pairwise_map.mpr (hnonces.imp_of_mem fun {r r'} hr hr' hne heq => hne ?_)
  have henc := hhash _ (List.mem_map_of_mem hr) _ (List.mem_map_of_mem hr') heq
  rw [encodeRetry_inj hcodec (hfits r hr) (hfits r' hr') henc]

/-- A successful transaction announces the retries it schedules, and any two retries in the life
    of a ticket have different hashes, if and only if no redeem of the transaction is left: only
    a redeem's caller is told another hash than that of the retry. The counter of a ticket's tries
    has 64 bits. -/
theorem retries_announced_iff (chainId : Nat) (x : Externals) (codec : RlpCodec ArbRetryTx)
    (tx : SuccessfulTx x) (id : B256) (s : RetryableState) (retries : List ArbRetryTx)
    (hcodec : RetryCodec codec) (hlife : TicketRun chainId x id s retries)
    (hcounter : retries.length ≤ 2 ^ 64)
    (hhash : CollisionFreeOn x.keccak256
      (tx.hashed chainId codec ++ retries.map (encodeRetry codec))) :
    (tx.Announces chainId (retryHash x codec) ∧ (retries.map (retryHash x codec)).Nodup) ↔
      tx.redeems = [] := by
  have hleft : CollisionFreeOn x.keccak256 (tx.hashed chainId codec) := fun a ha b hb =>
    hhash a (List.mem_append_left _ ha) b (List.mem_append_left _ hb)
  have hright : CollisionFreeOn x.keccak256 (retries.map (encodeRetry codec)) := fun a ha b hb =>
    hhash a (List.mem_append_right _ ha) b (List.mem_append_right _ hb)
  constructor
  · exact fun h => redeems_eq_nil hcodec hleft h.1.returned
  · intro hnone
    refine ⟨⟨announced_receipt _ tx, fun p hp => ?_⟩, nodup_retryHash hcodec hlife hcounter hright⟩
    cases tx with
    | submission => exact absurd hp List.not_mem_nil
    | run block retryableId start calls hqueued =>
      unfold SuccessfulTx.returned at hp
      unfold SuccessfulTx.redeems at hnone
      dsimp only at hp hnone
      rw [hnone] at hp
      exact absurd hp List.not_mem_nil

/-! ## Samples -/

open Arbreth.Receipt

/-- A form of the retry with fields of fixed width, an optional address as a list. -/
def retryCodec : RlpCodec ArbRetryTx :=
  mapCodec (pairCodec (bitsCodec 32) (pairCodec (numCodec 8) (pairCodec (bitsCodec 20)
    (pairCodec (bitsCodec 32) (pairCodec (numCodec 8) (pairCodec (listCodec (bitsCodec 20))
    (pairCodec (bitsCodec 32) (pairCodec (listCodec (bitsCodec 1)) (pairCodec (bitsCodec 32)
    (pairCodec (bitsCodec 20) (pairCodec (bitsCodec 32) (bitsCodec 32))))))))))))
    (fun r => (r.chainId, r.nonce, r.sender, r.gasFeeCap, r.gas, r.toAddr.toList, r.value,
      r.data.map UInt8.toBitVec, r.ticketId, r.refundTo, r.maxRefund, r.submissionFeeRefund))
    fun (chainId, nonce, sender, gasFeeCap, gas, toAddr, value, data, ticketId, refundTo, maxRefund,
        submissionFeeRefund) =>
      ⟨chainId, nonce, sender, gasFeeCap, gas, toAddr.head?, value, data.map UInt8.ofBitVec, ticketId,
        refundTo, maxRefund, submissionFeeRefund⟩

theorem retryCodec_lawful : RetryCodec retryCodec where
  roundTrips r hnonce hgas := by
    refine roundTrips_map ?_ ?_
    · exact roundTrips_pair (roundTrips_bits _) <| roundTrips_pair (roundTrips_num hnonce) <|
        roundTrips_pair (roundTrips_bits _) <| roundTrips_pair (roundTrips_bits _) <|
        roundTrips_pair (roundTrips_num hgas) <|
        roundTrips_pair (roundTrips_list roundTrips_bits _) <| roundTrips_pair (roundTrips_bits _) <|
        roundTrips_pair (roundTrips_list roundTrips_bits _) <| roundTrips_pair (roundTrips_bits _) <|
        roundTrips_pair (roundTrips_bits _) <| roundTrips_pair (roundTrips_bits _) (roundTrips_bits _)
    · have hdata : (r.data.map UInt8.toBitVec).map UInt8.ofBitVec = r.data := by
        rw [List.map_map]
        exact List.map_id _
      cases r with
      | mk =>
        dsimp only at hdata ⊢
        rw [hdata]
        simp
  length r := by
    simp only [retryCodec, mapCodec, pairCodec, bitsCodec, numCodec, List.length_append, beBytes_length]
    omega

def announceExternals : Externals :=
  { sampleExternals (fun _ _ => .error "no run") with keccak256 := hornerHash }

/-- A ticket whose first redemption is paid for. -/
def announceSubmit : ArbSubmitRetryableTx :=
  ⟨42161, 1, sampleSender, 0, 1000000000000000000, 100000000, 100000, some 0xdef, 0, sampleSender, 0,
    sampleSender, []⟩

def announceTx : ExecutableTx announceExternals where
  tx := ⟨.submitRetryable announceSubmit, zeroSig⟩
  env := ⟨0, sampleSender, 100000, 0, some 42161, some 0x6e, [], 0, some 0, 0, [], []⟩
  env_eq := rfl

def announceSubmission : SuccessfulTx announceExternals :=
  .submission (fundedExecutor false) announceTx announceSubmit rfl rfl

/-- The ticket as the submission leaves it, with its entry in the queue. -/
def announceStart : RetryableState :=
  ⟨(executeTransactionWithoutCommit announceExternals (fundedExecutor false) announceTx).1.world,
    (Queue.init.put sampleHash).getD Queue.init⟩

theorem windowsQueued_announceStart : WindowsQueued announceStart := by
  have hput : Queue.init.put sampleHash = some ((Queue.init.put sampleHash).getD Queue.init) := rfl
  exact windowsQueued_submission (x := announceExternals) rfl (fun id h => absurd rfl h) rfl
    List.not_mem_nil hput

/-- The ticket is redeemed twice. -/
def announceCalls : RetryCalls := .redeem bookRedeem sampleHash (.redeem bookRedeem sampleHash .done)

def announceCtx : CancelCtx := ⟨hornerHash, sampleCtx, 0⟩

/-- The submission announces the first of the ticket's three retries. -/
theorem retries_announced_submission : ∃ s retries,
    TicketRun 42161 announceExternals sampleHash s retries ∧
    retries.map ArbRetryTx.nonce = [0, 1, 2] ∧
    (announceSubmission.retries 42161).map ArbRetryTx.nonce = [0] ∧
    announceSubmission.Announces 42161 (retryHash announceExternals retryCodec) ∧
    (retries.map (retryHash announceExternals retryCodec)).Nodup := by
  have hsubmitted : TicketRun 42161 announceExternals sampleHash announceStart
      (scheduledTxs 42161 announceExternals (fundedExecutor false) announceTx) :=
    .submitted (fundedExecutor false) announceTx announceSubmit _ rfl rfl (by decide) rfl rfl
  have hcancelled : (runEnd announceCtx announceStart announceCalls).cancelled = [] := by
    decide +kernel
  have hcommit : ∀ l, slotValue (runEnd announceCtx announceStart announceCalls).state l =
      committedSlots 42161 announceCtx announceStart announceCalls l := by
    intro l
    refine (committedSlots_eq (tracked_runEnd _ _ windowsQueued_announceStart) rfl ?_ l).symm
    intro id _
    rw [hcancelled]
    exact List.not_mem_nil
  have hfits : ((runEnd announceCtx announceStart announceCalls).state.world.tickets
      sampleHash).timeout ≤ u64Max := by
    decide +kernel
  have hlife := TicketRun.transaction sampleCtx 0 announceCalls announceStart _ _ hsubmitted
    windowsQueued_announceStart hcommit hfits
  have hnonces : (scheduledTxs 42161 announceExternals (fundedExecutor false) announceTx ++
      (runRetries 42161 announceCtx announceStart announceCalls).filter fun r =>
        r.ticketId = sampleHash).map ArbRetryTx.nonce = [0, 1, 2] := by
    decide +kernel
  have hhash : ∀ a ∈ announceSubmission.hashed 42161 retryCodec ++
      (scheduledTxs 42161 announceExternals (fundedExecutor false) announceTx ++
        (runRetries 42161 announceCtx announceStart announceCalls).filter fun r =>
          r.ticketId = sampleHash).map (encodeRetry retryCodec),
      ∀ b ∈ announceSubmission.hashed 42161 retryCodec ++
        (scheduledTxs 42161 announceExternals (fundedExecutor false) announceTx ++
          (runRetries 42161 announceCtx announceStart announceCalls).filter fun r =>
            r.ticketId = sampleHash).map (encodeRetry retryCodec),
        hornerHash a = hornerHash b → a = b := by
    decide +kernel
  have hcounter := congrArg List.length hnonces
  rw [List.length_map] at hcounter
  have hall := (retries_announced_iff 42161 announceExternals retryCodec announceSubmission sampleHash _ _
    retryCodec_lawful hlife (hcounter.trans_le (by decide)) hhash).mpr rfl
  exact ⟨_, _, hlife, hnonces, by decide +kernel, hall.1, hall.2⟩

def announceRun : SuccessfulTx announceExternals :=
  .run sampleCtx 0 announceStart announceCalls windowsQueued_announceStart

/-- Both callers are told the hash of no scheduled retry. -/
theorem redeem_returns_placeholder :
    ((announceRun.returned 42161).map fun p => (p.2.nonce,
      decide (p.1 = retryHash announceExternals retryCodec p.2))) = [(1, false), (2, false)] ∧
    ¬ announceRun.Announces 42161 (retryHash announceExternals retryCodec) := by
  have hreturned : ((announceRun.returned 42161).map fun p => (p.2.nonce,
      decide (p.1 = retryHash announceExternals retryCodec p.2))) = [(1, false), (2, false)] := by
    decide +kernel
  refine ⟨hreturned, fun h => ?_⟩
  have hall : ((announceRun.returned 42161).map fun p => (p.2.nonce,
      decide (p.1 = retryHash announceExternals retryCodec p.2))) =
      (announceRun.returned 42161).map fun p => (p.2.nonce, true) :=
    List.map_congr_left fun p hp => by rw [decide_eq_true (h.returned p hp)]
  rw [hreturned] at hall
  have hmem : (1, false) ∈ (announceRun.returned 42161).map fun p => (p.2.nonce, true) :=
    hall ▸ List.mem_cons_self
  obtain ⟨p, -, hp⟩ := List.mem_map.mp hmem
  exact Bool.noConfusion (Prod.mk.inj hp).2

end Arbreth.Redeem
