/-
  How the executor schedules the retries a run announced (arb-evm, build.rs:
  execute_transaction_without_commit; arbos, retryables/mod.rs: make_tx).

  After a successful run the executor looks through its logs. For each `RedeemScheduled` log whose
  ticket is open in the database, it counts the try there, builds the retry, writes the hash of
  its encoding into the log and pushes the encoding to the list of scheduled transactions. The
  run's own changes are committed only later, so that the scan sees the state before the run
  plus the tries it counted itself.

  Counting tries neither opens nor closes a ticket, so that every log can be looked up in the
  state before the scan (`scanLogs_snd`).
-/
import Arbreth.Redeem.Handlers

namespace Arbreth.Redeem

open Arbreth.Lib Arbreth.Exec Arbreth.Tx

deriving instance DecidableEq for ArbRetryTx

/-! ## Logs -/

/-- The fields of a `RedeemScheduled` log. -/
structure RedeemScheduled where
  ticketId : B256
  nonce : Nat
  donatedGas : Nat
  gasDonor : Address
  maxRefund : U256
  submissionFeeRefund : U256

/-- The checks and reads of the scan. The donated gas is a `u64` in every log of the precompile;
    the conversion would panic for any other. -/
def parseRedeemScheduled (log : Log) : Option RedeemScheduled :=
  match log.topics with
  | topic :: ticketId :: _ :: seqNum :: _ =>
    if log.address = arbretryabletxAddress ∧ topic = redeemScheduledTopic ∧
        128 ≤ log.data.length then
      some
        { ticketId := ticketId
          nonce := seqNum.toNat % 2 ^ 64
          donatedGas := beNat (log.data.take 32)
          gasDonor := BitVec.ofNat 160 (beNat ((log.data.drop 44).take 20))
          maxRefund := wordOfBytes ((log.data.drop 64).take 32)
          submissionFeeRefund := wordOfBytes ((log.data.drop 96).take 32) }
    else none
  | _ => none

/-- The scan reads back what the log was made of. -/
theorem parse_redeemScheduledLog (id hash : B256) {nonce gas : Nat} (donor : Address)
    (maxRefund submissionFeeRefund : U256) (hnonce : nonce < 2 ^ 64) (hgas : gas ≤ u64Max) :
    parseRedeemScheduled (redeemScheduledLog id hash nonce gas donor maxRefund submissionFeeRefund) =
      some ⟨id, nonce, gas, donor, maxRefund, submissionFeeRefund⟩ := by
  have hu64 : u64Max < 256 ^ 32 := by decide
  have hlen : 128 ≤ (redeemScheduledLog id hash nonce gas donor maxRefund
      submissionFeeRefund).data.length := by
    simp [redeemScheduledLog]
  have hseq : (BitVec.ofNat 256 nonce).toNat % 2 ^ 64 = nonce := by
    rw [BitVec.toNat_ofNat]
    omega
  have hdonor : BitVec.ofNat 160 (beNat ((beBytes 32 donor.toNat).drop 12)) = donor := by
    have hlt : donor.toNat < 256 ^ 20 := donor.isLt
    rw [beNat_drop 20 12, Nat.mod_eq_of_lt hlt, BitVec.ofNat_toNat, BitVec.setWidth_eq]
  -- The four words, cut at multiples of 32; the donor is right-aligned in the second.
  have h0 : (redeemScheduledLog id hash nonce gas donor maxRefund submissionFeeRefund).data.take 32 =
      beBytes 32 gas := by
    simp [redeemScheduledLog, List.append_assoc]
  have h1 : ((redeemScheduledLog id hash nonce gas donor maxRefund
      submissionFeeRefund).data.drop 44).take 20 = (beBytes 32 donor.toNat).drop 12 := by
    simp [redeemScheduledLog, List.append_assoc, List.drop_append, List.take_append]
  have h2 : ((redeemScheduledLog id hash nonce gas donor maxRefund
      submissionFeeRefund).data.drop 64).take 32 = wordBytes maxRefund := by
    simp [redeemScheduledLog, List.append_assoc, List.drop_append, List.take_append]
  have h3 : ((redeemScheduledLog id hash nonce gas donor maxRefund
      submissionFeeRefund).data.drop 96).take 32 = wordBytes submissionFeeRefund := by
    simp [redeemScheduledLog, List.append_assoc, List.drop_append,
      List.drop_eq_nil_of_le, List.take_of_length_le]
  have hgas' : beNat (beBytes 32 gas) = gas := by
    rw [beNat_beBytes, Nat.mod_eq_of_lt (hgas.trans_lt hu64)]
  unfold parseRedeemScheduled
  rw [h0, h1, h2, h3, hgas', hdonor, wordOfBytes_wordBytes, wordOfBytes_wordBytes]
  simp only [redeemScheduledLog] at hlen ⊢
  rw [if_pos ⟨trivial, trivial, hlen⟩, hseq]

/-! ## Retries -/

/-- `make_tx`. -/
def makeTx (t : Ticket) (chainId : U256) (nonce : Nat) (gasFeeCap : U256) (gas : Nat) (ticketId : B256)
    (refundTo : Address) (maxRefund submissionFeeRefund : U256) : ArbRetryTx where
  chainId := chainId
  nonce := nonce
  sender := t.fromAddr
  gasFeeCap := gasFeeCap
  gas := gas
  toAddr := t.toAddr
  value := t.callvalue
  data := t.calldata
  ticketId := ticketId
  refundTo := refundTo
  maxRefund := maxRefund
  submissionFeeRefund := submissionFeeRefund

section Scan

variable (chainId : Nat) (ctx : BlockCtx)

/-- One log: the database afterwards, and the retry if one is scheduled. -/
def scanLog (w : World) (log : Log) : World × Option ArbRetryTx :=
  match parseRedeemScheduled log with
  | none => (w, none)
  | some e =>
    match openRetryable ctx.arbosVersion w e.ticketId ctx.blockTimestamp with
    | none => (w, none)
    | some t =>
      (w.setTicket e.ticketId { t with numTries := wrap64 (t.numTries + 1) },
        some (makeTx t (BitVec.ofNat 256 chainId) e.nonce ctx.basefee e.donatedGas e.ticketId
          e.gasDonor e.maxRefund e.submissionFeeRefund))

/-- The scan: the database afterwards, and each log with the retry scheduled for it. -/
def scanLogs (w : World) : List Log → World × List (Log × Option ArbRetryTx)
  | [] => (w, [])
  | log :: logs =>
    let r := scanLog chainId ctx w log
    let rest := scanLogs r.1 logs
    (rest.1, (log, r.2) :: rest.2)

/-- The retries in the order of their logs. -/
def scannedRetries (w : World) (logs : List Log) : List ArbRetryTx :=
  (scanLogs chainId ctx w logs).2.filterMap Prod.snd

/-- The log in the receipt: topic 2 becomes the hash of the retry. -/
def patchLog (hash : ArbRetryTx → B256) : Log × Option ArbRetryTx → Log
  | (log, some r) => { log with topics := log.topics.set 2 (hash r) }
  | (log, none) => log

end Scan

/-! ## What the scan sees -/

/-- The tickets differ in their number of tries at most. -/
def SameButTries (w w' : World) : Prop :=
  ∀ id, w'.tickets id = { w.tickets id with numTries := (w'.tickets id).numTries }

theorem SameButTries.refl (w : World) : SameButTries w w := fun _ => rfl

theorem SameButTries.trans {w w' w'' : World} (h : SameButTries w w') (h' : SameButTries w' w'') :
    SameButTries w w'' := by
  intro id
  rw [h' id, h id]

variable {c : CancelCtx} {id : B256}

theorem sameButTries_setTicket {w : World} {t : Ticket} (ht : t = w.tickets id) (n : Nat) :
    SameButTries w (w.setTicket id { t with numTries := n }) := by
  intro x
  by_cases hx : x = id
  · rw [hx, tickets_setTicket_self, ht]
  · rw [tickets_setTicket_of_ne _ hx]

theorem SameButTries.openRetryable {w w' : World} (h : SameButTries w w') (v : Nat) (id : B256)
    (now : Nat) : openRetryable v w' id now =
      (openRetryable v w id now).map fun t => { t with numTries := (w'.tickets id).numTries } := by
  have hid := h id
  have htimeout : (w'.tickets id).timeout = (w.tickets id).timeout := by rw [hid]
  have hwindows : (w'.tickets id).timeoutWindowsLeft = (w.tickets id).timeoutWindowsLeft := by rw [hid]
  unfold Exec.openRetryable
  dsimp only
  rw [htimeout, hwindows]
  split
  · rfl
  · split
    · generalize (if 60 ≤ v then _ else _) = effective
      split
      · rfl
      · exact congrArg some hid
    · exact congrArg some hid

variable {chainId : Nat} {ctx : BlockCtx} {w w' : World} {log : Log}

theorem sameButTries_scanLog (w : World) (log : Log) :
    SameButTries w (scanLog chainId ctx w log).1 := by
  unfold scanLog
  split
  · exact .refl w
  · next e _ =>
    split
    · exact .refl w
    · next t hopen => exact sameButTries_setTicket (openRetryable_some hopen).1 _

theorem sameButTries_scanLogs (w : World) (logs : List Log) :
    SameButTries w (scanLogs chainId ctx w logs).1 := by
  induction logs generalizing w with
  | nil => exact .refl w
  | cons log logs ih => exact (sameButTries_scanLog w log).trans (ih _)

/-- The retry of a log depends on the tickets only up to their tries. -/
theorem SameButTries.scanLog_snd (h : SameButTries w w') (log : Log) :
    (scanLog chainId ctx w' log).2 = (scanLog chainId ctx w log).2 := by
  unfold scanLog
  cases parseRedeemScheduled log with
  | none => rfl
  | some e =>
    simp only [h.openRetryable]
    cases Exec.openRetryable ctx.arbosVersion w e.ticketId ctx.blockTimestamp with
    | none => rfl
    | some t => rfl

theorem scanLogs_snd (w : World) (logs : List Log) : (scanLogs chainId ctx w logs).2 =
    logs.map fun log => (log, (scanLog chainId ctx w log).2) := by
  induction logs generalizing w with
  | nil => rfl
  | cons log logs ih =>
    have hsame : SameButTries w (scanLog chainId ctx w log).1 := sameButTries_scanLog w log
    simp only [scanLogs, List.map_cons, ih, hsame.scanLog_snd]

theorem scannedRetries_eq (w : World) (logs : List Log) : scannedRetries chainId ctx w logs =
    logs.filterMap fun log => (scanLog chainId ctx w log).2 := by
  rw [scannedRetries, scanLogs_snd, List.filterMap_map]
  rfl

/-- A number of tries after some more. -/
def countTries (n k : Nat) : Nat := (fun n => wrap64 (n + 1))^[k] n

theorem countTries_succ (n k : Nat) : countTries n (k + 1) = wrap64 (countTries n k + 1) :=
  Function.iterate_succ_apply' _ k n

theorem countTries_eq {n k : Nat} (h : n + k < 2 ^ 64) : countTries n k = n + k := by
  induction k with
  | zero => rfl
  | succ k ih => rw [countTries_succ, ih (by omega), wrap64_of_lt (by omega), Nat.add_assoc]

/-- A log schedules a retry exactly if it is of the precompile and its ticket is open. -/
theorem scanLog_snd_eq (w : World) (log : Log) : (scanLog chainId ctx w log).2 =
    (parseRedeemScheduled log).bind fun e =>
      (openRetryable ctx.arbosVersion w e.ticketId ctx.blockTimestamp).map fun t =>
        makeTx t (BitVec.ofNat 256 chainId) e.nonce ctx.basefee e.donatedGas e.ticketId e.gasDonor
          e.maxRefund e.submissionFeeRefund := by
  unfold scanLog
  cases parseRedeemScheduled log with
  | none => rfl
  | some e =>
    cases hopen : openRetryable ctx.arbosVersion w e.ticketId ctx.blockTimestamp with
    | none => simp [hopen]
    | some t => simp [hopen]

/-- The ticket a log is about. -/
def logTicket (log : Log) : Option B256 := (parseRedeemScheduled log).map RedeemScheduled.ticketId

theorem scanLog_isSome {w : World} {log : Log} (h : logTicket log = some id) :
    (scanLog chainId ctx w log).2.isSome ↔ IsOpen ctx w id := by
  obtain ⟨e, he, rfl⟩ := Option.map_eq_some_iff.mp h
  rw [scanLog_snd_eq, he, Option.bind_some, Option.isSome_map, Exec.IsOpen]

theorem tickets_scanLog {w : World} {log : Log} (h : logTicket log = some id)
    (hopen : IsOpen ctx w id) : (scanLog chainId ctx w log).1 =
      w.setTicket id { w.tickets id with numTries := wrap64 ((w.tickets id).numTries + 1) } := by
  obtain ⟨e, he, rfl⟩ := Option.map_eq_some_iff.mp h
  obtain ⟨t, ht⟩ := Option.isSome_iff_exists.mp hopen
  simp only [scanLog, he, ht, (openRetryable_some ht).1]

theorem SameButTries.isOpen {w w' : World} (h : SameButTries w w') (ctx : BlockCtx) (id : B256) :
    IsOpen ctx w' id ↔ IsOpen ctx w id := by
  rw [Exec.IsOpen, Exec.IsOpen, h.openRetryable, Option.isSome_map]

/-- The scan of logs whose tickets are open counts one try for each. -/
theorem numTries_scanLogs {w : World} {logs : List Log}
    (hopen : ∀ id ∈ logs.filterMap logTicket, IsOpen ctx w id) (id : B256) :
    ((scanLogs chainId ctx w logs).1.tickets id).numTries =
      countTries (w.tickets id).numTries ((logs.filterMap logTicket).count id) := by
  induction logs generalizing w with
  | nil => rfl
  | cons log logs ih =>
    have hsame : SameButTries w (scanLog chainId ctx w log).1 := sameButTries_scanLog w log
    cases hlog : logTicket log with
    | none =>
      have hnone : (scanLog chainId ctx w log).1 = w := by
        simp only [scanLog, Option.map_eq_none_iff.mp hlog]
      simp only [List.filterMap_cons, hlog] at hopen ⊢
      rw [scanLogs, hnone]
      exact ih hopen
    | some x =>
      simp only [List.filterMap_cons, hlog, List.mem_cons, forall_eq_or_imp] at hopen ⊢
      have hrest := ih (w := (scanLog chainId ctx w log).1) fun y hy =>
        (hsame.isOpen ctx y).mpr (hopen.2 y hy)
      rw [scanLogs]
      rw [hrest, tickets_scanLog hlog hopen.1]
      by_cases hx : id = x
      · subst hx
        rw [List.count_cons_self, tickets_setTicket_self]
        exact (Function.iterate_succ_apply _ _ _).symm
      · rw [List.count_cons_of_ne (Ne.symm hx), tickets_setTicket_of_ne _ hx]

/-! ## What the retries cost -/

/-- The logs the scan looks at. -/
def redeemLogs (logs : List Log) : List Log :=
  logs.filter fun log => (parseRedeemScheduled log).isSome

theorem scannedRetries_redeemLogs (w : World) (logs : List Log) :
    scannedRetries chainId ctx w (redeemLogs logs) = scannedRetries chainId ctx w logs := by
  rw [scannedRetries_eq, scannedRetries_eq, redeemLogs, List.filterMap_filter]
  refine List.filterMap_congr fun log _ => ?_
  rw [scanLog_snd_eq]
  cases parseRedeemScheduled log with
  | none => rfl
  | some e => rfl

/-- The log of a surviving redeem, as the scan reads it. -/
theorem parse_redeemed {i : RedeemCall} {t : Ticket} {nonce donated : Nat} {r : Redeemed}
    (h : RedeemsAs c i id w t nonce donated r w') :
    parseRedeemScheduled r.log = some ⟨id, nonce, donated, i.caller, BitVec.allOnes 256, 0⟩ := by
  have hdonated : donated ≤ u64Max := (h.paid.trans h.gasUsed_le).trans i.gas_le
  rw [h.log]
  exact parse_redeemScheduledLog id r.output i.caller _ _ (h.previous ▸ wrap64_lt _) hdonated

/-- A scheduled retry has the gas its redeem donated: enough for a transaction, and part of what
    the redeem was charged. -/
theorem gas_of_redeemed {r : Redeemed} (h : RedeemedBy c r) {tx : ArbRetryTx}
    (htx : (scanLog chainId ctx w r.log).2 = some tx) : txGas ≤ tx.gas ∧ tx.gas ≤ r.gasUsed := by
  obtain ⟨i, id, w₀, t, nonce, donated, w₁, has⟩ := h
  rw [scanLog_snd_eq, parse_redeemed has, Option.bind_some] at htx
  obtain ⟨tk, -, rfl⟩ := Option.map_eq_some_iff.mp htx
  exact ⟨has.enough, has.paid⟩

theorem scannedRetries_paid (chainId : Nat) (ctx : BlockCtx) (w : World) {redeems : List Redeemed}
    (h : ∀ r ∈ redeems, RedeemedBy c r) :
    (∀ tx ∈ scannedRetries chainId ctx w (redeems.map Redeemed.log), txGas ≤ tx.gas) ∧
      ((scannedRetries chainId ctx w (redeems.map Redeemed.log)).map ArbRetryTx.gas).sum ≤
        (redeems.map Redeemed.gasUsed).sum := by
  rw [scannedRetries_eq]
  induction redeems with
  | nil => exact ⟨fun tx htx => absurd htx List.not_mem_nil, Nat.le_refl _⟩
  | cons r redeems ih =>
    obtain ⟨henough, hsum⟩ := ih fun r' hr' => h r' (List.mem_cons_of_mem r hr')
    rw [List.map_cons, List.map_cons, List.sum_cons]
    cases htx : (scanLog chainId ctx w r.log).2 with
    | none =>
      simp only [List.filterMap_cons, htx]
      exact ⟨henough, Nat.le_add_left_of_le hsum⟩
    | some tx =>
      have hgas := gas_of_redeemed (h r List.mem_cons_self) htx
      simp only [List.filterMap_cons, htx, List.map_cons, List.sum_cons]
      refine ⟨fun tx' htx' => ?_, Nat.add_le_add hgas.2 hsum⟩
      rcases List.mem_cons.mp htx' with rfl | htx'
      · exact hgas.1
      · exact henough tx' htx'

end Arbreth.Redeem
