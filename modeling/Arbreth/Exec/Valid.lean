/-
  Committed user transactions were valid.

  The executor validates nonce and balance of a user transaction itself, since revm's own checks
  are switched off. The reverted transaction hook comes before that validation and returns Ok, so
  a transaction whose hash is filtered or listed in the table of pre-recorded reverts is committed
  whatever its nonce and its sender's balance, any number of times. Without such a transaction
  every committed one was valid, and none is committed twice.
-/
import Arbreth.Exec.Paths
import Arbreth.Lib.Keccak
import Arbreth.Lib.Run

namespace Arbreth.Exec

open Arbreth.Lib Arbreth.Tx Arbreth.Parse Accessor
open Arbreth.Stylus (oneKind)

/-! ## Runs of the block executor -/

/-- Commit what returned Ok. -/
def commitOutcome (x : Externals) : Outcome → Executor
  | (s, .ok r) => commitTransaction x s r
  | (s, .error _) => s

/-- Execute a transaction and commit it when that returned Ok. -/
def processTransaction (x : Externals) (s : Executor) (t : ExecutableTx x) : Executor :=
  commitOutcome x (executeTransactionWithoutCommit x s t)

/-- `execute_transaction_without_commit` returns Ok. -/
def returnsOk (x : Externals) (s : Executor) (t : ExecutableTx x) : Bool :=
  (executeTransactionWithoutCommit x s t).2.isOk

/-- The committed transactions of a sequence, each with the executor just before it. -/
def committed (x : Externals) (s : Executor) :
    List (ExecutableTx x) → List (Executor × ExecutableTx x)
  | [] => []
  | t :: ts =>
    if returnsOk x s t then (s, t) :: committed x (processTransaction x s t) ts
    else committed x (processTransaction x s t) ts

def blockStep (x : Externals) (s : Executor) (t : ExecutableTx x) : Option Executor :=
  some (processTransaction x s t)

variable {x : Externals} {s : Executor}

/-- The sender's nonce is the transaction's, unless it is a contract transaction, and the
    balance covers the gas limit at the maximum fee and the value. -/
def ValidBefore (s : Executor) (t : ExecutableTx x) : Prop :=
  (ArbTxType.fromU8 t.tx.ty ≠ some .contract → s.world.getNonce t.sender = nonce t.tx) ∧
    ∃ fee, maxFeePerGas t.tx = .ok fee ∧
      gasLimit t.tx * fee + (value t.tx).toNat ≤
        (s.world.getBalance t.sender).toNat

/-- An Ethereum transaction, which its sender signed. -/
def isSigned (t : ExecutableTx x) : Bool := ArbTxType.fromU8 t.tx.ty = none

/-- The condition on a transaction and the state before it: the hook lets a user transaction
    through, its cost is a 256-bit number, and the sender's nonce is not the last one. -/
def Checked (x : Externals) (s : Executor) (t : ExecutableTx x) : Prop :=
  (isUserTx (ArbTxType.fromU8 t.tx.ty) = true →
      hookAction x s t = .none ∧
        gasLimit t.tx * t.env.gasPrice + t.env.value.toNat < 2 ^ 256) ∧
    s.world.getNonce t.sender + 1 < 2 ^ 64

instance (x : Externals) (s : Executor) (t : ExecutableTx x) : Decidable (Checked x s t) :=
  inferInstanceAs (Decidable ((_ → _ ∧ _) ∧ _))

/-- What is assumed of revm: a run lowers the nonce of no signer, and raises the caller's. -/
structure EvmKeepsNonces (x : Externals) (signer : Address → Prop) : Prop where
  keeps : ∀ i w out a, x.evm i w = .ok out → signer a → w.getNonce a ≤ out.world.getNonce a
  raises : ∀ i w out, x.evm i w = .ok out → signer i.env.caller →
    w.getNonce i.env.caller + 1 < 2 ^ 64 →
      w.getNonce i.env.caller < out.world.getNonce i.env.caller

/-! ## One transaction -/

/-- The environment of a user transaction repeats its nonce, fee and value. -/
theorem env_of_user {selector : Bytes} {tx : ArbTransactionSigned} {sender : Address} {env : TxEnv}
    (h : arbTxToTxEnv selector tx sender = .ok env)
    (hu : isUserTx (ArbTxType.fromU8 tx.ty) = true) :
    env.caller = sender ∧ env.nonce = nonce tx ∧ env.value = value tx ∧
      maxFeePerGas tx = .ok env.gasPrice := by
  have hfees : ∀ fees, feeFields tx = .ok fees →
      maxFeePerGas tx = .ok fees.1 ∧ fees.2.2.1 = value tx := by
    intro fees hfees
    unfold feeFields at hfees
    simp only [isUserTx, Bool.and_eq_true, decide_eq_true_eq] at hu
    rw [if_neg (by rintro (hi | hd); exacts [hu.1.1.1 hi, hu.1.1.2 hd]), if_neg hu.1.2] at hfees
    obtain ⟨price, hprice, hpure⟩ := bind_eq_ok.mp hfees
    cases hpure
    exact ⟨hprice, rfl⟩
  obtain ⟨chainId, -, h⟩ := bind_eq_ok.mp h
  obtain ⟨fees, hf, h⟩ := bind_eq_ok.mp h
  obtain ⟨hprice, hvalue⟩ := hfees fees hf
  cases h
  exact ⟨rfl, rfl, hvalue, hprice⟩

variable {t : ExecutableTx x} {signer : Address → Prop} {w : World} {txs : List (ExecutableTx x)}

/-- Validation passes on valid transactions only, where the cost does not overflow. -/
theorem valid_of_validated (hu : isUserTx (ArbTxType.fromU8 t.tx.ty) = true)
    (hfits : gasLimit t.tx * t.env.gasPrice + t.env.value.toNat < 2 ^ 256)
    (h : validateUserTx x s t = .ok ()) : ValidBefore s t := by
  obtain ⟨-, hnonce, hvalue, hfee⟩ := env_of_user t.env_eq hu
  unfold validateUserTx at h
  dsimp only at h
  split at h
  · cases h
  next hn =>
  split at h
  · cases h
  split at h
  · cases h
  next hb =>
  refine ⟨fun hc => ?_, t.env.gasPrice, hfee, ?_⟩
  · by_contra hne
    exact hn ⟨hc, fun he => hne (by rw [← hnonce, he])⟩
  · rw [← hvalue]
    have hcost : (satAdd256 (BitVec.ofNat 256 (gasLimit t.tx * t.env.gasPrice))
        t.env.value).toNat = gasLimit t.tx * t.env.gasPrice + t.env.value.toNat := by
      rw [toNat_satAdd256, BitVec.toNat_ofNat, Nat.mod_eq_of_lt (by omega)]
      exact Nat.min_eq_left (Nat.le_pred_of_lt hfits)
    rw [BitVec.lt_def, hcost] at hb
    omega

/-- A user transaction that meets the condition and returns Ok was valid. -/
theorem valid_of_returnsOk (hchecked : Checked x s t)
    (hu : isUserTx (ArbTxType.fromU8 t.tx.ty) = true) (hok : returnsOk x s t = true) :
    ValidBefore s t := by
  obtain ⟨hhook, hfits⟩ := hchecked.1 hu
  have hpath := userPath_of_ok hu hok
  generalize executeTransactionWithoutCommit x s t = o at hpath
  cases hpath with
  | forced _ _ hne => exact absurd hhook hne
  | ran out _ hvalid _ => exact valid_of_validated (s := chargeGas x s.resetTx t) hu hfits hvalid

theorem le_getNonce_incrementNonce {b : Address} (h : w.getNonce b + 1 < 2 ^ 64) (a : Address) :
    w.getNonce a ≤ (w.incrementNonce b).getNonce a := by
  unfold World.incrementNonce
  cases hacct : w.accounts b with
  | none => exact Nat.le_refl _
  | some acct =>
    by_cases hab : a = b
    · subst hab
      have hn : w.getNonce a = acct.nonce := by simp only [World.getNonce, hacct]
      rw [hn] at h ⊢
      simp only [World.getNonce, World.setAccount, Function.update_self, wrap64_of_lt h]
      exact Nat.le_succ _
    · simp [World.getNonce, World.setAccount, hab]

/-- The world an outcome leaves to the commit stages. -/
def outcomeWorld : Outcome → World
  | (s, .ok r) => r.state.getD s.world
  | (s, .error _) => s.world

theorem getNonce_commitOutcome (o : Outcome) (a : Address) :
    (commitOutcome x o).world.getNonce a = (outcomeWorld o).getNonce a := by
  obtain ⟨s', res⟩ := o
  cases res with
  | error e => rfl
  | ok r => exact (quiet_commitTransaction r).nonce a

theorem Ended.getNonce {o : Outcome} (h : Ended w o) (a : Address) :
    (outcomeWorld o).getNonce a = w.getNonce a := by
  obtain ⟨s', res⟩ := o
  cases res with
  | error e => exact h.quiet.nonce a
  | ok r =>
    have hstate : r.state.getD s'.world = s'.world := by rw [h.state r rfl]; rfl
    exact (congrArg (World.getNonce · a) hstate).trans (h.quiet.nonce a)

theorem getNonce_processTransaction_mono (hevm : EvmKeepsNonces x signer)
    (hchecked : Checked x s t) {a : Address} (ha : signer a) :
    s.world.getNonce a ≤ (processTransaction x s t).world.getNonce a := by
  rw [processTransaction, getNonce_commitOutcome]
  have hpath := execute_path (x := x) (s := s) (t := t)
  generalize executeTransactionWithoutCommit x s t = o at hpath
  cases hpath with
  | ended _ hended _ => exact (hended.getNonce a).ge
  | evm s₀ retry _ hquiet _ hpath =>
    have hcharged : ∀ b, (chargeGas x s₀ t).world.getNonce b = s.world.getNonce b :=
      fun b => (quiet_chargeGas.nonce b).trans (hquiet.nonce b)
    cases hpath with
    | refused s' e hq => exact ((hq.nonce a).trans (hquiet.nonce a)).ge
    | forced _ output _ =>
      have hlast : (chargeGas x s₀ t).world.getNonce t.sender + 1 < 2 ^ 64 := by
        rw [hcharged]
        exact hchecked.2
      exact (hcharged a).ge.trans (le_getNonce_incrementNonce hlast a)
    | ran out _ _ hrun => exact (hcharged a).ge.trans (hevm.keeps _ _ out a hrun ha)

/-- A committed user transaction of a signer raises the signer's nonce. -/
theorem getNonce_lt_of_returnsOk (hevm : EvmKeepsNonces x signer) (hchecked : Checked x s t)
    (ha : signer t.sender) (hu : isUserTx (ArbTxType.fromU8 t.tx.ty) = true)
    (hok : returnsOk x s t = true) :
    s.world.getNonce t.sender < (processTransaction x s t).world.getNonce t.sender := by
  rw [processTransaction, getNonce_commitOutcome]
  have hpath := userPath_of_ok hu hok
  generalize executeTransactionWithoutCommit x s t = o at hpath
  cases hpath with
  | forced _ _ hne => exact absurd (hchecked.1 hu).1 hne
  | ran out _ _ hrun =>
    have hcaller : t.env.caller = t.sender := (env_of_user t.env_eq hu).1
    have hraised := hevm.raises _ _ out hrun
    dsimp only [normalInput, evmInput] at hraised
    rw [hcaller] at hraised
    exact hraised ha hchecked.2

/-! ## Sequences of transactions -/

/-- A signer's nonce before a committed transaction is at least its nonce at the start. -/
theorem getNonce_le_of_committed (hevm : EvmKeepsNonces x signer) {a : Address} (ha : signer a)
    {s : Executor} (hchecked : Along (blockStep x) (Checked x) s txs) :
    ∀ e ∈ committed x s txs, s.world.getNonce a ≤ e.1.world.getNonce a := by
  induction txs generalizing s with
  | nil => intro e he; cases he
  | cons t ts ih =>
    have hstep := getNonce_processTransaction_mono hevm hchecked.1 ha
    have hrest : ∀ e ∈ committed x (processTransaction x s t) ts,
        s.world.getNonce a ≤ e.1.world.getNonce a :=
      fun e he => hstep.trans (ih (hchecked.2 _ rfl) e he)
    intro e he
    unfold committed at he
    split at he
    · rcases List.mem_cons.mp he with rfl | he
      · exact Nat.le_refl _
      · exact hrest e he
    · exact hrest e he

theorem committed_validBefore {s : Executor} (hchecked : Along (blockStep x) (Checked x) s txs) :
    ∀ e ∈ committed x s txs, isUserTx (ArbTxType.fromU8 e.2.tx.ty) = true → ValidBefore e.1 e.2 := by
  induction txs generalizing s with
  | nil => intro e he; cases he
  | cons t ts ih =>
    intro e he hu
    unfold committed at he
    split at he
    · next hok =>
      rcases List.mem_cons.mp he with rfl | he
      · exact valid_of_returnsOk hchecked.1 hu hok
      · exact ih (hchecked.2 _ rfl) e he hu
    · exact ih (hchecked.2 _ rfl) e he hu

/-- A signed transaction is a user transaction whose nonce is checked. -/
theorem user_of_signed (h : isSigned t = true) :
    isUserTx (ArbTxType.fromU8 t.tx.ty) = true ∧ ArbTxType.fromU8 t.tx.ty ≠ some .contract := by
  have hty : ArbTxType.fromU8 t.tx.ty = none := of_decide_eq_true h
  rw [hty]
  exact ⟨rfl, fun he => (nomatch he)⟩

theorem signed_pairwise_ne (hevm : EvmKeepsNonces x signer)
    (hsigner : ∀ t ∈ txs, isSigned t = true → signer t.sender) {s : Executor}
    (hchecked : Along (blockStep x) (Checked x) s txs) :
    ((committed x s txs).filter fun e => isSigned e.2).Pairwise fun e e' => e.2.tx ≠ e'.2.tx := by
  induction txs generalizing s with
  | nil => exact .nil
  | cons t ts ih =>
    have hrest := ih (fun u hu => hsigner u (List.mem_cons_of_mem t hu)) (hchecked.2 _ rfl)
    unfold committed
    split
    · next hok =>
      by_cases hsigned : isSigned t = true
      · simp only [List.filter_cons, hsigned, if_true, List.pairwise_cons]
        refine ⟨fun e he heq => ?_, hrest⟩
        obtain ⟨hmem, hs'⟩ := List.mem_filter.mp he
        obtain ⟨hu, hc⟩ := user_of_signed hsigned
        -- The later transaction would carry a nonce the sender has left behind.
        have hsender : e.2.sender = t.sender := congrArg x.recoverSigner heq.symm
        have ha : signer t.sender := hsigner t List.mem_cons_self hsigned
        have hlt := getNonce_lt_of_returnsOk hevm hchecked.1 ha hu hok
        have hle := getNonce_le_of_committed hevm ha (hchecked.2 _ rfl) e hmem
        have hnow := (valid_of_returnsOk hchecked.1 hu hok).1 hc
        have hthen := (committed_validBefore (hchecked.2 _ rfl) e hmem (user_of_signed hs').1).1
          (user_of_signed hs').2
        rw [hsender, ← heq] at hthen
        omega
      · simp only [List.filter_cons, hsigned]
        exact hrest
    · exact hrest

/-- Where every transaction meets the condition, every committed user transaction was valid in
    the state just before it, and no signed transaction is committed twice. -/
theorem committed_user_txs_valid (s : Executor) (txs : List (ExecutableTx x))
    (hevm : EvmKeepsNonces x fun a => ∃ t ∈ txs, isSigned t = true ∧ t.sender = a)
    (hchecked : Along (blockStep x) (Checked x) s txs) :
    (∀ e ∈ committed x s txs,
        isUserTx (ArbTxType.fromU8 e.2.tx.ty) = true → ValidBefore e.1 e.2) ∧
      ((committed x s txs).filter fun e => isSigned e.2).Pairwise fun e e' => e.2.tx ≠ e'.2.tx :=
  ⟨committed_validBefore hchecked,
    signed_pairwise_ne hevm (fun t ht hsigned => ⟨t, ht, hsigned, rfl⟩) hchecked⟩

/-! ## A run -/

/-- A run as revm performs it: the caller's nonce moves, gas is bought up to the limit, the call
    happens, the gas it did not use is paid back. -/
def revmRun (gasUsed : Nat) (call : EvmInput → World → World) (i : EvmInput) (w : World) :
    Except String EvmOutput :=
  let caller := i.env.caller
  let price := BitVec.ofNat 256 i.env.gasPrice
  let hasCode := (w.accounts caller).any (·.hasCode)
  let w := w.setAccount caller (some ⟨w.getBalance caller, w.getNonce caller + 1, hasCode⟩)
  let w := call i (burnBalance w caller (satMul256 price i.env.gasLimit))
  let w := mintBalance w caller (satMul256 price (i.env.gasLimit - gasUsed))
  if h : gasUsed ≤ u64Max then
    .ok ⟨w, caller :: i.env.kind.toList, true, gasUsed, h, [], none, 0, none,
      oneKind .computation gasUsed⟩
  else .error "out of gas"

/-- The call of an account without code. -/
def transferCall (i : EvmInput) (w : World) : World :=
  match i.env.kind with
  | some dst => transferBalance w i.env.caller dst i.env.value
  | none => w

/-- A plain transfer. -/
def plainCall : EvmInput → World → Except String EvmOutput := revmRun txGas transferCall

theorem quiet_transferCall (i : EvmInput) (w : World) : Quiet w (transferCall i w) := by
  unfold transferCall
  cases i.env.kind with
  | none => exact .refl w
  | some dst => exact frame_transferBalance _ trivial trivial

theorem getNonce_revmRun {gasUsed : Nat} {call : EvmInput → World → World}
    (hcall : ∀ i w, Quiet w (call i w)) {i : EvmInput} {out : EvmOutput}
    (h : revmRun gasUsed call i w = .ok out) (a : Address) : out.world.getNonce a =
      if a = i.env.caller then w.getNonce i.env.caller + 1 else w.getNonce a := by
  have hset : ∀ acct, (w.setAccount i.env.caller (some acct)).getNonce a =
      if a = i.env.caller then acct.nonce else w.getNonce a := by
    intro acct
    by_cases ha : a = i.env.caller
    · subst ha
      simp [World.getNonce, World.setAccount]
    · simp [World.getNonce, World.setAccount, ha]
  have hquiet : ∀ w' m m', Quiet w' (mintBalance (call i (burnBalance w' i.env.caller m))
      i.env.caller m') := fun w' m m' =>
    ((frame_burnBalance m trivial).trans (hcall i _)).trans (frame_mintBalance m' trivial)
  unfold revmRun at h
  split at h
  · cases h
    exact ((hquiet _ _ _).nonce a).trans (hset _)
  · cases h

theorem plainCall_keepsNonces {x : Externals} (hx : x.evm = plainCall) (signer : Address → Prop) :
    EvmKeepsNonces x signer where
  keeps i w out a h _ := by
    rw [hx] at h
    rw [getNonce_revmRun quiet_transferCall h a]
    split
    · next ha => exact ha ▸ Nat.le_succ _
    · exact Nat.le_refl _
  raises i w out h _ _ := by
    rw [hx] at h
    rw [getNonce_revmRun quiet_transferCall h, if_pos rfl]
    exact Nat.lt_succ_self _

/-- Nonce 3, gas price 10^8, gas limit 100000, one ether to 0xb0b on chain 42161. -/
def sampleTransfer : ArbTransactionSigned :=
  ⟨.legacy ⟨some 42161, 3, 100000000, 100000, some 0xb0b, 1000000000000000000, []⟩, ⟨1, 1, false⟩⟩

/-- The hash of its encoding ef03…0101. -/
def sampleHash : B256 := 0xf687802c2ccebdc48cda8bdc6e881aa333d75fe9c9b751e7c50afbf1c569e958

def sampleSender : Address := 0xa11ce

/-- Externals for runs of `sampleTransfer`; no internal transaction occurs in them. -/
def sampleExternals (evm : EvmInput → World → Except String EvmOutput) : Externals where
  keccak256 := Keccak.keccak256
  selector := []
  recoverSigner _ := sampleSender
  trieHash _ := sampleHash
  posterUnits _ _ := 1600
  evm := evm
  internalTx ctx hooks w _ := ⟨[], ctx, hooks, w.baseFeeWei, none⟩

def sampleTx (evm : EvmInput → World → Except String EvmOutput) : ExecutableTx (sampleExternals evm) where
  tx := sampleTransfer
  env := ⟨0, sampleSender, 100000, 3, some 42161, some 0xb0b, [], 100000000, none, 1000000000000000000,
    [], []⟩
  env_eq := rfl

/-- The sender's next transaction, with nonce 4 and half an ether. -/
def nextTx (evm : EvmInput → World → Except String EvmOutput) : ExecutableTx (sampleExternals evm) where
  tx := ⟨.legacy ⟨some 42161, 4, 100000000, 100000, some 0xb0b, 500000000000000000, []⟩,
    ⟨1, 2, false⟩⟩
  env := ⟨0, sampleSender, 100000, 4, some 42161, some 0xb0b, [], 100000000, none, 500000000000000000,
    [], []⟩
  env_eq := rfl

def sampleCtx : BlockCtx :=
  ⟨1700000000, 100000000, 100000000, 1, 40, 0xfee, 0, 100000000, batchPosterAddress⟩

def sampleHooks : Hooks :=
  ⟨⟨0, 0, 0, false, []⟩, 40, 0xfee, 0, 100000000, 32000000, 32000000, batchPosterAddress, false, false,
    false⟩

/-- An executor at the start of a block, with one account for `sampleSender`. -/
def sampleExecutor (sender : Account) (filtered : B256 → Bool) : Executor where
  world := ⟨Function.update (fun _ => none) sampleSender (some sender), fun _ => Ticket.cleared,
    filtered, 0xfee, 0, 0, 100000000⟩
  hooks := some sampleHooks
  ctx := sampleCtx
  multiGasCurrentFees _ := 0
  cancelEscrowSweep := none
  pending := none
  blockGasLeft := 32000000
  userTxsProcessed := 0
  zombieAccounts := []
  finaliseDeleted := []
  touchedAccounts := []

/-- A sender with two ether whose next nonce is the sample transfer's. -/
def fundedExecutor (hasCode : Bool) : Executor :=
  sampleExecutor ⟨2000000000000000000, 3, hasCode⟩ fun _ => false

/-- The condition is met by two transfers their sender can pay for. -/
theorem committed_user_txs_valid_transfers :
    let x := sampleExternals plainCall
    let txs := [sampleTx plainCall, nextTx plainCall]
    Along (blockStep x) (Checked x) (fundedExecutor false) txs ∧
      (committed x (fundedExecutor false) txs).length = 2 ∧
      (∀ e ∈ committed x (fundedExecutor false) txs,
        isUserTx (ArbTxType.fromU8 e.2.tx.ty) = true → ValidBefore e.1 e.2) ∧
      ((committed x (fundedExecutor false) txs).filter fun e => isSigned e.2).Pairwise
        fun e e' => e.2.tx ≠ e'.2.tx := by
  have hchecked : Along (blockStep (sampleExternals plainCall)) (Checked (sampleExternals plainCall))
      (fundedExecutor false) [sampleTx plainCall, nextTx plainCall] := by
    decide +kernel
  exact ⟨hchecked, by decide +kernel,
    committed_user_txs_valid _ _ (plainCall_keepsNonces rfl _) hchecked⟩

/-- A filtered transaction is committed twice, with a nonce the sender used long ago and
    without a balance. -/
theorem filtered_tx_replayed :
    ((committed (sampleExternals plainCall) (sampleExecutor ⟨0, 7, false⟩ (· = sampleHash))
        [sampleTx plainCall, sampleTx plainCall]).map fun e =>
          (nonce e.2.tx, e.1.world.getNonce e.2.sender, e.1.world.getBalance e.2.sender)) =
      [(3, 7, 0), (3, 8, 0)] := by
  decide +kernel

end Arbreth.Exec
