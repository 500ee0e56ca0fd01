/-
  The producer's loop over the user transactions of a message, against the block production
  state machine (arb-node, producer.rs: produce_block_with_execution).

  The executor refuses a user transaction with one error in two cases: less than 21000 is left of
  the block's gas, or the transaction does not fit. The producer ends the block on that error. Any
  other error makes it go on to the next transaction with the budget untouched; nothing calls the
  executor's deduct_failed_tx_gas, which would charge 21000 and count the transaction.

  So the loop and the machine agree as long as every transaction is included and its retries cost
  the same, and part ways for good at the first one that is not. From there on they give the same
  block only if neither includes anything more (`follows_machine_iff`).

  The executor's side of a run is put in terms of the fates it observes: `userLoop_eq` says that
  the loop over the executor takes what `loopChoice` says.
-/
import Arbreth.Producer.BlockState
import Arbreth.Producer.Drain

namespace Arbreth.Producer

open Arbreth.Lib Arbreth.Exec Arbreth.Tx Arbreth.Parse Arbreth.BlockProcessor

/-! ## The loop -/

/-- The text the producer looks for in an error. -/
def SaysLimit (err : String) : Prop := "block gas limit reached".toList <:+: err.toList

instance (err : String) : Decidable (SaysLimit err) := inferInstanceAs (Decidable (_ <:+: _))

/-- The errors on which the producer ends the block. The other messages hold numbers and
    addresses. -/
def EndsBlock : ExecError → Prop
  | .blockGasLimitReached => True
  | .internalTx err => SaysLimit err
  | .evm err => SaysLimit err
  | _ => False

instance : DecidablePred EndsBlock
  | .blockGasLimitReached => inferInstanceAs (Decidable True)
  | .internalTx err => inferInstanceAs (Decidable (SaysLimit err))
  | .evm err => inferInstanceAs (Decidable (SaysLimit err))
  | .internalNotFromArbos => inferInstanceAs (Decidable False)
  | .nonceMismatch .. => inferInstanceAs (Decidable False)
  | .feeBelowBaseFee .. => inferInstanceAs (Decidable False)
  | .insufficientFunds .. => inferInstanceAs (Decidable False)
  | .floorDataGas .. => inferInstanceAs (Decidable False)

section Loop

variable (chainId : Nat) (x : Externals) (rounds : Nat)

/-- The loop over the parsed transactions. One that does not convert, or whose sender cannot be
    recovered, is none. The retries an included transaction schedules run right after it. -/
def userLoop : Executor → List (Option (ExecutableTx x)) →
    Option (Executor × List (Included (Option (ExecutableTx x))))
  | s, [] => some (s, [])
  | s, none :: txs => userLoop s txs
  | s, some t :: txs =>
    match (executeTransactionWithoutCommit x s t).2 with
    | .error e =>
      if EndsBlock e then some (processTransaction x s t, [])
      else userLoop (processTransaction x s t) txs
    | .ok _ =>
      match drainLoop (retryStep chainId x) rounds (afterTx chainId x s t) with
      | none => none
      | some (s', _) =>
        (userLoop s' txs).map fun out =>
          (out.1, ⟨some t, s.blockGasLeft, s.userTxsProcessed⟩ :: out.2)

end Loop

/-! ## The loop's choice in closed form -/

/-- What the executor charges for a transaction: nothing if it failed, and before ArbOS 11 also
    the gas of the retries. -/
def loopCharge (version : Nat) : Fate → Nat
  | .invalid _ => 0
  | .success gasUsed redeemGas dataGas _ =>
    computeUsed (if 11 ≤ version then gasUsed - redeemGas else gasUsed) dataGas

mutual

/-- What a transaction costs together with the retries that run after it: of a batch, only the
    last one's are looked at. -/
def loopCost (version : Nat) : Fate → Nat
  | .invalid _ => 0
  | .success gasUsed redeemGas dataGas scheduled =>
    computeUsed (if 11 ≤ version then gasUsed - redeemGas else gasUsed) dataGas +
      batchCost version scheduled

def batchCost (version : Nat) : List Fate → Nat
  | [] => 0
  | [f] => loopCost version f
  | f :: f' :: fs => loopCharge version f + batchCost version (f' :: fs)

end

/-- What the last transaction of a batch schedules. -/
def lastScheduled (fs : List Fate) : List Fate :=
  match fs.getLast? with
  | some f => f.scheduled
  | none => []

theorem loopCost_eq (version : Nat) (f : Fate) :
    loopCost version f = loopCharge version f + batchCost version f.scheduled := by
  cases f with
  | invalid err => rfl
  | success gasUsed redeemGas dataGas scheduled => rw [loopCost]; rfl

theorem batchCost_eq (version : Nat) (fs : List Fate) :
    batchCost version fs =
      (fs.map (loopCharge version)).sum + batchCost version (lastScheduled fs) := by
  induction fs with
  | nil => rfl
  | cons f fs ih =>
    cases fs with
    | nil =>
      rw [batchCost, loopCost_eq]
      rfl
    | cons f' fs =>
      have hlast : lastScheduled (f :: f' :: fs) = lastScheduled (f' :: fs) := rfl
      rw [batchCost, ih, hlast, ← Nat.add_assoc]
      rfl

section Choice

variable {α : Type}

/-- The user transactions the loop puts into the block. -/
def loopChoice : BlockGas → List (UserTx α) → List (Included α)
  | _, [] => []
  | b, u :: us =>
    if b.left < txGas then []
    else if b.Rejects u.computeGas then []
    else
      match u.fate with
      | .invalid err => if SaysLimit err then [] else loopChoice b us
      | .success .. =>
        ⟨u.tx, b.left, b.processed⟩ ::
          loopChoice ((b.spend (loopCost b.arbosVersion u.fate)).count true) us

/-! ## Where loop and machine agree -/

def Succeeds : Fate → Prop
  | .invalid _ => False
  | .success .. => True

/-- Invalid, with a message that ends the loop. -/
def LimitFate : Fate → Prop
  | .invalid err => SaysLimit err
  | .success .. => False

/-- Every valid transaction comes too late for the loop, whose budget stays the same: it is used
    up, or a transaction up to this one does not fit or ends the block. -/
def LoopPasses (b : BlockGas) (us : List (UserTx α)) : Prop :=
  ∀ before u after, us = before ++ u :: after → Succeeds u.fate →
    b.left < txGas ∨ ∃ w ∈ before ++ [u], b.Rejects w.computeGas ∨ LimitFate w.fate

/-- Every valid transaction comes too late for the machine, where each one before it was
    skipped: the budget is used up, or the transaction does not fit. -/
def MachinePasses (b : BlockGas) (us : List (UserTx α)) : Prop :=
  ∀ before u after, us = before ++ u :: after → Succeeds u.fate →
    (skipped b before.length).left < txGas ∨ (skipped b before.length).Rejects u.computeGas

/-- The condition on the fates. As long as there is gas left: no valid transaction that would
    still be included comes after one that does not fit, one that is invalid, or one whose retries
    leave the two with different amounts. -/
def InStep : BlockGas → List (UserTx α) → Prop
  | _, [] => True
  | b, u :: us =>
    if b.left < txGas then True
    else if b.Rejects u.computeGas then MachinePasses (skipped b 1) us
    else
      match u.fate with
      | .invalid err => (SaysLimit err ∨ LoopPasses b us) ∧ MachinePasses (skipped b 1) us
      | .success .. =>
        let loop := (b.spend (loopCost b.arbosVersion u.fate)).count true
        let machine := (b.spend u.fate.cost).count true
        if loop = machine then InStep machine us
        else LoopPasses loop us ∧ MachinePasses machine us

variable {b e : BlockGas} {u : UserTx α} {us : List (UserTx α)}

theorem skipped_zero (b : BlockGas) : skipped b 0 = b := by
  simp [skipped]

theorem skipped_succ (b : BlockGas) (n : Nat) : skipped (skipped b 1) n = skipped b (n + 1) := by
  unfold skipped
  simp only [BlockGas.mk.injEq, and_true]
  exact ⟨by rw [Nat.sub_sub]; ring_nf, by ring⟩

theorem loopChoice_of_lt (h : b.left < txGas) : loopChoice b us = [] := by
  cases us with
  | nil => rfl
  | cons u us => rw [loopChoice, if_pos h]

variable {i : Included α} {rest : List (Included α)}

/-- The first transaction the loop takes finds the budget as it was. -/
theorem loopChoice_head (h : loopChoice b us = i :: rest) :
    i.blockGasLeft = b.left ∧ i.userTxsProcessed = b.processed := by
  induction us with
  | nil => cases h
  | cons u us ih =>
    rw [loopChoice] at h
    split at h
    · cases h
    split at h
    · cases h
    cases hfate : u.fate with
    | invalid err =>
      rw [hfate] at h
      dsimp only at h
      split at h
      · cases h
      · exact ih h
    | success gasUsed redeemGas dataGas scheduled =>
      rw [hfate] at h
      cases h
      exact ⟨rfl, rfl⟩

/-- The first transaction the machine takes finds the budget less what was skipped. -/
theorem chosen_head (h : chosen b us = i :: rest) :
    ∃ n, i.blockGasLeft = (skipped b n).left ∧ i.userTxsProcessed = (skipped b n).processed := by
  induction us generalizing b with
  | nil => cases h
  | cons u us ih =>
    have hskip : chosen (skipped b 1) us = i :: rest →
        ∃ n, i.blockGasLeft = (skipped b n).left ∧ i.userTxsProcessed = (skipped b n).processed := by
      intro h
      obtain ⟨n, hn⟩ := ih h
      rw [skipped_succ] at hn
      exact ⟨n + 1, hn⟩
    rw [chosen] at h
    split at h
    · cases h
    split at h
    · exact hskip h
    cases hfate : u.fate with
    | invalid err =>
      rw [hfate] at h
      exact hskip h
    | success gasUsed redeemGas dataGas scheduled =>
      rw [hfate] at h
      cases h
      exact ⟨0, by rw [skipped_zero], by rw [skipped_zero]⟩

/-- Once the two have different budgets, they can only agree on including nothing: the count
    tells a skipped transaction, and without one the gas left is not the same. -/
theorem loopChoice_eq_chosen_apart (hprocessed : e.processed ≤ b.processed)
    (hne : ¬ (e.left = b.left ∧ e.processed = b.processed)) :
    loopChoice e us = chosen b us ↔ loopChoice e us = [] ∧ chosen b us = [] := by
  constructor
  · intro h
    cases hloop : loopChoice e us with
    | nil => exact ⟨rfl, by rw [← h, hloop]⟩
    | cons i rest =>
      exfalso
      obtain ⟨hleft, hcount⟩ := loopChoice_head hloop
      obtain ⟨n, hleft', hcount'⟩ := chosen_head (h.symm.trans hloop)
      have hn : n = 0 := by
        rw [hcount] at hcount'
        simp only [skipped] at hcount'
        omega
      subst hn
      rw [skipped_zero] at hleft' hcount'
      exact hne ⟨hleft.symm.trans hleft', hcount.symm.trans hcount'⟩
  · rintro ⟨h, h'⟩
    rw [h, h']

/-- The splits of a list with a first element: there, and after it. -/
theorem forall_split_cons {P : List (UserTx α) → UserTx α → Prop} :
    (∀ before w after, u :: us = before ++ w :: after → P before w) ↔
      P [] u ∧ ∀ before w after, us = before ++ w :: after → P (u :: before) w := by
  constructor
  · intro h
    refine ⟨h [] u us rfl, fun before w after hsplit => h (u :: before) w after ?_⟩
    rw [hsplit, List.cons_append]
  · rintro ⟨hfirst, hrest⟩ before w after hsplit
    cases before with
    | nil =>
      cases hsplit
      exact hfirst
    | cons v before =>
      cases hsplit
      exact hrest before w after rfl

theorem loopChoice_eq_nil_iff : loopChoice b us = [] ↔ LoopPasses b us := by
  induction us with
  | nil => exact ⟨fun _ before u after h => absurd h (by simp), fun _ => rfl⟩
  | cons u us ih =>
    refine Iff.trans ?_ forall_split_cons.symm
    rw [loopChoice]
    by_cases hleft : b.left < txGas
    · simp [hleft]
    by_cases hreject : b.Rejects u.computeGas
    · simp [hleft, hreject]
    cases hfate : u.fate with
    | invalid err =>
      by_cases hlimit : SaysLimit err
      · simp [hleft, hreject, hfate, hlimit, LimitFate]
      · simpa [hleft, hreject, hfate, hlimit, LimitFate, Succeeds, LoopPasses] using ih
    | success gasUsed redeemGas dataGas scheduled => simp [hleft, hreject, hfate, LimitFate, Succeeds]

theorem chosen_eq_nil_iff : chosen b us = [] ↔ MachinePasses b us := by
  induction us generalizing b with
  | nil => exact ⟨fun _ before u after h => absurd h (by simp), fun _ => rfl⟩
  | cons u us ih =>
    refine Iff.trans ?_ forall_split_cons.symm
    -- A skipped transaction only moves the budget on.
    have hskip := ih (b := skipped b 1)
    simp only [MachinePasses, skipped_succ] at hskip
    simp only [List.length_nil, List.length_cons, skipped_zero]
    rw [chosen]
    by_cases hleft : b.left < txGas
    · have hlater : ∀ n, (skipped b n).left < txGas := fun n =>
        Nat.lt_of_le_of_lt (Nat.sub_le _ _) hleft
      simp [hleft, hlater]
    by_cases hreject : b.Rejects u.computeGas
    · simpa [hleft, hreject] using hskip
    cases hfate : u.fate with
    | invalid err => simpa [hleft, hreject, Succeeds] using hskip
    | success gasUsed redeemGas dataGas scheduled => simp [hleft, hreject, Succeeds]

/-- Loop and machine make the same block exactly if the fates keep them in step. -/
theorem loopChoice_eq_chosen_iff : loopChoice b us = chosen b us ↔ InStep b us := by
  induction us generalizing b with
  | nil => exact ⟨fun _ => trivial, fun _ => rfl⟩
  | cons u us ih =>
    rw [loopChoice, chosen, InStep]
    by_cases hleft : b.left < txGas
    · rw [if_pos hleft, if_pos hleft, if_pos hleft]
      exact ⟨fun _ => trivial, fun _ => rfl⟩
    rw [if_neg hleft, if_neg hleft, if_neg hleft]
    by_cases hreject : b.Rejects u.computeGas
    · rw [if_pos hreject, if_pos hreject, if_pos hreject, ← chosen_eq_nil_iff]
      exact eq_comm
    rw [if_neg hreject, if_neg hreject, if_neg hreject]
    cases hfate : u.fate with
    | invalid err =>
      dsimp only
      by_cases hlimit : SaysLimit err
      · rw [if_pos hlimit, ← chosen_eq_nil_iff]
        exact eq_comm.trans ⟨fun h => ⟨.inl hlimit, h⟩, fun h => h.2⟩
      · rw [if_neg hlimit, ← chosen_eq_nil_iff, ← loopChoice_eq_nil_iff, or_iff_right hlimit]
        refine loopChoice_eq_chosen_apart (Nat.le_succ _) fun h => ?_
        exact Nat.succ_ne_self _ h.2.symm
    | success gasUsed redeemGas dataGas scheduled =>
      dsimp only
      rw [List.cons_inj_right]
      generalize hloop : (b.spend _).count true = loop
      generalize hmachine : (b.spend (Fate.cost _)).count true = machine
      by_cases hsame : loop = machine
      · rw [if_pos hsame, hsame]
        exact ih
      · rw [if_neg hsame, ← loopChoice_eq_nil_iff, ← chosen_eq_nil_iff]
        subst hloop hmachine
        refine loopChoice_eq_chosen_apart (Nat.le_refl _) fun h => hsame ?_
        unfold BlockGas.count BlockGas.spend at h ⊢
        simpa using h.1

end Choice

/-! ## The fates a run observes -/

/-- What is seen of an executed transaction. -/
inductive Observed where
  | failed (e : ExecError)
  | done (gasUsed redeemGas dataGas : Nat)
  deriving DecidableEq

section Fares

variable (chainId : Nat) (x : Externals)

def observe (s : Executor) (t : ExecutableTx x) : Option Observed :=
  match executeTransactionWithoutCommit x s t with
  | (_, .error e) => some (.failed e)
  | (s', .ok r) => s'.pending.map fun p => .done r.gasUsed s'.scheduledGas.sum p.posterGas

/-- The fate a transaction has in a state of the executor. -/
def Fares (s : Executor) (t : ExecutableTx x) : Fate → Prop
  | .invalid err => ∃ e, observe x s t = some (.failed e) ∧ (EndsBlock e ↔ SaysLimit err)
  | .success gasUsed redeemGas dataGas scheduled =>
    observe x s t = some (.done gasUsed redeemGas dataGas) ∧
      scheduled.length = (scheduledTxs chainId x s t).length

/-- The fate of a retry; one that is not converted counts as invalid. -/
def RetryFares (s : Executor) (r : ArbRetryTx) (f : Fate) : Prop :=
  match retryTx x r with
  | some t => Fares chainId x s t f
  | none => ¬ Succeeds f

/-- The fates of a batch of retries. -/
def BatchFares : Executor → List ArbRetryTx → List Fate → Prop
  | _, [], [] => True
  | s, r :: rs, f :: fs =>
    RetryFares chainId x s r f ∧ BatchFares (retryStep chainId x s r).1 rs fs
  | _, _, _ => False

/-- The fates of all retries the loop runs, batch after batch. -/
def DrainFares : Nat → Executor → List ArbRetryTx → List Fate → Prop
  | _, _, [], fs => fs = []
  | 0, _, _ :: _, _ => False
  | rounds + 1, s, r :: rs, fs =>
    BatchFares chainId x s (r :: rs) fs ∧
      let p := (runAll (retryStep chainId x) (s, []) (r :: rs)).1
      DrainFares rounds p.1 p.2 (lastScheduled fs)

/-- The transactions of a message have the given fates, as far as the loop gets. -/
def LoopFares (rounds : Nat) : Executor → List (UserTx (Option (ExecutableTx x))) → Prop
  | _, [] => True
  | s, u :: us =>
    match u.tx with
    | none => u.computeGas = txGas ∧ ¬ Succeeds u.fate ∧ ¬ LimitFate u.fate ∧ LoopFares rounds s us
    | some t =>
      isUserTx (ArbTxType.fromU8 t.tx.ty) = true ∧ (s.blockGasLeft < txGas ∨
        u.computeGas = computeGasOf x s t ∧ (s.blockGas.Rejects u.computeGas ∨
          Fares chainId x s t u.fate ∧
            match u.fate with
            | .invalid err => SaysLimit err ∨ LoopFares rounds (processTransaction x s t) us
            | .success _ _ _ scheduled =>
              DrainFares chainId x rounds (processTransaction x s t)
                  (scheduledTxs chainId x s t) scheduled ∧
                ∀ out, drainLoop (retryStep chainId x) rounds (afterTx chainId x s t) = some out →
                  LoopFares rounds out.1 us))

end Fares

variable {chainId rounds : Nat} {x : Externals} {s s' : Executor} {t : ExecutableTx x}

theorem observe_failed {e : ExecError} (h : observe x s t = some (.failed e)) :
    (executeTransactionWithoutCommit x s t).2 = .error e := by
  unfold observe at h
  cases hexec : executeTransactionWithoutCommit x s t with
  | mk s' res =>
    rw [hexec] at h
    cases res with
    | error e' =>
      cases h
      rfl
    | ok r =>
      obtain ⟨p, _, hp⟩ := Option.map_eq_some_iff.mp h
      cases hp

variable {gasUsed redeemGas dataGas : Nat}

theorem observe_done (h : observe x s t = some (.done gasUsed redeemGas dataGas)) :
    ∃ s' r p, executeTransactionWithoutCommit x s t = (s', .ok r) ∧ s'.pending = some p ∧
      r.gasUsed = gasUsed ∧ s'.scheduledGas.sum = redeemGas ∧ p.posterGas = dataGas := by
  unfold observe at h
  cases hexec : executeTransactionWithoutCommit x s t with
  | mk s' res =>
    rw [hexec] at h
    cases res with
    | error e => cases h
    | ok r =>
      obtain ⟨p, hpending, hp⟩ := Option.map_eq_some_iff.mp h
      cases hp
      exact ⟨s', r, p, rfl, hpending, rfl, rfl, rfl⟩

theorem blockGas_invalid {err : String} (henters : EntersEvm (ArbTxType.fromU8 t.tx.ty))
    (h : Fares chainId x s t (.invalid err)) : (processTransaction x s t).blockGas = s.blockGas := by
  obtain ⟨e, he, _⟩ := h
  exact blockGas_failed henters (observe_failed he)

theorem blockGas_success {scheduled : List Fate} (henters : EntersEvm (ArbTxType.fromU8 t.tx.ty))
    (h : Fares chainId x s t (.success gasUsed redeemGas dataGas scheduled)) :
    (processTransaction x s t).blockGas =
      (s.blockGas.spend (loopCharge s.blockGas.arbosVersion
        (.success gasUsed redeemGas dataGas scheduled))).count
        (isUserTx (ArbTxType.fromU8 t.tx.ty)) := by
  obtain ⟨s', r, p, hexec, hpending, hgas, hredeem, hdata⟩ := observe_done h.1
  have hexecute := (uncharged_execute (x := x) (s := s) henters).blockGas
  rw [hexec] at hexecute
  have hversion : s'.ctx.arbosVersion = s.blockGas.arbosVersion :=
    congrArg BlockGas.arbosVersion hexecute
  have hcounted : s'.countedGas r.gasUsed =
      if 11 ≤ s.blockGas.arbosVersion then gasUsed - redeemGas else gasUsed := by
    unfold Executor.countedGas
    rw [hversion, hgas, hredeem]
  rw [blockGas_processTransaction henters hexec hpending, hcounted, hdata]
  rfl

theorem blockGas_retryStep {r : ArbRetryTx} {f : Fate} (h : RetryFares chainId x s r f) :
    (retryStep chainId x s r).1.blockGas =
      s.blockGas.spend (loopCharge s.blockGas.arbosVersion f) := by
  unfold RetryFares at h
  unfold retryStep
  cases hretry : retryTx x r with
  | none =>
    rw [hretry] at h
    cases f with
    | invalid err => rfl
    | success gasUsed redeemGas dataGas scheduled => exact absurd trivial h
  | some t =>
    rw [hretry] at h
    have htype : ArbTxType.fromU8 t.tx.ty = some .retry := by
      rw [retryTx_tx hretry]
      rfl
    have henters : EntersEvm (ArbTxType.fromU8 t.tx.ty) := by
      rw [htype]
      decide
    cases f with
    | invalid err => exact blockGas_invalid henters h
    | success gasUsed redeemGas dataGas scheduled =>
      refine (blockGas_success henters h).trans ?_
      rw [htype]
      rfl

theorem spend_spend (b : BlockGas) (gas gas' : Nat) :
    (b.spend gas).spend gas' = b.spend (gas + gas') := by
  unfold BlockGas.spend
  simp only [Nat.sub_sub]

theorem blockGas_runAll {rs : List ArbRetryTx} {fs : List Fate} (left : List ArbRetryTx)
    (h : BatchFares chainId x s rs fs) :
    (runAll (retryStep chainId x) (s, left) rs).1.1.blockGas =
      s.blockGas.spend (fs.map (loopCharge s.blockGas.arbosVersion)).sum := by
  induction rs generalizing s fs left with
  | nil =>
    cases fs with
    | nil => rfl
    | cons f fs => exact h.elim
  | cons r rs ih =>
    cases fs with
    | nil => exact h.elim
    | cons f fs =>
      obtain ⟨hretry, hrest⟩ := h
      have hstep := blockGas_retryStep hretry
      have hrun := ih (retryStep chainId x s r).2 hrest
      rw [hstep, spend_spend] at hrun
      rw [List.map_cons, List.sum_cons]
      exact hrun

/-- The loop over the retries costs what runs of them. -/
theorem blockGas_drainLoop {jobs : List ArbRetryTx} {fs : List Fate} {ran : List (Ran ArbRetryTx)}
    (h : DrainFares chainId x rounds s jobs fs)
    (hdrain : drainLoop (retryStep chainId x) rounds (s, jobs) = some (s', ran)) :
    s'.blockGas = s.blockGas.spend (batchCost s.blockGas.arbosVersion fs) := by
  induction rounds generalizing s jobs fs ran with
  | zero =>
    cases jobs with
    | nil =>
      cases h
      cases hdrain
      rfl
    | cons r rs => cases hdrain
  | succ rounds ih =>
    cases jobs with
    | nil =>
      cases h
      cases hdrain
      rfl
    | cons r rs =>
      obtain ⟨hbatch, hrest⟩ := h
      rw [drainLoop] at hdrain
      obtain ⟨out, hout, hs'⟩ := Option.map_eq_some_iff.mp hdrain
      cases hs'
      have hrun := blockGas_runAll [] hbatch
      have hdrained := ih hrest hout
      rw [hrun, spend_spend] at hdrained
      rw [batchCost_eq]
      exact hdrained

/-- The loop over the executor takes what the fates say. -/
theorem userLoop_eq {us : List (UserTx (Option (ExecutableTx x)))}
    {block : List (Included (Option (ExecutableTx x)))} (h : LoopFares chainId x rounds s us)
    (hrun : userLoop chainId x rounds s (us.map UserTx.tx) = some (s', block)) :
    block = loopChoice s.blockGas us := by
  induction us generalizing s block with
  | nil =>
    cases hrun
    rfl
  | cons u us ih =>
    obtain ⟨tx, computeGas, fate⟩ := u
    cases tx with
    | none =>
      obtain ⟨hcompute, hinvalid, hlimit, hrest⟩ := h
      have hblock := ih hrest hrun
      rw [loopChoice]
      by_cases hleft : s.blockGas.left < txGas
      · rw [if_pos hleft, hblock, loopChoice_of_lt hleft]
      have hfits : ¬ s.blockGas.Rejects computeGas := by
        rintro ⟨_, _, hlt⟩
        dsimp only at hcompute
        omega
      rw [if_neg hleft, if_neg hfits]
      cases fate with
      | invalid err => exact hblock.trans (if_neg hlimit).symm
      | success gasUsed redeemGas dataGas scheduled => exact absurd trivial hinvalid
    | some t =>
      obtain ⟨huser, hfares⟩ := h
      have henters : EntersEvm (ArbTxType.fromU8 t.tx.ty) := entersEvm_of_user huser
      have hlimit := execute_limit (x := x) (s := s) huser
      rw [List.map_cons, userLoop] at hrun
      -- Refused for the budget: the block ends here.
      have hstop : s.blockGasLeft < txGas ∨ s.blockGas.Rejects (computeGasOf x s t) →
          block = [] := by
        intro hrefused
        rw [hlimit.mpr hrefused] at hrun
        cases hrun
        rfl
      rw [loopChoice]
      by_cases hleft : s.blockGas.left < txGas
      · rw [if_pos hleft]
        exact hstop (.inl hleft)
      obtain ⟨hcompute, hfares⟩ := hfares.resolve_left hleft
      rw [if_neg hleft]
      by_cases hreject : s.blockGas.Rejects computeGas
      · rw [if_pos hreject]
        exact hstop (.inr (hcompute ▸ hreject))
      rw [if_neg hreject]
      obtain ⟨hfate, hnext⟩ := hfares.resolve_left hreject
      cases fate with
      | invalid err =>
        have hsame := blockGas_invalid henters hfate
        obtain ⟨e, he, hends⟩ := hfate
        rw [observe_failed he] at hrun
        dsimp only at hrun hnext ⊢
        by_cases hsays : SaysLimit err
        · rw [if_pos (hends.mpr hsays)] at hrun
          cases hrun
          exact (if_pos hsays).symm
        · rw [if_neg (mt hends.mp hsays)] at hrun
          rw [if_neg hsays, ← hsame]
          exact ih (hnext.resolve_left hsays) hrun
      | success gasUsed redeemGas dataGas scheduled =>
        obtain ⟨hdrainFares, hrest⟩ := hnext
        obtain ⟨s₁, r, p, hexec, _⟩ := observe_done hfate.1
        rw [hexec] at hrun
        cases hdrain : drainLoop (retryStep chainId x) rounds (afterTx chainId x s t) with
        | none =>
          rw [hdrain] at hrun
          cases hrun
        | some out =>
          obtain ⟨s₂, ran⟩ := out
          rw [hdrain] at hrun
          obtain ⟨out, hout, heq⟩ := Option.map_eq_some_iff.mp hrun
          cases heq
          have hafter : s₂.blockGas =
              (s.blockGas.spend (loopCost s.blockGas.arbosVersion
                (.success gasUsed redeemGas dataGas scheduled))).count true := by
            rw [blockGas_drainLoop hdrainFares hdrain, blockGas_success henters hfate, huser,
              loopCost_eq, ← spend_spend]
            rfl
          rw [← hafter]
          exact congrArg (_ :: ·) (ih (hrest _ hdrain) hout)

/-! ## The block of a message -/

/-- The block is what driving the machine from the start gives, with any number of steps that is
    large enough. -/
def FollowsMachine {α : Type} (limit version₀ version : Nat) (us : List (UserTx α))
    (block : List (Included α)) : Prop :=
  ∃ enough, ∀ steps, drive version (enough + steps) (.new limit version₀) us = some block

theorem followsMachine_iff_chosen {α : Type} {limit version₀ version : Nat} {us : List (UserTx α)}
    {block : List (Included α)} :
    FollowsMachine limit version₀ version us block ↔
      block = chosen ⟨limit - txGas, 0, version⟩ us := by
  obtain ⟨enough, henough⟩ := drive_block us limit version₀ version
  constructor
  · rintro ⟨enough', henough'⟩
    have h := henough enough'
    rw [Nat.add_comm, henough' enough] at h
    exact Option.some.inj h
  · rintro rfl
    exact ⟨enough, henough⟩

/-- For every message of user transactions, the producer's loop after the start of the block
    includes the transactions the state machine includes, with the same budget and count before
    each, if and only if the fates keep the two in step. -/
theorem follows_machine_iff (chainId rounds version₀ : Nat) (x : Externals) (s₀ s' : Executor)
    (start : ExecutableTx x) (i : ArbInternalTx) (us : List (UserTx (Option (ExecutableTx x))))
    (block : List (Included (Option (ExecutableTx x))))
    (hstart : start.tx.transaction = .internal i) (hok : returnsOk x s₀ start = true)
    (hfresh : s₀.userTxsProcessed = 0)
    (hfares : LoopFares chainId x rounds (processTransaction x s₀ start) us)
    (hrun : userLoop chainId x rounds (processTransaction x s₀ start) (us.map UserTx.tx) =
      some (s', block)) :
    FollowsMachine s₀.blockGasLeft version₀ (processTransaction x s₀ start).ctx.arbosVersion us block ↔
      InStep ⟨s₀.blockGasLeft - txGas, 0, (processTransaction x s₀ start).ctx.arbosVersion⟩ us := by
  obtain ⟨hleft, hprocessed⟩ := blockGas_internal hstart hok
  have hblock := userLoop_eq hfares hrun
  unfold Executor.blockGas at hblock
  rw [hleft, hprocessed, hfresh] at hblock
  rw [followsMachine_iff_chosen, hblock]
  exact loopChoice_eq_chosen_iff

/-! ## Two messages -/

/-- A transaction without retries, and those after it. -/
theorem loopFares_cons {us : List (UserTx (Option (ExecutableTx x)))}
    {computeGas gasUsed redeemGas dataGas : Nat}
    (huser : isUserTx (ArbTxType.fromU8 t.tx.ty) = true) (hcompute : computeGas = computeGasOf x s t)
    (hobserve : observe x s t = some (.done gasUsed redeemGas dataGas))
    (hscheduled : scheduledTxs chainId x s t = [])
    (hrest : LoopFares chainId x rounds (processTransaction x s t) us) :
    LoopFares chainId x rounds s
      (⟨some t, computeGas, .success gasUsed redeemGas dataGas []⟩ :: us) := by
  refine ⟨huser, .inr ⟨hcompute, .inr ⟨⟨hobserve, ?_⟩, ?_, fun out hout => ?_⟩⟩⟩
  · rw [hscheduled]
    rfl
  · rw [hscheduled]
    cases rounds with
    | zero => rfl
    | succ rounds => rfl
  · rw [afterTx, hscheduled] at hout
    cases rounds with
    | zero =>
      cases hout
      exact hrest
    | succ rounds =>
      cases hout
      exact hrest

/-- Transfers of `sampleSender`, and internal transactions from ArbOS. -/
def meteredExternals : Externals :=
  { sampleExternals plainCall with
    recoverSigner := fun tx =>
      match tx.transaction with
      | .internal _ => arbosAddress
      | _ => sampleSender }

def startTx : ExecutableTx meteredExternals where
  tx := ⟨.internal ⟨42161, []⟩, zeroSig⟩
  env := ⟨0, arbosAddress, 1000000, 0, some 42161, some arbosAddress, [], 0, some 0, 0, [], []⟩
  env_eq := rfl

def meteredTx (nonce : Nat) : ExecutableTx meteredExternals where
  tx := ⟨.legacy ⟨some 42161, nonce, 100000000, 100000, some 0xb0b, 1000, []⟩, ⟨1, 1, false⟩⟩
  env := ⟨0, sampleSender, 100000, nonce, some 42161, some 0xb0b, [], 100000000, none, 1000, [], []⟩
  env_eq := rfl

/-- A block of 32000000 gas at ArbOS 40 after its start. The sender's nonce is 3. -/
def startedExecutor : Executor :=
  processTransaction meteredExternals (fundedExecutor false) startTx

def validUser (nonce : Nat) : UserTx (Option (ExecutableTx meteredExternals)) :=
  ⟨some (meteredTx nonce), 98400, .success 22600 0 1600 []⟩

/-- A transaction that skips a nonce. -/
def earlyUser : UserTx (Option (ExecutableTx meteredExternals)) :=
  ⟨some (meteredTx 4), 98400, .invalid "nonce mismatch"⟩

theorem valid_fares :
    LoopFares 42161 meteredExternals 1 startedExecutor [validUser 3, validUser 4] := by
  refine loopFares_cons (by decide +kernel) (by decide +kernel) (by decide +kernel)
    (List.length_eq_zero_iff.mp (by decide +kernel)) ?_
  exact loopFares_cons (by decide +kernel) (by decide +kernel) (by decide +kernel)
    (List.length_eq_zero_iff.mp (by decide +kernel)) trivial

theorem early_fares :
    LoopFares 42161 meteredExternals 1 startedExecutor [earlyUser, validUser 3] := by
  refine ⟨by decide +kernel, .inr ⟨by decide +kernel, .inr ⟨?_, .inr ?_⟩⟩⟩
  · exact ⟨.nonceMismatch sampleSender 4 3, by decide +kernel, by decide +kernel⟩
  · exact loopFares_cons (by decide +kernel) (by decide +kernel) (by decide +kernel)
      (List.length_eq_zero_iff.mp (by decide +kernel)) trivial

/-- The condition is met by two transfers. -/
theorem follows_machine_transfers :
    ∃ s' block, userLoop 42161 meteredExternals 1 startedExecutor
        [some (meteredTx 3), some (meteredTx 4)] = some (s', block) ∧
      FollowsMachine 32000000 40 40 [validUser 3, validUser 4] block := by
  have hsome : (userLoop 42161 meteredExternals 1 startedExecutor
      [some (meteredTx 3), some (meteredTx 4)]).isSome = true := by
    decide +kernel
  obtain ⟨⟨s', block⟩, hrun⟩ := Option.isSome_iff_exists.mp hsome
  have hstep : InStep ⟨31979000, 0, 40⟩ [validUser 3, validUser 4] := by
    rw [InStep, if_neg (by decide), if_neg (by decide)]
    rw [if_pos (by decide +kernel), InStep, if_neg (by decide), if_neg (by decide)]
    rw [if_pos (by decide +kernel)]
    trivial
  exact ⟨s', block, hrun, (follows_machine_iff 42161 1 40 meteredExternals (fundedExecutor false) s'
    startTx _ [validUser 3, validUser 4] block rfl (by decide +kernel) rfl valid_fares hrun).mpr hstep⟩

/-- After a transaction with a wrong nonce, the loop includes the next one with the whole budget
    and nothing counted, where the machine has 21000 less and has counted one. -/
theorem invalid_tx_not_charged :
    ∃ s' block, LoopFares 42161 meteredExternals 1 startedExecutor [earlyUser, validUser 3] ∧
      userLoop 42161 meteredExternals 1 startedExecutor
        ([earlyUser, validUser 3].map UserTx.tx) = some (s', block) ∧
      block.map (fun e => (e.blockGasLeft, e.userTxsProcessed)) = [(31979000, 0)] ∧
      ¬ FollowsMachine 32000000 40 40 [earlyUser, validUser 3] block := by
  have hsome : (userLoop 42161 meteredExternals 1 startedExecutor
      ([earlyUser, validUser 3].map UserTx.tx)).isSome = true := by
    decide +kernel
  obtain ⟨⟨s', block⟩, hrun⟩ := Option.isSome_iff_exists.mp hsome
  have hstart : startedExecutor.blockGas = ⟨31979000, 0, 40⟩ := by decide +kernel
  have hblock := userLoop_eq early_fares hrun
  rw [hstart] at hblock
  refine ⟨s', block, early_fares, hrun, ?_, fun hfollows => ?_⟩
  · rw [hblock]
    decide +kernel
  · have hchosen := followsMachine_iff_chosen.mp hfollows
    have hcount := congrArg (List.map Included.userTxsProcessed) (hblock.symm.trans hchosen)
    revert hcount
    decide +kernel

end Arbreth.Producer
