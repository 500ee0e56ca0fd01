/-
  Accounts and the balance operations of the block executor (arb-evm, build.rs: helpers;
  arbos, util/transfer.rs).

  `World` is the state the executor works on: the accounts of the state cache, the retryable
  tickets and filtered transactions of the ArbOS state, the two L1 pricing counters the executor
  writes itself, and the base fee of the L2 pricing state. Reads of the database never fail. The
  journal of pre-mutation snapshots (`StateOverlay`) only decides how a write reaches the database
  and is left out.
-/
import Arbreth.Lib.Ledger
import Arbreth.Lib.Machine

namespace Arbreth.Exec

open Arbreth.Lib Function

/-- `AccountInfo`; of the code only whether there is any. -/
structure Account where
  balance : U256
  nonce : Nat
  hasCode : Bool
  deriving DecidableEq

/-- The stored fields of a retryable ticket. A ticket that does not exist has timeout zero. -/
structure Ticket where
  numTries : Nat
  fromAddr : Address
  toAddr : Option Address
  callvalue : U256
  beneficiary : Address
  calldata : Bytes
  timeout : Nat
  timeoutWindowsLeft : Nat
  deriving DecidableEq

structure World where
  accounts : Address → Option Account
  tickets : B256 → Ticket
  filtered : B256 → Bool
  filteredFundsRecipient : Address
  unitsSinceUpdate : Nat
  l1FeesAvailable : U256
  baseFeeWei : U256

open World

namespace World

/-- `get_balance`: an absent account has none. -/
def getBalance (w : World) (a : Address) : U256 :=
  match w.accounts a with
  | some acct => acct.balance
  | none => 0

/-- The nonce validation reads: zero for an absent account. -/
def getNonce (w : World) (a : Address) : Nat :=
  match w.accounts a with
  | some acct => acct.nonce
  | none => 0

def setAccount (w : World) (a : Address) (acct : Option Account) : World :=
  { w with accounts := update w.accounts a acct }

/-- `apply_mint_to_state`. -/
def applyMint (w : World) (a : Address) (amount : U256) : World :=
  if amount = 0 then w
  else
    match w.accounts a with
    | some acct => w.setAccount a (some { acct with balance := satAdd256 acct.balance amount })
    | none => w.setAccount a (some ⟨amount, 0, false⟩)

/-- `apply_burn_to_state`. -/
def applyBurn (w : World) (a : Address) (amount : U256) : World :=
  if amount = 0 then w
  else
    match w.accounts a with
    | some acct => w.setAccount a (some { acct with balance := satSub256 acct.balance amount })
    | none => w

/-- `increment_nonce`: an absent account is not created. -/
def incrementNonce (w : World) (a : Address) : World :=
  match w.accounts a with
  | some acct => w.setAccount a (some { acct with nonce := wrap64 (acct.nonce + 1) })
  | none => w

/-- The cache part of `materialise_empty`. -/
def materialiseEmpty (w : World) (a : Address) : World :=
  match w.accounts a with
  | some _ => w
  | none => w.setAccount a (some ⟨0, 0, false⟩)

end World

/-- `BalanceError::InsufficientBalance`. -/
structure BalanceError where
  account : Address
  available : U256
  requested : U256

/-- `apply_balance_op`: transfer, burn (no source check) or mint by which ends are given. -/
def applyBalanceOp (w : World) (src dst : Option Address) (amount : U256) :
    Except BalanceError World :=
  if amount = 0 then .ok w
  else
    match src, dst with
    | some s, some d =>
      if w.getBalance s < amount then .error ⟨s, w.getBalance s, amount⟩
      else .ok ((w.applyBurn s amount).applyMint d amount)
    | some s, none => .ok (w.applyBurn s amount)
    | none, some d => .ok (w.applyMint d amount)
    | none, none => .ok w

/-- A balance operation whose error the caller drops (`let _ = …`). -/
def balanceOp (w : World) (src dst : Option Address) (amount : U256) : World :=
  match applyBalanceOp w src dst amount with
  | .ok w' => w'
  | .error _ => w

/-- `mint_balance`, error dropped. -/
def mintBalance (w : World) (a : Address) (amount : U256) : World := balanceOp w none (some a) amount

/-- `burn_balance`, error dropped. -/
def burnBalance (w : World) (a : Address) (amount : U256) : World := balanceOp w (some a) none amount

/-- `transfer_balance`, error dropped. -/
def transferBalance (w : World) (src dst : Address) (amount : U256) : World :=
  balanceOp w (some src) (some dst) amount

/-! ## What the operations do to balances -/

namespace World

theorem getBalance_setAccount (w : World) (a : Address) (acct : Account) :
    (w.setAccount a (some acct)).getBalance = update w.getBalance a acct.balance := by
  funext x
  by_cases hx : x = a
  · subst hx
    simp [getBalance, setAccount]
  · simp [getBalance, setAccount, hx]

theorem getBalance_applyMint (w : World) (a : Address) (amount : U256) :
    (w.applyMint a amount).getBalance =
      update w.getBalance a (satAdd256 (w.getBalance a) amount) := by
  unfold applyMint
  by_cases h0 : amount = 0
  · rw [if_pos h0, h0, satAdd256_zero, update_eq_self]
  · rw [if_neg h0]
    cases hacct : w.accounts a with
    | some acct => simp only [getBalance_setAccount, getBalance, hacct]
    | none =>
      have hamount : satAdd256 0 amount = amount := by
        refine BitVec.eq_of_toNat_eq ?_
        rw [toNat_satAdd256, show (0 : U256).toNat = 0 from rfl, Nat.zero_add]
        exact Nat.min_eq_left (toNat_le_u256Max amount)
      simp only [getBalance_setAccount, getBalance, hacct, hamount]

theorem getBalance_applyBurn (w : World) (a : Address) (amount : U256) :
    (w.applyBurn a amount).getBalance =
      update w.getBalance a (satSub256 (w.getBalance a) amount) := by
  unfold applyBurn
  by_cases h0 : amount = 0
  · rw [if_pos h0, h0, satSub256_zero, update_eq_self]
  · rw [if_neg h0]
    cases hacct : w.accounts a with
    | some acct => simp only [getBalance_setAccount, getBalance, hacct]
    | none =>
      have hzero : satSub256 0 amount = 0 := by
        refine BitVec.eq_of_toNat_eq ?_
        rw [toNat_satSub256, show (0 : U256).toNat = 0 from rfl, Nat.zero_sub]
      have hbal : w.getBalance a = 0 := by simp only [getBalance, hacct]
      simp only [hbal, hzero]
      rw [← hbal, update_eq_self]

theorem getBalance_incrementNonce (w : World) (a : Address) :
    (w.incrementNonce a).getBalance = w.getBalance := by
  unfold incrementNonce
  cases hacct : w.accounts a with
  | none => rfl
  | some acct =>
    have hbal : w.getBalance a = acct.balance := by simp only [getBalance, hacct]
    rw [getBalance_setAccount, ← hbal, update_eq_self]

end World

theorem mintBalance_eq (w : World) (a : Address) (amount : U256) :
    mintBalance w a amount = w.applyMint a amount := by
  unfold mintBalance balanceOp applyBalanceOp
  by_cases h0 : amount = 0
  · simp only [h0, if_true, applyMint]
  · simp only [h0, if_false]

theorem burnBalance_eq (w : World) (a : Address) (amount : U256) :
    burnBalance w a amount = w.applyBurn a amount := by
  unfold burnBalance balanceOp applyBalanceOp
  by_cases h0 : amount = 0
  · simp only [h0, if_true, applyBurn]
  · simp only [h0, if_false]

variable {src dst : Address}

theorem transferBalance_short {w : World} {amount : U256} (h : w.getBalance src < amount) :
    transferBalance w src dst amount = w := by
  have h0 : amount ≠ 0 := by
    rintro rfl
    exact absurd h (by simp [BitVec.lt_def])
  simp only [transferBalance, balanceOp, applyBalanceOp, h0, h, if_false, if_true]

theorem transferBalance_covered {w : World} {amount : U256} (h : ¬ w.getBalance src < amount) :
    transferBalance w src dst amount = (w.applyBurn src amount).applyMint dst amount := by
  by_cases h0 : amount = 0
  · simp [transferBalance, balanceOp, applyBalanceOp, applyBurn, applyMint, h0]
  · simp only [transferBalance, balanceOp, applyBalanceOp, h0, h, if_false]

theorem getBalance_transferBalance_congr {w w' : World} (h : w'.getBalance = w.getBalance)
    (src dst : Address) (amount : U256) :
    (transferBalance w' src dst amount).getBalance = (transferBalance w src dst amount).getBalance := by
  by_cases hlt : w.getBalance src < amount
  · rw [transferBalance_short hlt, transferBalance_short (h ▸ hlt), h]
  · rw [transferBalance_covered hlt, transferBalance_covered (h ▸ hlt)]
    simp only [getBalance_applyMint, getBalance_applyBurn, h]

theorem le_getBalance_applyMint (w : World) (a b : Address) (amount : U256) :
    (w.getBalance a).toNat ≤ ((w.applyMint b amount).getBalance a).toNat := by
  rw [getBalance_applyMint]
  by_cases hab : a = b
  · have := toNat_le_u256Max (w.getBalance b)
    rw [hab, update_self, toNat_satAdd256]
    omega
  · rw [update_of_ne hab]

theorem le_getBalance_transferBalance {w : World} (amount : U256) {a : Address}
    (ha : a ≠ src ∨ a = dst) :
    (w.getBalance a).toNat ≤ ((transferBalance w src dst amount).getBalance a).toNat := by
  by_cases h : w.getBalance src < amount
  · rw [transferBalance_short h]
  · rw [transferBalance_covered h]
    by_cases hsrc : a = src
    · have hdst : a = dst := ha.resolve_left fun hne => hne hsrc
      have hle : amount.toNat ≤ (w.getBalance src).toNat := BitVec.not_lt.mp h
      have hmax := toNat_le_u256Max (w.getBalance src)
      subst hdst
      subst hsrc
      rw [getBalance_applyMint, getBalance_applyBurn, update_self,
        update_self, toNat_satAdd256, toNat_satSub256]
      omega
    · refine Nat.le_trans ?_ (le_getBalance_applyMint _ a dst amount)
      rw [getBalance_applyBurn, update_of_ne hsrc]

/-- What a covered transfer takes from its source is at most the amount. -/
theorem getBalance_transferBalance_src {w : World} {src : Address} (dst : Address) {amount : U256}
    (h : ¬ w.getBalance src < amount) :
    (w.getBalance src).toNat ≤
      ((transferBalance w src dst amount).getBalance src).toNat + amount.toNat := by
  have hle : amount.toNat ≤ (w.getBalance src).toNat := BitVec.not_lt.mp h
  rw [transferBalance_covered h]
  have hmint := le_getBalance_applyMint (w.applyBurn src amount) src dst amount
  rw [getBalance_applyBurn, update_self, toNat_satSub256] at hmint
  omega

/-- A covered transfer succeeds, and does what `transferBalance` does. -/
theorem applyBalanceOp_covered {w : World} {src : Address} (dst : Address) {amount : U256}
    (h : amount.toNat ≤ (w.getBalance src).toNat) :
    applyBalanceOp w (some src) (some dst) amount = .ok (transferBalance w src dst amount) := by
  have hlt : ¬ w.getBalance src < amount := BitVec.not_lt.mpr h
  unfold transferBalance balanceOp
  unfold applyBalanceOp
  by_cases h0 : amount = 0
  · simp only [h0, if_true]
  · simp only [h0, hlt, if_false]

theorem toNat_getBalance_covered {w : World} {src dst : Address} {amount : U256} (hne : src ≠ dst)
    (hcovered : amount.toNat ≤ (w.getBalance src).toNat) (a : Address) :
    ((transferBalance w src dst amount).getBalance a).toNat =
      if a = dst then min ((w.getBalance dst).toNat + amount.toNat) u256Max
      else if a = src then (w.getBalance src).toNat - amount.toNat
      else (w.getBalance a).toNat := by
  rw [transferBalance_covered (BitVec.not_lt.mpr hcovered), getBalance_applyMint,
    getBalance_applyBurn, update_of_ne hne.symm]
  by_cases hdst : a = dst
  · rw [if_pos hdst, hdst, update_self, toNat_satAdd256]
  · rw [if_neg hdst, update_of_ne hdst]
    by_cases hsrc : a = src
    · rw [if_pos hsrc, hsrc, update_self, toNat_satSub256]
    · rw [if_neg hsrc, update_of_ne hsrc]

/-! ## What they leave alone -/

/-- The world without its accounts: what the ArbOS state holds. -/
def World.books (w : World) : World := { w with accounts := fun _ => none }

theorem l1FeesAvailable_of_books {w w' : World} (h : w'.books = w.books) :
    w'.l1FeesAvailable = w.l1FeesAvailable :=
  (congrArg World.l1FeesAvailable h : w'.books.l1FeesAvailable = w.books.l1FeesAvailable)

theorem books_applyMint (w : World) (a : Address) (amount : U256) :
    (w.applyMint a amount).books = w.books := by
  unfold applyMint
  split
  · rfl
  · split <;> rfl

theorem books_applyBurn (w : World) (a : Address) (amount : U256) :
    (w.applyBurn a amount).books = w.books := by
  unfold applyBurn
  split
  · rfl
  · split <;> rfl

theorem books_transferBalance (w : World) (src dst : Address) (amount : U256) :
    (transferBalance w src dst amount).books = w.books := by
  by_cases h : w.getBalance src < amount
  · rw [transferBalance_short h]
  · rw [transferBalance_covered h, books_applyMint, books_applyBurn]

/-- A change of the world that keeps nonces and the filter, and changes no balance outside `A`
    and no ticket outside `T`. -/
structure Frame (A : Address → Prop) (T : B256 → Prop) (w w' : World) : Prop where
  nonce : ∀ a, w'.getNonce a = w.getNonce a
  balance : ∀ a, ¬ A a → w'.getBalance a = w.getBalance a
  ticket : ∀ id, ¬ T id → w'.tickets id = w.tickets id
  filtered : w'.filtered = w.filtered

section Frame

variable {A : Address → Prop} {T : B256 → Prop} {w w' w'' : World}

theorem Frame.refl (w : World) : Frame A T w w := ⟨fun _ => rfl, fun _ _ => rfl, fun _ _ => rfl, rfl⟩

theorem Frame.trans (h : Frame A T w w') (h' : Frame A T w' w'') : Frame A T w w'' where
  nonce a := (h'.nonce a).trans (h.nonce a)
  balance a ha := (h'.balance a ha).trans (h.balance a ha)
  ticket id hid := (h'.ticket id hid).trans (h.ticket id hid)
  filtered := h'.filtered.trans h.filtered

theorem Frame.mono {A' : Address → Prop} {T' : B256 → Prop} (h : Frame A T w w')
    (hA : ∀ a, A a → A' a) (hT : ∀ id, T id → T' id) : Frame A' T' w w' where
  nonce := h.nonce
  balance a ha := h.balance a fun ha' => ha (hA a ha')
  ticket id hid := h.ticket id fun hid' => hid (hT id hid')
  filtered := h.filtered

/-- A step that moves balances at most. -/
theorem Frame.tickets_eq (h : Frame (fun _ => True) (fun _ => False) w w') : w'.tickets = w.tickets :=
  funext fun id => h.ticket id not_false

/-- Only the pricing counters differ. -/
theorem Frame.of_eq (hacc : w'.accounts = w.accounts) (htick : w'.tickets = w.tickets)
    (hfilt : w'.filtered = w.filtered) : Frame A T w w' where
  nonce a := by simp only [getNonce, hacc]
  balance a _ := by simp only [World.getBalance, hacc]
  ticket id _ := by rw [htick]
  filtered := hfilt

variable {a : Address} (amount : U256)

theorem frame_setAccount {acct : Account} (ha : A a) (hnonce : acct.nonce = w.getNonce a) :
    Frame A T w (w.setAccount a (some acct)) where
  nonce b := by
    by_cases hb : b = a
    · subst hb
      simp [getNonce, World.setAccount, hnonce]
    · simp [getNonce, World.setAccount, hb]
  balance b hb := by
    have hne : b ≠ a := fun he => hb (he ▸ ha)
    rw [getBalance_setAccount, update_of_ne hne]
  ticket _ _ := rfl
  filtered := rfl

theorem frame_applyMint (ha : A a) : Frame A T w (w.applyMint a amount) := by
  unfold applyMint
  split
  · exact .refl w
  · cases hacct : w.accounts a with
    | some acct => exact frame_setAccount ha (by simp only [getNonce, hacct])
    | none => exact frame_setAccount ha (by simp only [getNonce, hacct])

theorem frame_applyBurn (ha : A a) : Frame A T w (w.applyBurn a amount) := by
  unfold applyBurn
  split
  · exact .refl w
  · cases hacct : w.accounts a with
    | some acct => exact frame_setAccount ha (by simp only [getNonce, hacct])
    | none => exact .refl w

theorem frame_mintBalance (ha : A a) : Frame A T w (mintBalance w a amount) :=
  mintBalance_eq w a amount ▸ frame_applyMint amount ha

theorem frame_burnBalance (ha : A a) : Frame A T w (burnBalance w a amount) :=
  burnBalance_eq w a amount ▸ frame_applyBurn amount ha

theorem frame_transferBalance {src dst : Address} (hsrc : A src) (hdst : A dst) :
    Frame A T w (transferBalance w src dst amount) := by
  by_cases h : w.getBalance src < amount
  · rw [transferBalance_short h]
    exact .refl w
  · rw [transferBalance_covered h]
    exact (frame_applyBurn amount hsrc).trans (frame_applyMint amount hdst)

/-- An empty account appears: nothing reads differently. -/
theorem frame_materialiseEmpty (w : World) (a : Address) : Frame A T w (w.materialiseEmpty a) := by
  unfold materialiseEmpty
  cases hacct : w.accounts a with
  | some acct => exact .refl w
  | none =>
    have hbal : w.getBalance a = 0 := by simp only [World.getBalance, hacct]
    have hset : (w.setAccount a (some ⟨0, 0, false⟩)).getBalance = w.getBalance := by
      rw [getBalance_setAccount, ← hbal, update_eq_self]
    have hnonce : Frame (fun _ => True) T w (w.setAccount a (some ⟨0, 0, false⟩)) :=
      frame_setAccount trivial (by simp only [getNonce, hacct])
    exact ⟨hnonce.nonce, fun b _ => congrFun hset b, hnonce.ticket, rfl⟩

end Frame

end Arbreth.Exec
