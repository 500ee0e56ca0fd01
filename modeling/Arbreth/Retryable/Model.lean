/-
  Retryable tickets over time (arbos, retryables/mod.rs).

  The life of a ticket is driven by five operations: it is created with a timeout, kept alive
  (one window of a week more, and one more entry in the timeout queue), cancelled, deleted, or
  reaped. The reaper looks at the oldest queue entry only: it drops the entry of a ticket that
  is gone, waits for one whose timeout is not over, turns a window into a later timeout, or
  deletes the ticket.

  `step` is one call of an operation at a timestamp. Beside the state it keeps what the calls
  have returned: the timeout each ticket was created with, how many keepalives succeeded, and
  whether it was cancelled or deleted by a call from outside the reaper. Ids are fresh and
  timeouts nonzero. Storage never fails and transfers succeed.
-/
import Arbreth.Exec.Retryables
import Arbreth.Lib.Run
import Arbreth.Storage.Queue

namespace Arbreth.Retryable

open Arbreth.Lib Arbreth.Exec Arbreth.Storage Function

/-- What the operations run with: the version, the hash, and a transfer, which leaves the
    tickets alone. -/
structure Env where
  arbosVersion : Nat
  keccak256 : Bytes → B256
  transfer : World → Address → Address → U256 → World
  transfer_tickets : ∀ w src dst amount, (transfer w src dst amount).tickets = w.tickets

/-- `RetryableState`. -/
structure RetryableState where
  world : World
  queue : Queue

/-- `initialize_retryable_state`, in a world without tickets. -/
def RetryableState.init (w : World) : RetryableState :=
  ⟨{ w with tickets := fun _ => Ticket.cleared }, Queue.init⟩

inductive LookupOutcome (α : Type) where
  | found (a : α)
  | noTicket
  deriving DecidableEq

structure RetryableLookup (α : Type) where
  outcome : LookupOutcome α
  extraGas : Nat
  deriving DecidableEq

/-- `RetryableError`, of which only this one does not come from the storage or a transfer. -/
inductive RetryableError where
  | timeoutTooFarFuture
  deriving DecidableEq

def windowsLeftSloadGas : Nat := 800

/-- `calculate_timeout`. -/
def calculateTimeout (t : Ticket) : Nat :=
  wrap64 (t.timeout + wrap64 (t.timeoutWindowsLeft * retryableLifetimeSeconds))

theorem calculateTimeout_eq {t : Ticket} {deadline : Nat}
    (hsum : t.timeout + t.timeoutWindowsLeft * retryableLifetimeSeconds = deadline)
    (hfits : deadline < 2 ^ 64) : calculateTimeout t = deadline := by
  unfold calculateTimeout
  rw [wrap64_of_lt (n := t.timeoutWindowsLeft * retryableLifetimeSeconds) (by omega), hsum,
    wrap64_of_lt hfits]

theorem window_to_timeout {t : Ticket} (h : t.timeoutWindowsLeft ≠ 0) :
    t.timeoutWindowsLeft * retryableLifetimeSeconds =
      (t.timeoutWindowsLeft - 1) * retryableLifetimeSeconds + retryableLifetimeSeconds := by
  rw [← Nat.succ_mul, Nat.succ_eq_add_one, Nat.sub_add_cancel (Nat.one_le_iff_ne_zero.mpr h)]

section Operations

variable (e : Env)

/-- `open_retryable_metered`: the ticket and the gas of the extra read. -/
def openRetryableMetered (w : World) (id : B256) (now : Nat) : Option Ticket × Nat :=
  let t := w.tickets id
  if t.timeout = 0 then (none, 0)
  else if t.timeout < now then
    if 60 ≤ e.arbosVersion then
      let effective := satAdd64 t.timeout (satMul64 t.timeoutWindowsLeft retryableLifetimeSeconds)
      if effective < now then (none, windowsLeftSloadGas) else (some t, windowsLeftSloadGas)
    else (none, 0)
  else (some t, 0)

/-- `get_timeout`. -/
def getTimeout (w : World) (id : B256) (now : Nat) : RetryableLookup Nat :=
  let opened := openRetryableMetered e w id now
  match opened.1 with
  | some t => ⟨.found (calculateTimeout t), opened.2⟩
  | none => ⟨.noTicket, opened.2⟩

/-- `create_retryable`. -/
def RetryableState.createRetryable (s : RetryableState) (id : B256) (timeout : Nat)
    (sender : Address) (toAddr : Option Address) (callvalue : U256) (beneficiary : Address)
    (calldata : Bytes) : Option RetryableState :=
  let w := s.world.createRetryable id timeout sender toAddr callvalue beneficiary calldata
  (s.queue.put id).map fun q => ⟨w, q⟩

/-- `keepalive`. -/
def RetryableState.keepalive (s : RetryableState) (id : B256) (now limitBeforeAdd : Nat) :
    Option (Except RetryableError (RetryableLookup Nat) × RetryableState) :=
  let opened := openRetryableMetered e s.world id now
  match opened.1 with
  | none => some (.ok ⟨.noTicket, opened.2⟩, s)
  | some t =>
    let timeout := calculateTimeout t
    if limitBeforeAdd < timeout then some (.error .timeoutTooFarFuture, s)
    else
      let w := s.world.setTicket id { t with timeoutWindowsLeft := wrap64 (t.timeoutWindowsLeft + 1) }
      (s.queue.put id).map fun q =>
        (.ok ⟨.found (wrap64 (timeout + retryableLifetimeSeconds)), opened.2⟩, ⟨w, q⟩)

/-- `delete_retryable`: whether the ticket existed. -/
def deleteRetryable (w : World) (id : B256) : Bool × World :=
  let t := w.tickets id
  if t.timeout = 0 then (false, w)
  else
    let escrow := retryableEscrowAddress e.keccak256 id
    (true, (e.transfer w escrow t.beneficiary (w.getBalance escrow)).clearTicketFields id)

/-- `try_to_reap_one_retryable`. -/
def RetryableState.tryToReapOneRetryable (s : RetryableState) (now : Nat) : RetryableState :=
  match s.queue.peek with
  | none => s
  | some id =>
    let t := s.world.tickets id
    if t.timeout = 0 then ⟨s.world, s.queue.get.2⟩
    else if now ≤ t.timeout then s
    else if t.timeoutWindowsLeft = 0 then ⟨(deleteRetryable e s.world id).2, s.queue.get.2⟩
    else
      let t := { t with
        timeout := wrap64 (t.timeout + retryableLifetimeSeconds)
        timeoutWindowsLeft := t.timeoutWindowsLeft - 1 }
      ⟨s.world.setTicket id t, s.queue.get.2⟩

end Operations

/-! ## Runs -/

inductive Op where
  | create (id : B256) (timeout : Nat) (sender : Address) (toAddr : Option Address)
      (callvalue : U256) (beneficiary : Address) (calldata : Bytes)
  | keepalive (id : B256) (limitBeforeAdd : Nat)
  | cancel (id : B256) (caller : Address)
  | delete (id : B256)
  | reap
  deriving DecidableEq

/-- An operation and the timestamp at which it is called. -/
structure Call where
  now : Nat
  op : Op
  deriving DecidableEq

/-- What the calls have returned for a ticket. -/
structure Life where
  timeout0 : Nat
  keepalives : Nat
  ended : Bool
  deriving DecidableEq

/-- The timeout it was created with and a week for each keepalive. -/
def Life.deadline (l : Life) : Nat := l.timeout0 + l.keepalives * retryableLifetimeSeconds

structure Sys where
  state : RetryableState
  lives : B256 → Option Life
  now : Nat

/-- Before the first call. -/
def Sys.init (w : World) : Sys := ⟨RetryableState.init w, fun _ => none, 0⟩

/-- Note the outcome of a call on a ticket. -/
def Sys.note (s : Sys) (id : B256) (f : Life → Life) : B256 → Option Life :=
  update s.lives id ((s.lives id).map f)

variable {id : B256} (f : Life → Life)

theorem Sys.note_self {s : Sys} {l : Life} (h : s.lives id = some l) :
    s.note id f id = some (f l) := by
  rw [Sys.note, update_self, h, Option.map_some]

theorem Sys.note_of_ne {s : Sys} {id x : B256} (hid : id ≠ x) :
    s.note x f id = s.lives id := update_of_ne hid _ _

def keptAlive : Except RetryableError (RetryableLookup Nat) → Bool
  | .ok ⟨.found _, _⟩ => true
  | _ => false

def wasCleared : CancelOutcome → Bool
  | .cleared _ => true
  | _ => false

/-- One call. -/
def step (e : Env) (s : Sys) (c : Call) : Option Sys :=
  match c.op with
  | .create id timeout sender toAddr callvalue beneficiary calldata =>
    if s.lives id = none ∧ timeout ≠ 0 then
      (s.state.createRetryable id timeout sender toAddr callvalue beneficiary calldata).map fun st =>
        ⟨st, update s.lives id (some ⟨timeout, 0, false⟩), c.now⟩
    else none
  | .keepalive id limit =>
    (s.state.keepalive e id c.now limit).map fun r =>
      let more (l : Life) : Life := { l with keepalives := l.keepalives + 1 }
      ⟨r.2, if keptAlive r.1 then s.note id more else s.lives, c.now⟩
  | .cancel id caller =>
    let r := cancel e.arbosVersion s.state.world id caller c.now
    let stop (l : Life) : Life := { l with ended := true }
    some ⟨⟨r.2, s.state.queue⟩, if wasCleared r.1 then s.note id stop else s.lives, c.now⟩
  | .delete id =>
    let r := deleteRetryable e s.state.world id
    let stop (l : Life) : Life := { l with ended := true }
    some ⟨⟨r.2, s.state.queue⟩, if r.1 then s.note id stop else s.lives, c.now⟩
  | .reap => some ⟨s.state.tryToReapOneRetryable e c.now, s.lives, c.now⟩

/-- Timestamps do not decrease. -/
def Timely (s : Sys) (c : Call) : Prop := s.now ≤ c.now

instance (s : Sys) (c : Call) : Decidable (Timely s c) := inferInstanceAs (Decidable (_ ≤ _))

/-! ## What a call can do -/

abbrev Sys.tickets (s : Sys) : B256 → Ticket := s.state.world.tickets

abbrev Sys.entries (s : Sys) : List B256 := s.state.queue.entries

/-- Why a call changes nothing. -/
def Idle (e : Env) (s : Sys) (c : Call) : Prop :=
  match c.op with
  | .create .. => False
  | .keepalive id limit =>
    ∀ t, openRetryable e.arbosVersion s.state.world id c.now = some t → limit < calculateTimeout t
  | .cancel id caller =>
    ∀ t, openRetryable e.arbosVersion s.state.world id c.now = some t → caller ≠ t.beneficiary
  | .delete id => (s.tickets id).timeout = 0
  | .reap => ∀ id ∈ s.entries.head?, (s.tickets id).timeout ≠ 0 ∧ c.now ≤ (s.tickets id).timeout

/-- The calls that clear the ticket `id` from outside the reaper. -/
def Clears (e : Env) (s : Sys) (c : Call) (id : B256) : Prop :=
  (∃ t, c.op = .cancel id t.beneficiary ∧
      openRetryable e.arbosVersion s.state.world id c.now = some t) ∨
    c.op = .delete id

/-- What one call does to tickets, queue and notes. -/
inductive StepCase (e : Env) (s : Sys) (c : Call) : (B256 → Ticket) → List B256 →
    (B256 → Option Life) → Prop
  | idle (hidle : Idle e s c) : StepCase e s c s.tickets s.entries s.lives
  | created (id : B256) (t : Ticket) (sender : Address) (toAddr : Option Address) (callvalue : U256)
      (calldata : Bytes)
      (hop : c.op = .create id t.timeout sender toAddr callvalue t.beneficiary calldata)
      (hfresh : s.lives id = none) (htimeout : t.timeout ≠ 0) (hwindows : t.timeoutWindowsLeft = 0) :
      StepCase e s c (update s.tickets id t) (s.entries ++ [id])
        (update s.lives id (some ⟨t.timeout, 0, false⟩))
  | extended (id : B256) (limit : Nat) (t : Ticket) (hop : c.op = .keepalive id limit)
      (hopen : openRetryable e.arbosVersion s.state.world id c.now = some t)
      (hlimit : calculateTimeout t ≤ limit) (hroom : (s.entries ++ [id]).length < 2 ^ 64) :
      StepCase e s c
        (update s.tickets id { t with timeoutWindowsLeft := wrap64 (t.timeoutWindowsLeft + 1) })
        (s.entries ++ [id]) (s.note id fun l => { l with keepalives := l.keepalives + 1 })
  | cleared (id : B256) (hclears : Clears e s c id) (hlive : (s.tickets id).timeout ≠ 0) :
      StepCase e s c (update s.tickets id Ticket.cleared) s.entries
        (s.note id fun l => { l with ended := true })
  | popped (id : B256) (rest : List B256) (hop : c.op = .reap) (hhead : s.entries = id :: rest)
      (hgone : (s.tickets id).timeout = 0) : StepCase e s c s.tickets rest s.lives
  | prolonged (id : B256) (rest : List B256) (hop : c.op = .reap) (hhead : s.entries = id :: rest)
      (hlive : (s.tickets id).timeout ≠ 0) (hover : (s.tickets id).timeout < c.now)
      (hwindows : (s.tickets id).timeoutWindowsLeft ≠ 0) :
      StepCase e s c
        (update s.tickets id { s.tickets id with
          timeout := wrap64 ((s.tickets id).timeout + retryableLifetimeSeconds)
          timeoutWindowsLeft := (s.tickets id).timeoutWindowsLeft - 1 }) rest s.lives
  | reaped (id : B256) (rest : List B256) (hop : c.op = .reap) (hhead : s.entries = id :: rest)
      (hlive : (s.tickets id).timeout ≠ 0) (hover : (s.tickets id).timeout < c.now)
      (hwindows : (s.tickets id).timeoutWindowsLeft = 0) :
      StepCase e s c (update s.tickets id Ticket.cleared) rest s.lives

theorem openRetryableMetered_fst (e : Env) (w : World) (id : B256) (now : Nat) :
    (openRetryableMetered e w id now).1 = openRetryable e.arbosVersion w id now := by
  unfold openRetryableMetered openRetryable
  dsimp only
  split
  · rfl
  · split
    · split
      · split <;> rfl
      · rfl
    · rfl

variable {e : Env} {s s' : Sys} {c : Call}

theorem deleteRetryable_tickets {w : World} (hlive : (w.tickets id).timeout ≠ 0) :
    (deleteRetryable e w id).2.tickets = update w.tickets id Ticket.cleared := by
  unfold deleteRetryable
  rw [if_neg hlive]
  exact congrArg (update · id Ticket.cleared) (e.transfer_tickets _ _ _ _)

theorem keepalive_cases {limit : Nat} (hop : c.op = .keepalive id limit)
    {r : Except RetryableError (RetryableLookup Nat) × RetryableState}
    (hr : s.state.keepalive e id c.now limit = some r) :
    StepCase e s c r.2.world.tickets r.2.queue.entries
      (if keptAlive r.1 then s.note id fun l => { l with keepalives := l.keepalives + 1 }
        else s.lives) := by
  unfold RetryableState.keepalive at hr
  simp only [openRetryableMetered_fst] at hr
  cases hopen : openRetryable e.arbosVersion s.state.world id c.now with
  | none =>
    rw [hopen] at hr
    cases hr
    refine .idle ?_
    simp only [Idle, hop, hopen]
    intro t ht
    cases ht
  | some t =>
    simp only [hopen] at hr
    split at hr
    · next hlimit =>
      cases hr
      refine .idle ?_
      simp only [Idle, hop, hopen]
      intro t' ht'
      cases ht'
      exact hlimit
    · next hlimit =>
      obtain ⟨q, hq, rfl⟩ := Option.map_eq_some_iff.mp hr
      have hentries := Queue.entries_put hq
      have hroom := Queue.length_entries_lt q
      rw [hentries] at hroom
      have hcase := StepCase.extended id limit t hop hopen (Nat.le_of_not_lt hlimit) hroom
      rw [← hentries] at hcase
      exact hcase

theorem cancel_cases {caller : Address} (hop : c.op = .cancel id caller) :
    StepCase e s c (cancel e.arbosVersion s.state.world id caller c.now).2.tickets s.entries
      (if wasCleared (cancel e.arbosVersion s.state.world id caller c.now).1 then
        s.note id fun l => { l with ended := true } else s.lives) := by
  unfold cancel
  cases hopen : openRetryable e.arbosVersion s.state.world id c.now with
  | none =>
    refine .idle ?_
    simp only [Idle, hop, hopen]
    intro t ht
    cases ht
  | some t =>
    dsimp only
    split
    · next hcaller =>
      refine .idle ?_
      simp only [Idle, hop, hopen]
      intro t' ht'
      cases ht'
      exact hcaller
    · next hcaller =>
      have hcaller : caller = t.beneficiary := Classical.not_not.mp hcaller
      exact .cleared id (.inl ⟨t, hcaller ▸ hop, hopen⟩) (openRetryable_some hopen).2

theorem delete_cases (hop : c.op = .delete id) :
    StepCase e s c (deleteRetryable e s.state.world id).2.tickets s.entries
      (if (deleteRetryable e s.state.world id).1 then s.note id fun l => { l with ended := true }
        else s.lives) := by
  by_cases hlive : (s.tickets id).timeout = 0
  · have hnone : deleteRetryable e s.state.world id = (false, s.state.world) := if_pos hlive
    rw [hnone]
    refine .idle ?_
    simp only [Idle, hop]
    exact hlive
  · have hexisted : (deleteRetryable e s.state.world id).1 = true := by
      unfold deleteRetryable
      rw [if_neg hlive]
    rw [deleteRetryable_tickets hlive, hexisted]
    exact .cleared id (.inr hop) hlive

theorem reap_cases (hop : c.op = .reap) :
    StepCase e s c (s.state.tryToReapOneRetryable e c.now).world.tickets
      (s.state.tryToReapOneRetryable e c.now).queue.entries s.lives := by
  unfold RetryableState.tryToReapOneRetryable
  rw [Queue.peek_eq]
  cases hentries : s.state.queue.entries with
  | nil =>
    refine .idle ?_
    simp only [Idle, hop, Sys.entries, hentries]
    intro id hid
    cases hid
  | cons id rest =>
    have hrest : s.state.queue.get.2.entries = rest := by rw [Queue.entries_get, hentries]; rfl
    simp only [List.head?_cons]
    split
    · next hgone =>
      rw [hrest]
      exact .popped id rest hop hentries hgone
    · next hlive =>
      split
      · next hwait =>
        refine .idle ?_
        simp only [Idle, hop, Sys.entries, hentries]
        intro id' hid'
        cases hid'
        exact ⟨hlive, hwait⟩
      · next hover =>
        have hover := Nat.lt_of_not_le hover
        split
        · next hwindows =>
          rw [deleteRetryable_tickets hlive, hrest]
          exact .reaped id rest hop hentries hlive hover hwindows
        · next hwindows =>
          rw [hrest]
          exact .prolonged id rest hop hentries hlive hover hwindows

theorem step_cases (h : step e s c = some s') :
    StepCase e s c s'.tickets s'.entries s'.lives ∧ s'.now = c.now := by
  unfold step at h
  cases hop : c.op with
  | create id timeout sender toAddr callvalue beneficiary calldata =>
    simp only [hop] at h
    split at h
    · next hfresh =>
      obtain ⟨st, hst, rfl⟩ := Option.map_eq_some_iff.mp h
      obtain ⟨q, hq, rfl⟩ := Option.map_eq_some_iff.mp hst
      refine ⟨?_, rfl⟩
      have hcase := StepCase.created (e := e) (s := s) (c := c) id
        ⟨0, sender, toAddr, callvalue, beneficiary, calldata, timeout, 0⟩ sender toAddr callvalue
        calldata hop hfresh.1 hfresh.2 rfl
      rw [← Queue.entries_put hq] at hcase
      exact hcase
    · cases h
  | keepalive id limit =>
    simp only [hop] at h
    obtain ⟨r, hr, rfl⟩ := Option.map_eq_some_iff.mp h
    exact ⟨keepalive_cases hop hr, rfl⟩
  | cancel id caller =>
    simp only [hop] at h
    cases h
    exact ⟨cancel_cases hop, rfl⟩
  | delete id =>
    simp only [hop] at h
    cases h
    exact ⟨delete_cases hop, rfl⟩
  | reap =>
    simp only [hop] at h
    cases h
    exact ⟨reap_cases hop, rfl⟩

end Arbreth.Retryable
