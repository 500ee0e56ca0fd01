/-
  What users see of a ticket does not depend on the reaper.

  A user's view of a ticket is a deadline: the timeout it was created with and a week for each
  keepalive. `viewStep` moves it along without the reaper. `Agrees` relates the stored ticket
  to the view: the stored timeout and the windows left add up to the deadline, or the reaper has
  deleted the ticket and the deadline is over. Every call keeps the relation (`agrees_step`),
  so that lookups answer from the view alone, from ArbOS 60 on.
-/
import Arbreth.Retryable.Multiplicity

namespace Arbreth.Retryable

open Arbreth.Lib Arbreth.Exec Function Sys

variable {e : Env} {s s' : Sys} {c : Call} {id : B256}

/-! ## The view of a ticket -/

structure View where
  deadline : Nat
  beneficiary : Address

/-- The view after a call; the reaper does not appear. -/
def viewStep (id : B256) (a : Option View) (c : Call) : Option View :=
  match c.op with
  | .create id' timeout _ _ _ beneficiary _ => if id' = id then some ⟨timeout, beneficiary⟩ else a
  | .keepalive id' limit =>
    if id' = id then
      a.map fun v =>
        if c.now ≤ v.deadline ∧ v.deadline ≤ limit then
          { v with deadline := v.deadline + retryableLifetimeSeconds }
        else v
    else a
  | .cancel id' caller =>
    if id' = id then a.filter fun v => ¬ (c.now ≤ v.deadline ∧ caller = v.beneficiary) else a
  | .delete id' => if id' = id then none else a
  | .reap => a

/-- The ticket an operation names. -/
def Op.ticket : Op → Option B256
  | .create id .. => some id
  | .keepalive id _ => some id
  | .cancel id _ => some id
  | .delete id => some id
  | .reap => none

variable {calls : List Call} {w : World} {a : Option View} {l : Option Life}
  {tickets : B256 → Ticket} {entries : List B256} {lives : B256 → Option Life}

theorem viewStep_other (h : c.op.ticket ≠ some id) : viewStep id a c = a := by
  unfold viewStep
  cases hop : c.op with
  | reap => rfl
  | create id' | keepalive id' | cancel id' | delete id' =>
    have hne : id' ≠ id := fun he => h (by rw [hop, ← he]; rfl)
    exact if_neg hne

/-- The stored ticket, the notes on it and the view belong together. -/
inductive Agrees (t : Ticket) (now : Nat) : Option Life → Option View → Prop
  | fresh (hgone : t.timeout = 0) : Agrees t now none none
  | stored (l : Life) (v : View) (hgoes : l.ended = false) (hview : v.deadline = l.deadline)
      (hlive : t.timeout ≠ 0)
      (hsum : t.timeout + t.timeoutWindowsLeft * retryableLifetimeSeconds = l.deadline)
      (hbeneficiary : t.beneficiary = v.beneficiary) : Agrees t now (some l) (some v)
  | reaped (l : Life) (v : View) (hgoes : l.ended = false) (hview : v.deadline = l.deadline)
      (hgone : t.timeout = 0) (hover : l.deadline < now) : Agrees t now (some l) (some v)
  | ended (l : Life) (hgone : t.timeout = 0) (hended : l.ended = true ∨ l.deadline < now) :
      Agrees t now (some l) none

theorem Agrees.mono {t : Ticket} {now now' : Nat} (h : Agrees t now l a) (hnow : now ≤ now') :
    Agrees t now' l a := by
  cases h with
  | fresh hgone => exact .fresh hgone
  | stored l v hgoes hview hlive hsum hben => exact .stored l v hgoes hview hlive hsum hben
  | reaped l v hgoes hview hgone hover => exact .reaped l v hgoes hview hgone (hover.trans_le hnow)
  | ended l hgone hended =>
    exact .ended l hgone (hended.imp_right fun hover => hover.trans_le hnow)

/-! ## What lookups answer -/

variable {t : Ticket} {deadline : Nat}

theorem openRetryable_stored (hv : 60 ≤ e.arbosVersion) (hlive : (w.tickets id).timeout ≠ 0)
    (hsum : (w.tickets id).timeout + (w.tickets id).timeoutWindowsLeft * retryableLifetimeSeconds =
      deadline) (hfits : deadline < 2 ^ 64) (now : Nat) :
    openRetryable e.arbosVersion w id now = if now ≤ deadline then some (w.tickets id) else none := by
  have heffective : satAdd64 (w.tickets id).timeout
      (satMul64 (w.tickets id).timeoutWindowsLeft retryableLifetimeSeconds) = deadline := by
    unfold satAdd64 satMul64 u64Max
    omega
  unfold openRetryable
  simp only [if_neg hlive, if_pos hv, heffective]
  by_cases hnow : now ≤ deadline
  · rw [if_pos hnow, if_neg (Nat.not_lt.mpr hnow)]
    split <;> rfl
  · rw [if_neg hnow, if_pos (Nat.lt_of_not_le hnow), if_pos (by omega)]

theorem le_deadline_of_open {now : Nat} {t' : Ticket} (hv : 60 ≤ e.arbosVersion)
    (hlive : (w.tickets id).timeout ≠ 0)
    (hsum : (w.tickets id).timeout + (w.tickets id).timeoutWindowsLeft * retryableLifetimeSeconds =
      deadline) (hfits : deadline < 2 ^ 64)
    (hopen : openRetryable e.arbosVersion w id now = some t') : now ≤ deadline := by
  rw [openRetryable_stored hv hlive hsum hfits] at hopen
  by_contra hlate
  rw [if_neg hlate] at hopen
  cases hopen

theorem openRetryable_gone {v : Nat} (hgone : (w.tickets id).timeout = 0) (now : Nat) :
    openRetryable v w id now = none := if_pos hgone

theorem getTimeout_outcome (w : World) (now : Nat) : (getTimeout e w id now).outcome =
    match openRetryable e.arbosVersion w id now with
    | some t => .found (calculateTimeout t)
    | none => .noTicket := by
  unfold getTimeout
  dsimp only
  rw [openRetryableMetered_fst]
  cases openRetryable e.arbosVersion w id now with
  | none => rfl
  | some t => rfl

/-- The answers follow from the view. -/
def viewTimeout (a : Option View) (now : Nat) : LookupOutcome Nat :=
  match a with
  | some v => if now ≤ v.deadline then .found v.deadline else .noTicket
  | none => .noTicket

theorem agrees_outcome {now now' : Nat} (h : Agrees (w.tickets id) now l a)
    (hv : 60 ≤ e.arbosVersion) (hfits : ∀ l', l = some l' → l'.deadline < 2 ^ 64)
    (hnow : now ≤ now') : (getTimeout e w id now').outcome = viewTimeout a now' := by
  rw [getTimeout_outcome]
  cases h with
  | fresh hgone => rw [openRetryable_gone hgone]; rfl
  | stored l v _ hview hlive hsum _ =>
    rw [openRetryable_stored hv hlive hsum (hfits l rfl), viewTimeout, hview]
    by_cases hopen : now' ≤ l.deadline
    · simp only [if_pos hopen, calculateTimeout_eq hsum (hfits l rfl)]
    · simp only [if_neg hopen]
  | reaped l v _ hview hgone hover =>
    rw [openRetryable_gone hgone, viewTimeout, hview, if_neg (by omega)]
  | ended l hgone _ => rw [openRetryable_gone hgone]; rfl

/-- Unless a call from outside ended it, a ticket's notes and its view show the same. -/
theorem agrees_life {now now' : Nat} {l : Life} (h : Agrees t now (some l) a)
    (hgoes : l.ended = false) (hnow : now ≤ now') :
    viewTimeout a now' = if now' ≤ l.deadline then .found l.deadline else .noTicket := by
  cases h with
  | stored l v _ hview _ _ _ => simp only [viewTimeout, hview]
  | reaped l v _ hview _ _ => simp only [viewTimeout, hview]
  | ended l _ hended =>
    rcases hended with hended | hover
    · rw [hgoes] at hended
      cases hended
    · rw [if_neg (by omega)]
      rfl

/-! ## Every call keeps the agreement -/

/-- A call that changes nothing does not move the view of a stored ticket either. -/
theorem viewStep_idle {l : Life} {v : View} (hv : 60 ≤ e.arbosVersion) (hidle : Idle e s c)
    (hview : v.deadline = l.deadline) (hlive : (s.tickets id).timeout ≠ 0)
    (hsum : (s.tickets id).timeout + (s.tickets id).timeoutWindowsLeft * retryableLifetimeSeconds =
      l.deadline) (hbeneficiary : (s.tickets id).beneficiary = v.beneficiary)
    (hfits : l.deadline < 2 ^ 64) : viewStep id (some v) c = some v := by
  by_cases hticket : c.op.ticket = some id
  · have hopen := openRetryable_stored (e := e) (w := s.state.world) hv hlive hsum hfits c.now
    unfold Idle at hidle
    unfold viewStep
    cases hop : c.op with
    | reap => rfl
    | create id' =>
      rw [hop] at hidle
      exact hidle.elim
    | keepalive id' limit =>
      rw [hop] at hticket hidle
      cases hticket
      simp only [if_true, Option.map_some, hview]
      rw [if_neg]
      rintro ⟨hnow, hlimit⟩
      rw [if_pos hnow] at hopen
      have := hidle _ hopen
      rw [calculateTimeout_eq hsum hfits] at this
      omega
    | cancel id' caller =>
      rw [hop] at hticket hidle
      cases hticket
      simp only [if_true, Option.filter_some, hview]
      rw [if_pos]
      refine decide_eq_true ?_
      rintro ⟨hnow, hcaller⟩
      rw [if_pos hnow] at hopen
      exact hidle _ hopen (hcaller.trans hbeneficiary.symm)
    | delete id' =>
      rw [hop] at hticket hidle
      cases hticket
      exact absurd hidle hlive
  · exact viewStep_other hticket

/-- Of a view that is over, or that is none, a call that changes nothing leaves all or nothing. -/
theorem viewStep_late (hidle : Idle e s c) (hover : ∀ v ∈ a, v.deadline < c.now) :
    viewStep id a c = a ∨ viewStep id a c = none := by
  unfold Idle at hidle
  unfold viewStep
  cases hop : c.op with
  | reap => exact .inl rfl
  | create id' =>
    rw [hop] at hidle
    exact hidle.elim
  | keepalive id' limit | cancel id' caller =>
    left
    cases a with
    | none => exact ite_self _
    | some v => simp [Nat.not_le.mpr (hover v rfl)]
  | delete id' =>
    by_cases hid : id' = id
    · exact .inr (if_pos hid)
    · exact .inl (if_neg hid)

theorem agrees_idle (hv : 60 ≤ e.arbosVersion) (h : Agrees (s.tickets id) s.now (s.lives id) a)
    (htimely : Timely s c) (hidle : Idle e s c)
    (hfits : ∀ l, s.lives id = some l → l.deadline < 2 ^ 64) :
    Agrees (s.tickets id) c.now (s.lives id) (viewStep id a c) := by
  have hlater := h.mono htimely
  generalize hlife : s.lives id = life at h hlater hfits
  cases h with
  | stored l v hgoes hview hlive hsum hben =>
    rwa [viewStep_idle hv hidle hview hlive hsum hben (hfits l rfl)]
  | reaped l v hgoes hview hgone hover =>
    have hpast : l.deadline < c.now := hover.trans_le htimely
    rcases viewStep_late (a := some v) hidle (by simpa [hview] using hpast) with hsame | hnone
    · rwa [hsame]
    · rw [hnone]
      exact .ended l hgone (.inr hpast)
  | fresh hgone | ended l hgone hended =>
    rwa [or_self_iff.mp (viewStep_late (a := none) hidle nofun)]

theorem Agrees.of_live {now : Nat} (h : Agrees t now l a) (hlive : t.timeout ≠ 0) :
    ∃ l' v, l = some l' ∧ a = some v ∧ l'.ended = false ∧
      v.deadline = l'.deadline ∧
      t.timeout + t.timeoutWindowsLeft * retryableLifetimeSeconds = l'.deadline ∧
      t.beneficiary = v.beneficiary := by
  cases h with
  | fresh hgone | reaped l v _ _ hgone _ | ended l hgone _ => exact absurd hgone hlive
  | stored l v hgoes hview _ hsum hben => exact ⟨l, v, rfl, rfl, hgoes, hview, hsum, hben⟩

/-- A keepalive moves the deadline by one window on both sides. -/
theorem agrees_extended {limit : Nat} (hv : 60 ≤ e.arbosVersion)
    (h : Agrees (s.tickets id) s.now (s.lives id) a) (hop : c.op = .keepalive id limit)
    (hopen : openRetryable e.arbosVersion s.state.world id c.now = some t)
    (hlimit : calculateTimeout t ≤ limit)
    (hfits : ∀ l, s.note id (fun l => { l with keepalives := l.keepalives + 1 }) id = some l →
      l.deadline < 2 ^ 64) :
    Agrees { t with timeoutWindowsLeft := wrap64 (t.timeoutWindowsLeft + 1) } c.now
      (s.note id (fun l => { l with keepalives := l.keepalives + 1 }) id) (viewStep id a c) := by
  obtain ⟨rfl, hlive⟩ := openRetryable_some hopen
  obtain ⟨l, v, hl, rfl, hgoes, hview, hsum, hben⟩ := h.of_live hlive
  have hnote := note_self (fun l => { l with keepalives := l.keepalives + 1 }) hl
  have hmore : ({ l with keepalives := l.keepalives + 1 } : Life).deadline =
      l.deadline + retryableLifetimeSeconds := by
    simp only [Life.deadline, Nat.add_mul, Nat.one_mul, Nat.add_assoc]
  have hroom := hfits _ hnote
  rw [hmore] at hroom
  have hold : l.deadline < 2 ^ 64 := by omega
  have hnow := le_deadline_of_open hv hlive hsum hold hopen
  rw [calculateTimeout_eq hsum hold] at hlimit
  have hwindows : (s.tickets id).timeoutWindowsLeft + 1 < 2 ^ 64 := by
    unfold retryableLifetimeSeconds at hsum hroom
    omega
  rw [hnote]
  simp only [viewStep, hop, if_true, Option.map_some, hview, hnow, hlimit, and_self]
  refine .stored _ _ hgoes (by rw [hmore]) hlive ?_ hben
  rw [hmore, wrap64_of_lt hwindows, Nat.add_mul, Nat.one_mul, ← Nat.add_assoc, hsum]

theorem agrees_cleared (hv : 60 ≤ e.arbosVersion) (h : Agrees (s.tickets id) s.now (s.lives id) a)
    (hclears : Clears e s c id) (hlive : (s.tickets id).timeout ≠ 0)
    (hfits : ∀ l, s.note id (fun l => { l with ended := true }) id = some l → l.deadline < 2 ^ 64) :
    Agrees Ticket.cleared c.now (s.note id (fun l => { l with ended := true }) id)
      (viewStep id a c) := by
  obtain ⟨l, v, hl, rfl, hgoes, hview, hsum, hben⟩ := h.of_live hlive
  have hnote := note_self (fun l => { l with ended := true }) hl
  have hold : ({ l with ended := true } : Life).deadline < 2 ^ 64 := hfits _ hnote
  have hnone : viewStep id (some v) c = none := by
    rcases hclears with ⟨t, hop, hopen⟩ | hop
    · obtain ⟨rfl, -⟩ := openRetryable_some hopen
      have hnow := le_deadline_of_open hv hlive hsum hold hopen
      simp [viewStep, hop, hview, hnow, hben]
    · simp [viewStep, hop]
  rw [hnone, hnote]
  exact .ended _ rfl (.inl rfl)

/-- The reaper turns a window left into timeout: the deadline stays. -/
theorem agrees_prolonged (h : Agrees t s.now (s.lives id) a) (hlive : t.timeout ≠ 0)
    (hwindows : t.timeoutWindowsLeft ≠ 0) (hfits : ∀ l, s.lives id = some l → l.deadline < 2 ^ 64) :
    Agrees { t with
      timeout := wrap64 (t.timeout + retryableLifetimeSeconds)
      timeoutWindowsLeft := t.timeoutWindowsLeft - 1 } c.now (s.lives id) a := by
  obtain ⟨l, v, hl, rfl, hgoes, hview, hsum, hben⟩ := h.of_live hlive
  have hold := hfits l hl
  have hwindow := window_to_timeout hwindows
  have hexact : wrap64 (t.timeout + retryableLifetimeSeconds) = t.timeout + retryableLifetimeSeconds :=
    wrap64_of_lt (by omega)
  rw [hl]
  refine .stored l v hgoes hview ?_ ?_ hben
  · dsimp only
    omega
  · dsimp only
    omega

theorem agrees_step (hv : 60 ≤ e.arbosVersion) (h : Agrees (s.tickets id) s.now (s.lives id) a)
    (htimely : Timely s c) (hcase : StepCase e s c tickets entries lives)
    (hfits : ∀ l, lives id = some l → l.deadline < 2 ^ 64) :
    Agrees (tickets id) c.now (lives id) (viewStep id a c) := by
  have hlater := h.mono htimely
  -- Only the ticket a call names can change; the reaper names none.
  cases hcase with
  | idle hidle => exact agrees_idle hv h htimely hidle hfits
  | created x t sender toAddr callvalue calldata hop hfresh htimeout hwindows =>
    by_cases hid : id = x
    · subst hid
      simp only [viewStep, hop, if_true, update_self]
      exact .stored _ _ rfl (by simp [Life.deadline]) htimeout (by simp [Life.deadline, hwindows]) rfl
    · rw [viewStep_other (by simp [hop, Op.ticket, Ne.symm hid]), update_of_ne hid,
        update_of_ne hid]
      exact hlater
  | extended x limit t hop hopen hlimit _ =>
    by_cases hid : id = x
    · subst hid
      rw [update_self]
      exact agrees_extended hv h hop hopen hlimit hfits
    · rw [viewStep_other (by simp [hop, Op.ticket, Ne.symm hid]), update_of_ne hid,
        note_of_ne _ hid]
      exact hlater
  | cleared x hclears hlive =>
    by_cases hid : id = x
    · subst hid
      rw [update_self]
      exact agrees_cleared hv h hclears hlive hfits
    · have hother : c.op.ticket ≠ some id := by
        rcases hclears with ⟨t, hop, -⟩ | hop <;> simp [hop, Op.ticket, Ne.symm hid]
      rw [viewStep_other hother, update_of_ne hid, note_of_ne _ hid]
      exact hlater
  | popped x rest hop hhead hgone =>
    rw [viewStep_other (by simp [hop, Op.ticket])]
    exact hlater
  | prolonged x rest hop hhead hlive hover hwindows =>
    rw [viewStep_other (by simp [hop, Op.ticket])]
    by_cases hid : id = x
    · subst hid
      rw [update_self]
      exact agrees_prolonged h hlive hwindows hfits
    · rw [update_of_ne hid]
      exact hlater
  | reaped x rest hop hhead hlive hover hwindows =>
    rw [viewStep_other (by simp [hop, Op.ticket])]
    by_cases hid : id = x
    · subst hid
      obtain ⟨l, v, hl, rfl, hgoes, hview, hsum, hben⟩ := h.of_live hlive
      rw [hwindows, Nat.zero_mul, Nat.add_zero] at hsum
      rw [hl, update_self]
      exact .reaped l v hgoes hview rfl (hsum ▸ hover)
    · rw [update_of_ne hid]
      exact hlater

/-! ## Runs -/

/-- Deadlines only grow. -/
theorem life_step {l : Life} (h : s.lives id = some l)
    (hcase : StepCase e s c tickets entries lives) :
    ∃ l', lives id = some l' ∧ l.deadline ≤ l'.deadline := by
  have hnote : ∀ x f, (∀ l : Life, l.deadline ≤ (f l).deadline) →
      ∃ l', s.note x f id = some l' ∧ l.deadline ≤ l'.deadline := by
    intro x f hf
    by_cases hid : id = x
    · subst hid
      exact ⟨f l, note_self f h, hf l⟩
    · exact ⟨l, (note_of_ne f hid).trans h, Nat.le_refl _⟩
  cases hcase with
  | idle _ | popped _ _ _ _ _ | prolonged _ _ _ _ _ _ _ | reaped _ _ _ _ _ _ _ =>
    exact ⟨l, h, Nat.le_refl _⟩
  | created x t _ _ _ _ _ hfresh _ _ =>
    have hid : id ≠ x := by
      rintro rfl
      rw [hfresh] at h
      cases h
    exact ⟨l, by rw [update_of_ne hid, h], Nat.le_refl _⟩
  | extended x _ _ _ _ _ _ =>
    refine hnote x _ fun l => Nat.add_le_add_left (Nat.mul_le_mul_right _ (Nat.le_succ _)) _
  | cleared x _ _ => exact hnote x _ fun l => Nat.le_refl _

theorem life_exec (hrun : exec (step e) s calls = some s')
    (hfits : ∀ l, s'.lives id = some l → l.deadline < 2 ^ 64) :
    ∀ l, s.lives id = some l → l.deadline < 2 ^ 64 := by
  induction calls generalizing s with
  | nil =>
    cases hrun
    exact hfits
  | cons c calls ih =>
    obtain ⟨s₁, hstep, hrest⟩ := exec_cons.mp hrun
    intro l hl
    obtain ⟨l', hl', hle⟩ := life_step hl (step_cases hstep).1
    exact hle.trans_lt (ih hrest l' hl')

theorem agrees_exec (hv : 60 ≤ e.arbosVersion) (h : Agrees (s.tickets id) s.now (s.lives id) a)
    (htimely : Along (step e) Timely s calls) (hrun : exec (step e) s calls = some s')
    (hfits : ∀ l, s'.lives id = some l → l.deadline < 2 ^ 64) :
    Agrees (s'.tickets id) s'.now (s'.lives id) (calls.foldl (viewStep id) a) := by
  induction calls generalizing s a with
  | nil =>
    cases hrun
    exact h
  | cons c calls ih =>
    obtain ⟨s₁, hstep, hrest⟩ := exec_cons.mp hrun
    obtain ⟨hcase, hnow⟩ := step_cases hstep
    have hagrees := agrees_step hv h htimely.1 hcase (life_exec hrest hfits)
    rw [← hnow] at hagrees
    exact ih hagrees (htimely.2 s₁ hstep) hrest

/-- The view is the same without the calls of the reaper. -/
theorem view_without_reaps (calls : List Call) (a : Option View) :
    calls.foldl (viewStep id) a = (calls.filter fun c => !isReap c).foldl (viewStep id) a := by
  induction calls generalizing a with
  | nil => rfl
  | cons c calls ih =>
    by_cases hop : c.op = .reap
    · have hskip : (!isReap c) = false := by rw [isReap, decide_eq_true hop]; rfl
      have hsame : viewStep id a c = a := viewStep_other (by simp [hop, Op.ticket])
      simp only [List.filter_cons, hskip, List.foldl_cons, hsame]
      exact ih a
    · have hkeep : (!isReap c) = true := by rw [isReap, decide_eq_false hop]; rfl
      simp only [List.filter_cons, hkeep, if_true, List.foldl_cons]
      exact ih _

theorem isSome_openRetryable_iff (w : World) (now : Nat) :
    (openRetryable e.arbosVersion w id now).isSome = true ↔
      (getTimeout e w id now).outcome ≠ .noTicket := by
  rw [getTimeout_outcome]
  cases openRetryable e.arbosVersion w id now with
  | none => simp
  | some t => simp

/-- The reaper keeps a ticket that is open at its timestamp. -/
theorem reap_keeps_open (hv : 60 ≤ e.arbosVersion) {now : Nat}
    (hfits : (s.tickets id).timeout +
      (s.tickets id).timeoutWindowsLeft * retryableLifetimeSeconds < 2 ^ 64)
    (hopen : (openRetryable e.arbosVersion s.state.world id now).isSome = true) :
    ((s.state.tryToReapOneRetryable e now).world.tickets id).timeout ≠ 0 := by
  obtain ⟨t', hopen⟩ := Option.isSome_iff_exists.mp hopen
  have hlive := (openRetryable_some hopen).2
  have hnow := le_deadline_of_open hv hlive rfl hfits hopen
  have hcase := reap_cases (e := e) (s := s) (c := ⟨now, .reap⟩) rfl
  generalize (s.state.tryToReapOneRetryable e now).world.tickets = tickets at hcase
  generalize (s.state.tryToReapOneRetryable e now).queue.entries = entries at hcase
  generalize s.lives = lives at hcase
  cases hcase with
  | idle _ | popped _ _ _ _ _ => exact hlive
  | created _ _ _ _ _ _ hop _ _ _ | extended _ _ _ hop _ _ _ => cases hop
  | cleared _ hclears _ => rcases hclears with ⟨_, hop, _⟩ | hop <;> cases hop
  | prolonged x rest _ _ _ _ hwindows =>
    by_cases hid : id = x
    · subst hid
      have hwindow := Nat.mul_le_mul_right retryableLifetimeSeconds (Nat.one_le_iff_ne_zero.mpr hwindows)
      rw [update_self]
      dsimp only
      rw [wrap64_of_lt (by omega)]
      omega
    · rwa [update_of_ne hid]
  | reaped x rest _ _ _ hover hwindows =>
    by_cases hid : id = x
    · subst hid
      rw [hwindows, Nat.zero_mul, Nat.add_zero] at hnow
      exact absurd hnow (Nat.not_le.mpr hover)
    · rwa [update_of_ne hid]

/-- From ArbOS 60 on lookups answer from creation and keepalives alone; two runs that differ in
    calls of the reaper only give the same answers; and the reaper deletes no ticket that is
    open at its timestamp. -/
theorem reaping_unobservable (e : Env) (hv : 60 ≤ e.arbosVersion) (w : World) {calls : List Call}
    {s : Sys} (hrun : exec (step e) (init w) calls = some s)
    (htimely : Along (step e) Timely (init w) calls) (id : B256)
    (hfits : ∀ l, s.lives id = some l → l.deadline < 2 ^ 64) :
    (∀ l, s.lives id = some l → l.ended = false → ∀ t, s.now ≤ t →
        ((openRetryable e.arbosVersion s.state.world id t).isSome = true ↔ t ≤ l.deadline) ∧
          ((openRetryable e.arbosVersion s.state.world id t).isSome = true →
            (getTimeout e s.state.world id t).outcome = .found l.deadline)) ∧
      (∀ calls' s', exec (step e) (init w) calls' = some s' →
        Along (step e) Timely (init w) calls' →
        (∀ l, s'.lives id = some l → l.deadline < 2 ^ 64) →
        (calls'.filter fun c => !isReap c) = (calls.filter fun c => !isReap c) →
        ∀ t, s.now ≤ t → s'.now ≤ t →
          (openRetryable e.arbosVersion s'.state.world id t).isSome =
              (openRetryable e.arbosVersion s.state.world id t).isSome ∧
            (getTimeout e s'.state.world id t).outcome = (getTimeout e s.state.world id t).outcome) ∧
      ∀ t, s.now ≤ t → (openRetryable e.arbosVersion s.state.world id t).isSome = true →
        ((s.state.tryToReapOneRetryable e t).world.tickets id).timeout ≠ 0 := by
  have hinit : Agrees ((init w).tickets id) (init w).now ((init w).lives id) none :=
    .fresh rfl
  have hagrees := agrees_exec hv hinit htimely hrun hfits
  refine ⟨fun l hl hgoes t ht => ?_, fun calls' s' hrun' htimely' hfits' hsame t ht ht' => ?_,
    fun t ht hopen => ?_⟩
  · have houtcome := agrees_outcome hagrees hv hfits ht
    rw [hl] at hagrees
    rw [agrees_life hagrees hgoes ht] at houtcome
    rw [isSome_openRetryable_iff, houtcome]
    by_cases hopen : t ≤ l.deadline
    · simp [hopen]
    · simp [hopen]
  · have hagrees' := agrees_exec hv hinit htimely' hrun' hfits'
    have houtcome : (getTimeout e s'.state.world id t).outcome =
        (getTimeout e s.state.world id t).outcome := by
      rw [agrees_outcome hagrees' hv hfits' ht', agrees_outcome hagrees hv hfits ht,
        view_without_reaps calls', view_without_reaps calls, hsame]
    refine ⟨?_, houtcome⟩
    rw [Bool.eq_iff_iff, isSome_openRetryable_iff, isSome_openRetryable_iff, houtcome]
  · obtain ⟨t', hopen'⟩ := Option.isSome_iff_exists.mp hopen
    obtain ⟨l, v, hl, -, -, -, hsum, -⟩ := hagrees.of_live (openRetryable_some hopen').2
    exact reap_keeps_open hv (hsum ▸ hfits l hl) hopen

/-- The runs above, with and without the reaper, at a time when ticket 1 has used its window. -/
theorem reaping_unobservable_keptAlive : ∃ s,
    exec (step sampleEnv) (init sampleWorld) (keptAliveFirst ++ [⟨604804, .reap⟩]) = some s ∧
      (s.tickets 1).timeout = 1209601 ∧
      ((openRetryable 60 s.state.world 1 1209601).isSome = true ↔ 1209601 ≤ 1209601) := by
  have hread : (exec (step sampleEnv) (init sampleWorld)
      (keptAliveFirst ++ [⟨604804, .reap⟩])).map (fun s => (s.now, s.lives 1, (s.tickets 1).timeout)) =
        some (604804, some ⟨604801, 1, false⟩, 1209601) := by decide +kernel
  obtain ⟨s, hs, htriple⟩ := Option.map_eq_some_iff.mp hread
  obtain ⟨hnow, hrest⟩ := Prod.mk.inj htriple
  obtain ⟨hlife, htimeout⟩ := Prod.mk.inj hrest
  have hfits : ∀ l, s.lives 1 = some l → l.deadline < 2 ^ 64 := by
    intro l hl
    rw [hlife] at hl
    cases hl
    decide
  have hall := (reaping_unobservable sampleEnv (by decide) sampleWorld hs (by decide +kernel) 1 hfits).1
  exact ⟨s, hs, htimeout, (hall _ hlife rfl 1209601 (by omega)).1⟩

end Arbreth.Retryable
