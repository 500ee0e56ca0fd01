/-
  The timeout queue never loses a ticket.

  Every stored ticket has one queue entry for each window it has left and one more
  (`Queued.count`). So none can be left outside the queue, and a ticket that is not kept alive
  again is deleted when its last entry comes up. How many calls of the reaper that takes depends
  on the tickets before it: a keepalive puts an entry for a time up to two weeks ahead, and as
  long as such an entry is the oldest the reaper waits, also for tickets behind it that are over
  (`expired_behind_keepalive`). A call that does not find the oldest entry waiting removes it.
-/
import Arbreth.Lib.Keccak
import Arbreth.Retryable.Model

namespace Arbreth.Retryable

open Arbreth.Lib Arbreth.Exec Function

variable {e : Env} {s s' : Sys} {c : Call}

/-- Tickets and queue belong together. -/
structure Queued (tickets : B256 → Ticket) (entries : List B256) (lives : B256 → Option Life) :
    Prop where
  fresh : ∀ id, lives id = none → id ∉ entries ∧ (tickets id).timeout = 0
  count : ∀ id, (tickets id).timeout ≠ 0 → entries.count id = (tickets id).timeoutWindowsLeft + 1

theorem queued_init (w : World) :
    Queued (Sys.init w).tickets (Sys.init w).entries (Sys.init w).lives :=
  ⟨fun _ _ => ⟨List.not_mem_nil, rfl⟩, fun _ h => absurd rfl h⟩

theorem note_eq_none {id id' : B256} {f : Life → Life} (h : s.note id f id' = none) :
    s.lives id' = none := by
  by_cases hid : id' = id
  · subst hid
    rw [Sys.note, update_self, Option.map_eq_none_iff] at h
    exact h
  · rwa [Sys.note_of_ne f hid] at h

variable {calls : List Call} {id : B256} {tickets : B256 → Ticket} {entries : List B256}
  {lives : B256 → Option Life}

theorem Queued.replace {entries entries' : List B256} {lives lives' : B256 → Option Life}
    (h : Queued tickets entries lives) {t : Ticket}
    (hcount : ∀ x, x ≠ id → entries'.count x = entries.count x)
    (hlives : ∀ x, x ≠ id → lives' x = none → lives x = none)
    (hfresh : lives' id = none → id ∉ entries' ∧ t.timeout = 0)
    (hself : t.timeout ≠ 0 → entries'.count id = t.timeoutWindowsLeft + 1) :
    Queued (update tickets id t) entries' lives' := by
  refine ⟨fun x hx => ?_, fun x hlive => ?_⟩
  · by_cases hid : x = id
    · subst hid
      rw [update_self]
      exact hfresh hx
    · obtain ⟨hnot, hgone⟩ := h.fresh x (hlives x hid hx)
      rw [update_of_ne hid]
      refine ⟨?_, hgone⟩
      rwa [← List.count_eq_zero, hcount x hid, List.count_eq_zero]
  · by_cases hid : x = id
    · subst hid
      rw [update_self] at hlive ⊢
      exact hself hlive
    · rw [update_of_ne hid] at hlive ⊢
      rw [hcount x hid, h.count x hlive]

theorem count_rest {entries rest : List B256} (hhead : entries = id :: rest) (x : B256)
    (hx : x ≠ id) : rest.count x = entries.count x := by
  rw [hhead, List.count_cons_of_ne hx.symm]

theorem count_queued (entries : List B256) {id x : B256} (hx : x ≠ id) :
    (entries ++ [id]).count x = entries.count x := by
  rw [List.count_append, List.count_singleton, if_neg (by simpa using hx.symm), Nat.add_zero]

theorem queued_step (h : Queued s.tickets s.entries s.lives)
    (hcase : StepCase e s c tickets entries lives) : Queued tickets entries lives := by
  -- A ticket that is stored has been created.
  have hcreated : ∀ {id}, (s.tickets id).timeout ≠ 0 → s.lives id ≠ none :=
    fun hlive hnone => hlive (h.fresh _ hnone).2
  cases hcase with
  | idle _ => exact h
  | created id t _ _ _ _ _ hfresh htimeout hwindows =>
    refine h.replace (fun x hx => count_queued _ hx) ?_ ?_ ?_
    · intro x hx hnone
      rwa [update_of_ne hx] at hnone
    · intro hnone
      rw [update_self] at hnone
      cases hnone
    · intro _
      rw [List.count_append, List.count_eq_zero_of_not_mem (h.fresh id hfresh).1, hwindows]
      simp
  | extended id limit t _ hopen _ hroom =>
    obtain ⟨rfl, hlive⟩ := openRetryable_some hopen
    -- The windows are counted by the queue, whose positions are 64-bit.
    have hfits : (s.tickets id).timeoutWindowsLeft + 1 < 2 ^ 64 := by
      rw [← h.count id hlive]
      refine List.count_le_length.trans_lt (Nat.lt_of_le_of_lt ?_ hroom)
      simp
    refine h.replace (fun x hx => count_queued _ hx) (fun x _ hnone => note_eq_none hnone) ?_ ?_
    · intro hnone
      exact absurd (note_eq_none hnone) (hcreated hlive)
    · intro _
      rw [List.count_append, h.count id hlive]
      simp [wrap64_of_lt hfits]
  | cleared id _ hlive =>
    refine h.replace (fun _ _ => rfl) (fun x _ hnone => note_eq_none hnone) ?_ (absurd rfl)
    intro hnone
    exact absurd (note_eq_none hnone) (hcreated hlive)
  | popped id rest _ hhead hgone =>
    rw [← update_eq_self id s.tickets]
    refine h.replace (count_rest hhead) (fun _ _ hx => hx) ?_ fun hlive => absurd hgone hlive
    intro hnone
    have hnot := (h.fresh id hnone).1
    rw [hhead] at hnot
    exact absurd List.mem_cons_self hnot
  | prolonged id rest _ hhead hlive _ hwindows =>
    refine h.replace (count_rest hhead) (fun _ _ hx => hx) ?_ ?_
    · intro hnone
      exact absurd hnone (hcreated hlive)
    · intro _
      have hall := h.count id hlive
      rw [hhead, List.count_cons_self] at hall
      dsimp only
      omega
  | reaped id rest _ hhead hlive _ hwindows =>
    refine h.replace (count_rest hhead) (fun _ _ hx => hx) ?_ (absurd rfl)
    intro hnone
    exact absurd hnone (hcreated hlive)

theorem queued_exec (h : Queued s.tickets s.entries s.lives)
    (hrun : exec (step e) s calls = some s') : Queued s'.tickets s'.entries s'.lives := by
  have hstep : ∀ (s : Sys) (c : Call) (s' : Sys), Queued s.tickets s.entries s.lives →
      step e s c = some s' → Queued s'.tickets s'.entries s'.lives :=
    fun _ _ _ h hstep => queued_step h (step_cases hstep).1
  exact exec_invariant_all hstep h hrun

/-! ## How long a ticket waits -/

/-- How many entries there are up to the last one of `id`. -/
def reach (id : B256) : List B256 → Nat
  | [] => 0
  | x :: xs => if id ∈ x :: xs then reach id xs + 1 else 0

theorem reach_eq_zero : reach id entries = 0 ↔ id ∉ entries := by
  cases entries with
  | nil => simp [reach]
  | cons x xs =>
    unfold reach
    split
    · next h => exact ⟨fun h0 => (nomatch h0), fun hnot => absurd h hnot⟩
    · next h => exact ⟨fun _ => h, fun _ => rfl⟩

theorem reach_append {id y : B256} (hy : y ≠ id) (entries : List B256) :
    reach id (entries ++ [y]) = reach id entries := by
  induction entries with
  | nil => simp [reach, Ne.symm hy]
  | cons x xs ih =>
    have hmem : id ∈ x :: xs ++ [y] ↔ id ∈ x :: xs := by simp [Ne.symm hy]
    simp only [List.cons_append, reach] at hmem ⊢
    simp only [hmem, ih]

theorem reach_rest {id x : B256} {rest : List B256} : reach id rest = reach id (x :: rest) - 1 := by
  by_cases h : id ∈ x :: rest
  · simp only [reach, if_pos h, Nat.add_sub_cancel]
  · have hrest : id ∉ rest := fun hr => h (List.mem_cons_of_mem x hr)
    rw [reach_eq_zero.mpr h, reach_eq_zero.mpr hrest]

def isReap (c : Call) : Bool := c.op = .reap

/-- No keepalive of `id` succeeds, and the reaper does not find the oldest entry waiting. -/
def Unblocked (e : Env) (id : B256) (s : Sys) (c : Call) : Prop :=
  (∀ limit, c.op = .keepalive id limit → Idle e s c) ∧
    (c.op = .reap → ∀ x ∈ s.entries.head?, (s.tickets x).timeout = 0 ∨ (s.tickets x).timeout < c.now)

theorem lives_step (h : s.lives id ≠ none) (hcase : StepCase e s c tickets entries lives) :
    lives id ≠ none := by
  cases hcase with
  | idle _ | popped _ _ _ _ _ | prolonged _ _ _ _ _ _ _ | reaped _ _ _ _ _ _ _ => exact h
  | created x t _ _ _ _ _ _ _ _ =>
    intro hnone
    by_cases hx : id = x
    · subst hx
      rw [update_self] at hnone
      cases hnone
    · rw [update_of_ne hx] at hnone
      exact h hnone
  | extended _ _ _ _ _ _ _ | cleared _ _ _ => exact fun hnone => h (note_eq_none hnone)

/-- A call of the reaper brings the last entry of the ticket one step closer, and no other call
    moves it away. -/
theorem reach_step (hknown : s.lives id ≠ none) (hunblocked : Unblocked e id s c)
    (hcase : StepCase e s c tickets entries lives) :
    reach id entries ≤ reach id s.entries - (if isReap c then 1 else 0) := by
  have hreap : c.op = .reap → isReap c = true := fun hop => decide_eq_true hop
  have hother : ∀ op, op ≠ Op.reap → c.op = op → isReap c = false :=
    fun op hop he => decide_eq_false fun hr => hop (he.symm.trans hr)
  cases hcase with
  | idle hidle =>
    by_cases hop : c.op = .reap
    · -- Idle at an unblocked call, the queue is empty.
      have hnil : s.entries = [] := by
        cases hentries : s.entries with
        | nil => rfl
        | cons x rest =>
          simp only [Idle, hop, hentries] at hidle
          have hwait := hidle x rfl
          have hfree := hunblocked.2 hop x (by rw [hentries]; rfl)
          omega
      rw [hnil]
      exact Nat.zero_le _
    · rw [show isReap c = false from decide_eq_false hop]
      exact Nat.le_refl _
  | created x t _ _ _ _ hop hfresh _ _ =>
    have hx : x ≠ id := fun he => hknown (he ▸ hfresh)
    rw [reach_append hx, hother _ (by simp) hop]
    exact Nat.le_refl _
  | extended x limit t hop hopen hlimit _ =>
    have hx : x ≠ id := by
      rintro rfl
      have hidle := hunblocked.1 limit hop
      simp only [Idle, hop] at hidle
      exact absurd hlimit (Nat.not_le_of_lt (hidle t hopen))
    rw [reach_append hx, hother _ (by simp) hop]
    exact Nat.le_refl _
  | cleared x hclears _ =>
    have hop : isReap c = false := by
      rcases hclears with ⟨t, hop, _⟩ | hop <;> exact hother _ (by simp) hop
    rw [hop]
    exact Nat.le_refl _
  | popped x rest hop hhead _ | prolonged x rest hop hhead _ _ _ | reaped x rest hop hhead _ _ _ =>
    rw [hreap hop, hhead]
    exact reach_rest.le

theorem reach_exec (hknown : s.lives id ≠ none)
    (hunblocked : Along (step e) (Unblocked e id) s calls) (hrun : exec (step e) s calls = some s') :
    reach id s'.entries ≤ reach id s.entries - calls.countP isReap := by
  induction calls generalizing s with
  | nil =>
    cases hrun
    exact Nat.le_refl _
  | cons c calls ih =>
    obtain ⟨s₁, hstep, hrest⟩ := exec_cons.mp hrun
    obtain ⟨hcase, -⟩ := step_cases hstep
    have hfirst := reach_step hknown hunblocked.1 hcase
    have hlater := ih (lives_step hknown hcase) (hunblocked.2 s₁ hstep) hrest
    rw [List.countP_cons]
    omega

/-- Every stored ticket has an entry for each window left and one more. One that is not kept
    alive again is deleted by as many calls of the reaper, none of which finds the oldest entry
    waiting, as there are entries up to its last one. -/
theorem timeout_queue_multiplicity (e : Env) (w : World) {calls : List Call} {s : Sys}
    (hrun : exec (step e) (Sys.init w) calls = some s) :
    (∀ id, (s.tickets id).timeout ≠ 0 →
        s.entries.count id = (s.tickets id).timeoutWindowsLeft + 1) ∧
      ∀ id later s', (s.tickets id).timeout ≠ 0 → Along (step e) (Unblocked e id) s later →
        exec (step e) s later = some s' → reach id s.entries ≤ later.countP isReap →
          (s'.tickets id).timeout = 0 := by
  have hqueued := queued_exec (queued_init w) hrun
  refine ⟨hqueued.count, fun id later s' hlive hunblocked hlater hcalls => ?_⟩
  have hknown : s.lives id ≠ none := fun hnone => hlive (hqueued.fresh id hnone).2
  have hreach := reach_exec hknown hunblocked hlater
  have hgone : id ∉ s'.entries := reach_eq_zero.mp (by omega)
  by_contra hlive'
  have hcount := (queued_exec hqueued hlater).count id hlive'
  rw [List.count_eq_zero_of_not_mem hgone] at hcount
  omega

/-! ## Runs -/

theorem transferBalance_tickets (w : World) (src dst : Address) (amount : U256) :
    (transferBalance w src dst amount).tickets = w.tickets := by
  have hframe : Frame (fun _ => True) (fun _ => False) w (transferBalance w src dst amount) :=
    frame_transferBalance amount trivial trivial
  exact funext fun id => hframe.ticket id not_false

def sampleEnv : Env := ⟨60, Keccak.keccak256, transferBalance, transferBalance_tickets⟩

def sampleWorld : World := ⟨fun _ => none, fun _ => Ticket.cleared, fun _ => false, 0, 0, 0, 0⟩

/-- A ticket submitted at `now`. -/
def submitAt (now : Nat) (id : B256) : Call :=
  ⟨now, .create id (now + retryableLifetimeSeconds) 0xa11ce (some 0xb0b) 0 0xa11ce []⟩

/-- Ticket 1, kept alive at once, stands before ticket 2. -/
def keptAliveFirst : List Call :=
  [submitAt 1 1, ⟨2, .keepalive 1 (2 + retryableLifetimeSeconds)⟩, submitAt 3 2]

/-- A call of the reaper when the oldest entry is over. -/
theorem unblocked_reap (e : Env) {s : Sys} (id : B256) {x : B256} (now : Nat)
    (hhead : s.entries.head? = some x) (htimeout : (s.tickets x).timeout < now) :
    Unblocked e id s ⟨now, .reap⟩ := by
  refine ⟨fun limit hop => (nomatch hop), fun _ y hy => .inr ?_⟩
  rw [hhead] at hy
  cases hy
  exact htimeout

/-- The two entries of the ticket that was kept alive: the first call of the reaper begins its
    second window, the next one deletes it. -/
theorem timeout_queue_multiplicity_keptAlive : ∃ s s',
    exec (step sampleEnv) (Sys.init sampleWorld) keptAliveFirst = some s ∧
      exec (step sampleEnv) s [⟨604802, .reap⟩, ⟨1209602, .reap⟩] = some s' ∧
      s.entries.count 1 = (s.tickets 1).timeoutWindowsLeft + 1 ∧ s.entries.count 1 = 2 ∧
      (s.tickets 1).timeout ≠ 0 ∧ (s'.tickets 1).timeout = 0 := by
  have hread : ((exec (step sampleEnv) (Sys.init sampleWorld) keptAliveFirst).map fun s =>
      (s.entries, (s.tickets 1).timeout, (step sampleEnv s ⟨604802, .reap⟩).map fun s₁ =>
        (s₁.entries, (s₁.tickets 1).timeout))) =
      some ([1, 1, 2], 604801, some ([1, 2], 1209601)) := by decide +kernel
  obtain ⟨s, hs, hread⟩ := Option.map_eq_some_iff.mp hread
  obtain ⟨hentries, htimeout, hfirst⟩ := Prod.mk.inj hread |>.imp id Prod.mk.inj
  obtain ⟨s₁, hs₁, hread₁⟩ := Option.map_eq_some_iff.mp hfirst
  obtain ⟨hentries₁, htimeout₁⟩ := Prod.mk.inj hread₁
  have hlive : (s.tickets 1).timeout ≠ 0 := by omega
  obtain ⟨hcount, hdeleted⟩ := timeout_queue_multiplicity sampleEnv sampleWorld hs
  have hunblocked := unblocked_reap sampleEnv 1 604802
    (congrArg List.head? hentries) (by omega)
  have hunblocked₁ := unblocked_reap sampleEnv 1 1209602
    (congrArg List.head? hentries₁) (by omega)
  refine ⟨s, _, hs, rfl, hcount 1 hlive, by rw [hentries]; decide, hlive, ?_⟩
  refine hdeleted 1 [⟨604802, .reap⟩, ⟨1209602, .reap⟩] _ hlive ⟨hunblocked, fun s' hs' => ?_⟩ rfl
    (by rw [hentries]; decide)
  cases hs₁.symm.trans hs'
  exact ⟨hunblocked₁, fun _ _ => trivial⟩

/-- Ticket 2 is over at 604804, three entries lead up to its last one and one of them is for a
    window of ticket 1; four calls of the reaper at that time do not delete it, since the second
    entry of ticket 1 waits until 1209601. -/
theorem expired_behind_keepalive :
    (exec (step sampleEnv) (Sys.init sampleWorld) keptAliveFirst).map (fun s =>
        (s.entries, (s.tickets 1).timeoutWindowsLeft, calculateTimeout (s.tickets 2))) =
          some ([1, 1, 2], 1, 604803) ∧
      (exec (step sampleEnv) (Sys.init sampleWorld)
          (keptAliveFirst ++ List.replicate 4 ⟨604804, .reap⟩)).map (fun s => (s.tickets 2).timeout) =
        some 604803 := by
  decide +kernel

end Arbreth.Retryable
