/-
  The numbers of a ticket stay small.

  Tickets are submitted with a week from now (`compute_submit_retryable_fees`), and the
  precompile keeps one alive only if its deadline is at most a week from now. Hence no deadline
  is more than two weeks ahead (`Bounded`), whenever the reaper comes, and no 64-bit operation
  of the ticket code overflows.
-/
import Arbreth.Retryable.Multiplicity

namespace Arbreth.Retryable

open Arbreth.Lib Arbreth.Exec

variable {e : Env} {s s' : Sys} {c : Call}

/-- The calls of a chain: block timestamps do not decrease and stay below 2^62, tickets get a
    week, and the precompile passes a week from now as limit. -/
def Scheduled (s : Sys) (c : Call) : Prop :=
  Timely s c ∧ c.now < 2 ^ 62 ∧
    match c.op with
    | .create _ timeout _ _ _ _ _ => timeout = c.now + retryableLifetimeSeconds
    | .keepalive _ limit => limit = c.now + retryableLifetimeSeconds
    | _ => True

instance (s : Sys) (c : Call) : Decidable (Scheduled s c) := by
  unfold Scheduled
  cases c.op <;> infer_instance

/-- What the 64-bit operations of a call compute, with windows of stored tickets read by
    `calculate_timeout` at any time. -/
def NoOverflow (e : Env) (s : Sys) (c : Call) : Prop :=
  c.now + retryableLifetimeSeconds < 2 ^ 64 ∧
    (∀ id, (s.tickets id).timeout ≠ 0 →
      (s.tickets id).timeoutWindowsLeft * retryableLifetimeSeconds < 2 ^ 64 ∧
        (s.tickets id).timeout + (s.tickets id).timeoutWindowsLeft * retryableLifetimeSeconds <
          2 ^ 64) ∧
    match c.op with
    | .keepalive id limit =>
      ∀ t, openRetryable e.arbosVersion s.state.world id c.now = some t → calculateTimeout t ≤ limit →
        calculateTimeout t + retryableLifetimeSeconds < 2 ^ 64 ∧ t.timeoutWindowsLeft + 1 < 2 ^ 64
    | .reap =>
      ∀ id ∈ s.entries.head?, (s.tickets id).timeout < c.now →
        (s.tickets id).timeoutWindowsLeft ≠ 0 →
          (s.tickets id).timeout + retryableLifetimeSeconds < 2 ^ 64 ∧
            1 ≤ (s.tickets id).timeoutWindowsLeft
    | _ => True

/-- Deadlines are at most two weeks ahead. -/
def Bounded (tickets : B256 → Ticket) (now : Nat) : Prop :=
  ∀ id, (tickets id).timeout ≠ 0 →
    (tickets id).timeout + (tickets id).timeoutWindowsLeft * retryableLifetimeSeconds ≤
      now + 2 * retryableLifetimeSeconds

variable {tickets : B256 → Ticket}

theorem Bounded.update {now now' : Nat} (h : Bounded tickets now) (hnow : now ≤ now') {id : B256}
    {t : Ticket} (ht : t.timeout ≠ 0 →
      t.timeout + t.timeoutWindowsLeft * retryableLifetimeSeconds ≤ now' + 2 * retryableLifetimeSeconds) :
    Bounded (Function.update tickets id t) now' := by
  intro x hx
  by_cases hid : x = id
  · subst hid
    rw [Function.update_self] at hx ⊢
    exact ht hx
  · rw [Function.update_of_ne hid] at hx ⊢
    have := h x hx
    omega

theorem week_lt : retryableLifetimeSeconds < 2 ^ 20 := by decide

theorem windows_le (t : Ticket) : t.timeoutWindowsLeft ≤ t.timeoutWindowsLeft * retryableLifetimeSeconds :=
  Nat.le_mul_of_pos_right _ (by decide)

theorem bounded_step (h : Bounded s.tickets s.now) (hsched : Scheduled s c) {entries : List B256}
    {lives : B256 → Option Life} (hcase : StepCase e s c tickets entries lives) :
    Bounded tickets c.now := by
  obtain ⟨htimely, hsmall, hargs⟩ := hsched
  have hweek := week_lt
  have hsame : Bounded s.tickets c.now := fun id hid => (h id hid).trans (Nat.add_le_add_right htimely _)
  cases hcase with
  | idle _ | popped _ _ _ _ _ => exact hsame
  | created id t _ _ _ _ hop _ _ hwindows =>
    rw [hop] at hargs
    refine hsame.update (Nat.le_refl _) fun _ => ?_
    dsimp only at hargs
    rw [hargs, hwindows]
    omega
  | extended id limit t hop hopen hlimit _ =>
    obtain ⟨rfl, hlive⟩ : t = s.tickets id ∧ (s.tickets id).timeout ≠ 0 := openRetryable_some hopen
    have hold := hsame id hlive
    have hwindows := windows_le (s.tickets id)
    rw [hop] at hargs
    rw [calculateTimeout_eq rfl (by omega), hargs] at hlimit
    refine hsame.update (Nat.le_refl _) fun _ => ?_
    dsimp only
    rw [wrap64_of_lt (by omega), Nat.add_mul, Nat.one_mul]
    omega
  | cleared id _ _ | reaped id _ _ _ _ _ _ => exact hsame.update (Nat.le_refl _) fun h0 => absurd rfl h0
  | prolonged id rest _ _ hlive hover hwindows =>
    have hold := hsame id hlive
    have hwindow := window_to_timeout hwindows
    have hfits : (s.tickets id).timeout + retryableLifetimeSeconds < 2 ^ 64 := by omega
    refine hsame.update (Nat.le_refl _) fun _ => ?_
    dsimp only
    rw [wrap64_of_lt hfits]
    omega

theorem bounded_exec {w : World} {calls : List Call}
    (hsched : Along (step e) Scheduled (Sys.init w) calls)
    (hrun : exec (step e) (Sys.init w) calls = some s) : Bounded s.tickets s.now := by
  have hinit : Bounded (Sys.init w).tickets (Sys.init w).now := fun _ h => absurd rfl h
  have hstep : ∀ (s : Sys) (c : Call) (s' : Sys), Bounded s.tickets s.now → Scheduled s c →
      step e s c = some s' → Bounded s'.tickets s'.now := by
    intro s c s' h hs hstep
    obtain ⟨hcase, hnow⟩ := step_cases hstep
    rw [hnow]
    exact bounded_step h hs hcase
  exact exec_invariant hstep hinit hsched hrun

/-- In every state a chain reaches no deadline is more than two weeks ahead, and the operations
    of the next call do not overflow. -/
theorem retryable_arithmetic_bounded (e : Env) (w : World) {calls : List Call} {s : Sys}
    (hsched : Along (step e) Scheduled (Sys.init w) calls)
    (hrun : exec (step e) (Sys.init w) calls = some s) :
    (∀ id, (s.tickets id).timeout ≠ 0 →
        (s.tickets id).timeout + (s.tickets id).timeoutWindowsLeft * retryableLifetimeSeconds ≤
          s.now + 2 * retryableLifetimeSeconds) ∧
      ∀ c, Scheduled s c → NoOverflow e s c := by
  have hbounded := bounded_exec hsched hrun
  refine ⟨hbounded, fun c hc => ?_⟩
  obtain ⟨htimely, hsmall, hargs⟩ := hc
  have hweek := week_lt
  have hfits : ∀ id, (s.tickets id).timeout ≠ 0 →
      (s.tickets id).timeout + (s.tickets id).timeoutWindowsLeft * retryableLifetimeSeconds <
        2 ^ 63 := by
    intro id hid
    have := hbounded id hid
    unfold Timely at htimely
    omega
  refine ⟨by omega, fun id hid => ?_, ?_⟩
  · have := hfits id hid
    exact ⟨by omega, by omega⟩
  · cases hop : c.op with
    | create | cancel | delete => trivial
    | keepalive id limit =>
      intro t hopen hlimit
      rw [hop] at hargs
      obtain ⟨rfl, hlive⟩ : t = s.tickets id ∧ (s.tickets id).timeout ≠ 0 := openRetryable_some hopen
      have hold := hfits id hlive
      have hwindows := windows_le (s.tickets id)
      exact ⟨by omega, by omega⟩
    | reap =>
      intro id _ hover hwindows
      exact ⟨by omega, Nat.one_le_iff_ne_zero.mpr hwindows⟩

/-- A ticket kept alive at once is two weeks ahead but for a second. -/
theorem retryable_arithmetic_bounded_keptAlive : ∃ s,
    exec (step sampleEnv) (Sys.init sampleWorld) keptAliveFirst = some s ∧
      (s.tickets 1).timeout + (s.tickets 1).timeoutWindowsLeft * retryableLifetimeSeconds ≤
        s.now + 2 * retryableLifetimeSeconds := by
  have hread : (exec (step sampleEnv) (Sys.init sampleWorld) keptAliveFirst).map
      (fun s => (s.tickets 1).timeout) = some 604801 := by decide +kernel
  obtain ⟨s, hs, htimeout⟩ := Option.map_eq_some_iff.mp hread
  have hsched : Along (step sampleEnv) Scheduled (Sys.init sampleWorld) keptAliveFirst := by
    decide +kernel
  exact ⟨s, hs, (retryable_arithmetic_bounded sampleEnv sampleWorld hsched hs).1 1 (by omega)⟩

end Arbreth.Retryable
