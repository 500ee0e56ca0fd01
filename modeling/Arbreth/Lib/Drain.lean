/-
  Jobs that schedule jobs.

  A worker has a state and a list of scheduled jobs. `run` performs a job: it gives the next
  state and the jobs it scheduled, which replace the list. `drainLoop` takes the list, performs
  it as a batch, and goes on with the list it finds afterwards.

  It performs every job that was ever scheduled, in order, exactly if no job but the last of a
  generation schedules anything (`drainLoop_inOrder_iff`); the converse is by counting, as the
  loop never performs more jobs than its list held. `drainLoop_ends` is the termination rule:
  each job pays for itself and for all it schedules.
-/
import Mathlib.Algebra.BigOperators.Group.List.Basic
import Mathlib.Algebra.GroupWithZero.Nat
import Mathlib.Data.List.Basic

namespace Arbreth.Lib

/-- A job that was performed, and what it scheduled. -/
structure Ran (α : Type) where
  job : α
  scheduled : List α
  deriving DecidableEq

variable {σ α : Type} (run : σ → α → σ × List α)

/-- Perform a batch in order. Each job leaves only its own jobs on the list. -/
def runAll (p : σ × List α) : List α → (σ × List α) × List (Ran α)
  | [] => (p, [])
  | a :: batch =>
    let p' := run p.1 a
    let rest := runAll p' batch
    (rest.1, ⟨a, p'.2⟩ :: rest.2)

/-- Batch after batch, until the list is empty. None if the rounds run out. -/
def drainLoop : Nat → σ × List α → Option (σ × List (Ran α))
  | _, (s, []) => some (s, [])
  | 0, (_, _ :: _) => none
  | rounds + 1, (s, a :: batch) =>
    let r := runAll run (s, []) (a :: batch)
    (drainLoop rounds r.1).map fun out => (out.1, r.2 ++ out.2)

/-- The jobs performed are the first ones and all that were scheduled, each once and in order. -/
def InOrder (batch : List α) (ran : List (Ran α)) : Prop :=
  ran.map Ran.job = batch ++ ran.flatMap Ran.scheduled

instance [DecidableEq α] (batch : List α) (ran : List (Ran α)) : Decidable (InOrder batch ran) :=
  inferInstanceAs (Decidable (_ = _))

/-- The jobs of a generation: all that those of the generation before scheduled. -/
def generation (p : σ × List α) : Nat → σ × List α
  | 0 => p
  | n + 1 =>
    let r := runAll run p p.2
    generation (r.1.1, r.2.flatMap Ran.scheduled) n

/-- In every generation only the last job schedules further ones. -/
def OnlyLastSchedules (p : σ × List α) : Prop :=
  ∀ n, ∀ e ∈ (runAll run (generation run p n) (generation run p n).2).2.dropLast, e.scheduled = []

theorem job_runAll (p : σ × List α) (batch : List α) :
    (runAll run p batch).2.map Ran.job = batch := by
  induction batch generalizing p with
  | nil => rfl
  | cons a batch ih => exact congrArg (a :: ·) (ih (run p.1 a))

/-- All that a batch scheduled: by all but its last job, and what it left on the list. -/
theorem scheduled_runAll (p : σ × List α) (a : α) (batch : List α) :
    (runAll run p (a :: batch)).2.flatMap Ran.scheduled =
      (runAll run p (a :: batch)).2.dropLast.flatMap Ran.scheduled ++
        (runAll run p (a :: batch)).1.2 := by
  induction batch generalizing p a with
  | nil => exact List.append_nil _
  | cons b batch ih =>
    have hrest := ih (run p.1 a) b
    simp only [runAll, List.dropLast_cons_cons, List.flatMap_cons, List.append_assoc] at hrest ⊢
    rw [hrest]

variable {run} {s s' : σ} {p : σ × List α} {batch : List α} {ran : List (Ran α)} {n : Nat}

/-! ## Batches -/

/-- Induction over the rounds of a loop that ended. -/
theorem drainLoop_induction {motive : σ × List α → List (Ran α) → Prop}
    (done : ∀ s, motive (s, []) [])
    (round : ∀ m s a batch later,
      drainLoop run m (runAll run (s, []) (a :: batch)).1 = some (s', later) →
      motive (runAll run (s, []) (a :: batch)).1 later →
      motive (s, a :: batch) ((runAll run (s, []) (a :: batch)).2 ++ later))
    (h : drainLoop run n p = some (s', ran)) : motive p ran := by
  induction n generalizing p ran with
  | zero =>
    obtain ⟨s, list⟩ := p
    cases list with
    | nil =>
      cases h
      exact done s'
    | cons a batch => cases h
  | succ n ih =>
    obtain ⟨s, list⟩ := p
    cases list with
    | nil =>
      cases h
      exact done s'
    | cons a batch =>
      obtain ⟨⟨s₁, later⟩, hlater, hout⟩ := Option.map_eq_some_iff.mp h
      cases hout
      exact round n s a batch later hlater (ih hlater)

/-- The loop never performs more jobs than the list held and were scheduled. -/
theorem length_drainLoop_le (h : drainLoop run n p = some (s', ran)) :
    ran.length ≤ p.2.length + (ran.flatMap Ran.scheduled).length := by
  refine drainLoop_induction
    (motive := fun p ran => ran.length ≤ p.2.length + (ran.flatMap Ran.scheduled).length)
    (fun s => Nat.zero_le _) (fun m s a batch later _ hlater => ?_) h
  have hjobs := congrArg List.length (job_runAll run (s, []) (a :: batch))
  have hsplit := congrArg List.length (scheduled_runAll run (s, []) a batch)
  rw [List.length_append] at hsplit
  rw [List.length_map] at hjobs
  rw [List.flatMap_append, List.length_append, List.length_append]
  dsimp only
  omega

/-- One generation and the ones after it. -/
theorem onlyLastSchedules_iff : OnlyLastSchedules run p ↔
    (∀ e ∈ (runAll run p p.2).2.dropLast, e.scheduled = []) ∧
      OnlyLastSchedules run
        ((runAll run p p.2).1.1, (runAll run p p.2).2.flatMap Ran.scheduled) := by
  constructor
  · intro h
    exact ⟨h 0, fun n => h (n + 1)⟩
  · rintro ⟨hfirst, hlater⟩ n
    cases n with
    | zero => exact hfirst
    | succ n => exact hlater n

theorem onlyLastSchedules_nil (s : σ) : OnlyLastSchedules run (s, []) := by
  intro n
  induction n with
  | zero =>
    intro e he
    cases he
  | succ n ih => exact ih

/-- The batches perform every job that was scheduled, in order, if and only if in every
    generation the last job is the only one to schedule further ones. -/
theorem drainLoop_inOrder_iff (h : drainLoop run n p = some (s', ran)) :
    InOrder p.2 ran ↔ OnlyLastSchedules run p := by
  refine drainLoop_induction (motive := fun p ran => InOrder p.2 ran ↔ OnlyLastSchedules run p)
    (fun s => iff_of_true rfl (onlyLastSchedules_nil s))
    (fun m s a batch later hrun hlater => ?_) h
  have hsplit := scheduled_runAll run (s, []) a batch
  have hthis : InOrder (a :: batch) ((runAll run (s, []) (a :: batch)).2 ++ later) ↔
      later.map Ran.job = (runAll run (s, []) (a :: batch)).2.flatMap Ran.scheduled ++
        later.flatMap Ran.scheduled := by
    rw [InOrder, List.map_append, List.flatMap_append, job_runAll]
    exact List.append_right_inj (a :: batch)
  have hnext : OnlyLastSchedules run (s, a :: batch) ↔
      (runAll run (s, []) (a :: batch)).2.dropLast.flatMap Ran.scheduled = [] ∧
        OnlyLastSchedules run ((runAll run (s, []) (a :: batch)).1.1,
          (runAll run (s, []) (a :: batch)).2.flatMap Ran.scheduled) := by
    rw [List.flatMap_eq_nil_iff]
    exact onlyLastSchedules_iff
  rw [hthis, hnext, hsplit]
  constructor
  · intro hall
    -- Later rounds make up for no job dropped from this one, so that none was.
    have hlen := congrArg List.length hall
    have hle := length_drainLoop_le hrun
    have hquiet : (runAll run (s, []) (a :: batch)).2.dropLast.flatMap Ran.scheduled = [] := by
      rw [List.length_map, List.length_append, List.length_append] at hlen
      exact List.eq_nil_of_length_eq_zero (by omega)
    rw [hquiet, List.nil_append] at hall ⊢
    exact ⟨rfl, hlater.mp hall⟩
  · rintro ⟨hquiet, hrest⟩
    rw [hquiet, List.nil_append] at hrest ⊢
    exact hlater.mpr hrest

/-! ## Termination -/

/-- Each job that is worth its cost pays for itself and for all it schedules, and schedules only
    jobs worth their cost. -/
structure Pays (run : σ → α → σ × List α) (weight : α → Nat) (cost : Nat) : Prop where
  worth : ∀ s a, cost ≤ weight a → ∀ b ∈ (run s a).2, cost ≤ weight b
  budget : ∀ s a, cost ≤ weight a → ((run s a).2.map weight).sum + cost ≤ weight a

section Pays

variable {weight : α → Nat} {cost : Nat}

/-- What is worth its cost in a batch and on the list is so afterwards. -/
theorem Pays.worth_runAll (h : Pays run weight cost) (hlist : ∀ a ∈ p.2, cost ≤ weight a)
    (hbatch : ∀ a ∈ batch, cost ≤ weight a) :
    ∀ a ∈ (runAll run p batch).1.2, cost ≤ weight a := by
  induction batch generalizing p with
  | nil => exact hlist
  | cons a batch ih =>
    exact ih (h.worth p.1 a (hbatch a List.mem_cons_self)) fun b hb =>
      hbatch b (List.mem_cons_of_mem a hb)

/-- A batch pays for its jobs and for all they schedule. -/
theorem Pays.budget_runAll (h : Pays run weight cost) (hbatch : ∀ a ∈ batch, cost ≤ weight a) :
    (∀ e ∈ (runAll run p batch).2, (e.scheduled.map weight).sum + cost ≤ weight e.job) ∧
      (((runAll run p batch).2.flatMap Ran.scheduled).map weight).sum + cost * batch.length ≤
        (batch.map weight).sum := by
  induction batch generalizing p with
  | nil => exact ⟨fun e he => absurd he List.not_mem_nil, Nat.le_refl _⟩
  | cons a batch ih =>
    have hpays := h.budget p.1 a (hbatch a List.mem_cons_self)
    obtain ⟨hentries, hsum⟩ := ih (p := run p.1 a) fun b hb => hbatch b (List.mem_cons_of_mem a hb)
    refine ⟨fun e he => ?_, ?_⟩
    · rcases List.mem_cons.mp he with rfl | he
      · exact hpays
      · exact hentries e he
    · simp only [Lib.runAll, List.flatMap_cons, List.map_append, List.sum_append, List.map_cons,
        List.sum_cons, List.length_cons, Nat.mul_add, Nat.mul_one]
      omega

/-- The loop ends, after no more jobs than the list is worth. -/
theorem drainLoop_ends (h : Pays run weight cost) (hcost : 0 < cost)
    (hworth : ∀ a ∈ p.2, cost ≤ weight a) (hrounds : (p.2.map weight).sum ≤ cost * n) :
    ∃ s' ran, drainLoop run n p = some (s', ran) ∧ cost * ran.length ≤ (p.2.map weight).sum ∧
      ∀ e ∈ ran, (e.scheduled.map weight).sum + cost ≤ weight e.job := by
  induction n generalizing p with
  | zero =>
    obtain ⟨s, list⟩ := p
    cases list with
    | nil => exact ⟨s, [], rfl, Nat.zero_le _, fun e he => absurd he List.not_mem_nil⟩
    | cons a batch =>
      have ha : cost ≤ weight a := hworth a List.mem_cons_self
      rw [List.map_cons, List.sum_cons] at hrounds
      omega
  | succ n ih =>
    obtain ⟨s, list⟩ := p
    cases list with
    | nil => exact ⟨s, [], rfl, Nat.zero_le _, fun e he => absurd he List.not_mem_nil⟩
    | cons a batch =>
      dsimp only at hworth hrounds ⊢
      obtain ⟨hentries, hsum⟩ := h.budget_runAll (p := (s, [])) hworth
      have hjobs := congrArg List.length (job_runAll run (s, []) (a :: batch))
      rw [List.length_map] at hjobs
      have hleft := congrArg (fun l => (l.map weight).sum) (scheduled_runAll run (s, []) a batch)
      simp only [List.map_append, List.sum_append] at hleft
      have hlen : cost ≤ cost * (a :: batch).length :=
        Nat.le_mul_of_pos_right cost (Nat.succ_pos _)
      rw [Nat.mul_succ] at hrounds
      have hempty : ∀ b ∈ ([] : List α), cost ≤ weight b := fun b hb => absurd hb List.not_mem_nil
      obtain ⟨s', later, hrest, hcount, hlater⟩ := ih
        (p := (runAll run (s, []) (a :: batch)).1) (h.worth_runAll hempty hworth) (by omega)
      refine ⟨s', (runAll run (s, []) (a :: batch)).2 ++ later, ?_, ?_, fun e he => ?_⟩
      · simp only [drainLoop, hrest, Option.map_some]
      · rw [List.length_append, hjobs, Nat.mul_add]
        omega
      · rcases List.mem_append.mp he with he | he
        · exact hentries e he
        · exact hlater e he

end Pays

end Arbreth.Lib
