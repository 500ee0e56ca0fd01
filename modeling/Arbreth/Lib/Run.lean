/-
  Runs of a labelled step function.

  `exec` performs a list of actions, each of which may be disabled. `Along` says that a
  condition on the state before each action holds all along a run. The rule
  `exec_invariant` is the induction every safety proof uses.
-/
import Mathlib.Logic.Basic

namespace Arbreth.Lib

variable {σ α : Type} (step : σ → α → Option σ)

/-- The state after a list of actions, if all were enabled. -/
def exec (s : σ) : List α → Option σ
  | [] => some s
  | a :: as =>
    match step s a with
    | some s' => exec s' as
    | none => none

/-- The condition holds before each action of the run. -/
def Along (ok : σ → α → Prop) (s : σ) : List α → Prop
  | [] => True
  | a :: as => ok s a ∧ ∀ s', step s a = some s' → Along ok s' as

variable {step}

variable {s s'' : σ} {ok : σ → α → Prop} {inv : σ → Prop} {a : α} {as : List α}

theorem exec_cons :
    exec step s (a :: as) = some s'' ↔ ∃ s', step s a = some s' ∧ exec step s' as = some s'' := by
  simp only [exec]
  cases step s a with
  | none => simp
  | some s' => simp

/-- What holds at first, and is kept by every action that meets the condition, holds at the
    end of every run that meets it all along. -/
theorem exec_invariant (hstep : ∀ s a s', inv s → ok s a → step s a = some s' → inv s') {s s' : σ}
    (h0 : inv s) (hok : Along step ok s as) (hrun : exec step s as = some s') : inv s' := by
  induction as generalizing s with
  | nil =>
    cases hrun
    exact h0
  | cons a as ih =>
    obtain ⟨s₁, h₁, hrest⟩ := exec_cons.mp hrun
    exact ih (hstep s a s₁ h0 hok.1 h₁) (hok.2 s₁ h₁) hrest

theorem along_true (s : σ) (as : List α) : Along step (fun _ _ => True) s as := by
  induction as generalizing s with
  | nil => trivial
  | cons a as ih => exact ⟨trivial, fun s' _ => ih s'⟩

/-- The rule for runs without a condition. -/
theorem exec_invariant_all (hstep : ∀ s a s', inv s → step s a = some s' → inv s') {s s' : σ}
    (h0 : inv s) (hrun : exec step s as = some s') : inv s' :=
  exec_invariant (fun s a s' hs _ => hstep s a s' hs) h0 (along_true s as) hrun

/-- Along a run whose states keep an invariant, a condition gives way to one it implies there. -/
theorem Along.imp {ok ok' : σ → α → Prop}
    (hstep : ∀ s a s', inv s → ok s a → step s a = some s' → inv s')
    (himp : ∀ s a, inv s → ok s a → ok' s a) {s : σ} (h0 : inv s) (hok : Along step ok s as) :
    Along step ok' s as := by
  induction as generalizing s with
  | nil => trivial
  | cons a as ih =>
    refine ⟨himp s a h0 hok.1, fun s' hs' => ?_⟩
    exact ih (hstep s a s' h0 hok.1 hs') (hok.2 s' hs')

/-- With a decidable condition a run can be checked. -/
instance Along.decidable {ok : σ → α → Prop} [∀ s a, Decidable (ok s a)] :
    ∀ (as : List α) (s : σ), Decidable (Along step ok s as)
  | [], _ => .isTrue trivial
  | a :: as, s =>
    match h : step s a with
    | none => decidable_of_iff (ok s a)
        ⟨fun ha => ⟨ha, fun _ hs => (nomatch h.symm.trans hs)⟩, And.left⟩
    | some s₁ =>
      have : Decidable (Along step ok s₁ as) := Along.decidable as s₁
      decidable_of_iff (ok s a ∧ Along step ok s₁ as)
        ⟨fun ha => ⟨ha.1, fun _ hs => Option.some.inj (h.symm.trans hs) ▸ ha.2⟩,
          fun ha => ⟨ha.1, ha.2 s₁ h⟩⟩

/-- What holds of every action of the list may be added to the condition. -/
theorem Along.and {q : α → Prop} {s : σ} (hq : ∀ a ∈ as, q a) (hok : Along step ok s as) :
    Along step (fun s a => q a ∧ ok s a) s as := by
  induction as generalizing s with
  | nil => trivial
  | cons a as ih =>
    refine ⟨⟨hq a List.mem_cons_self, hok.1⟩, fun s' hs' => ?_⟩
    exact ih (fun b hb => hq b (List.mem_cons_of_mem a hb)) (hok.2 s' hs')

section Traces

variable {τ β : Type} {impl : α → σ → β × σ} {spec : α → τ → β × τ}

/-- The answers to a list of actions and the state they leave. -/
def trace (step : α → σ → β × σ) : σ → List α → List β × σ
  | s, [] => ([], s)
  | s, a :: as => ((step a s).1 :: (trace step (step a s).2 as).1, (trace step (step a s).2 as).2)

/-- A relation that every action keeps, with the same answer on both sides. It may depend on the
    actions to come. -/
theorem trace_refines {R : List α → σ → τ → Prop}
    (hstep : ∀ a as s t, R (a :: as) s t →
      (impl a s).1 = (spec a t).1 ∧ R as (impl a s).2 (spec a t).2) {s : σ} {t : τ}
    (h : R as s t) :
    (trace impl s as).1 = (trace spec t as).1 ∧ R [] (trace impl s as).2 (trace spec t as).2 := by
  induction as generalizing s t with
  | nil => exact ⟨rfl, h⟩
  | cons a as ih =>
    obtain ⟨hanswer, hnext⟩ := hstep a as s t h
    obtain ⟨hanswers, hend⟩ := ih hnext
    exact ⟨congrArg₂ _ hanswer hanswers, hend⟩

end Traces

end Arbreth.Lib
