/-
  Fallible computations: when a chain of `Except` steps succeeds.
-/
import Mathlib.Data.List.Forall2

namespace Arbreth.Lib

variable {ε α β : Type}

theorem ok_bind (a : α) (f : α → Except ε β) : ((Except.ok a : Except ε α) >>= f) = f a := rfl

variable {x : Except ε α} {f : α → Except ε β}

theorem bind_eq_ok {b : β} : (x >>= f) = .ok b ↔ ∃ a, x = .ok a ∧ f a = .ok b := by
  cases x with
  | error e => exact ⟨fun h => (nomatch h), fun ⟨_, h, _⟩ => (nomatch h)⟩
  | ok a =>
    constructor
    · intro h
      exact ⟨a, rfl, h⟩
    · rintro ⟨a', ha, h⟩
      cases ha
      exact h

theorem map_eq_ok {g : α → β} {b : β} (h : x.map g = .ok b) : ∃ a, x = .ok a ∧ g a = b := by
  cases x with
  | error e => cases h
  | ok a =>
    cases h
    exact ⟨a, rfl, rfl⟩

theorem exists_bind_ok : (∃ b, (x >>= f) = .ok b) ↔ ∃ a, x = .ok a ∧ ∃ b, f a = .ok b := by
  simp only [bind_eq_ok]
  exact ⟨fun ⟨b, a, h⟩ => ⟨a, h.1, b, h.2⟩, fun ⟨a, h, b, hb⟩ => ⟨b, a, h, hb⟩⟩

theorem exists_map_ok {g : α → β} : (∃ b, g <$> x = .ok b) ↔ ∃ a, x = .ok a := by
  cases x with
  | error e => exact ⟨fun ⟨_, h⟩ => (nomatch h), fun ⟨_, h⟩ => (nomatch h)⟩
  | ok a => exact ⟨fun _ => ⟨a, rfl⟩, fun _ => ⟨g a, rfl⟩⟩

theorem exists_pure_ok {a : α} : (∃ b, (pure a : Except ε α) = .ok b) ↔ True :=
  ⟨fun _ => trivial, fun _ => ⟨a, rfl⟩⟩

/-- When the second step succeeds whatever the first returned. -/
theorem exists_bind_ok_const {p : Prop} (h : ∀ a, (∃ b, f a = .ok b) ↔ p) :
    (∃ b, (x >>= f) = .ok b) ↔ (∃ a, x = .ok a) ∧ p := by
  rw [exists_bind_ok]
  simp only [h]
  exact ⟨fun ⟨a, ha, hp⟩ => ⟨⟨a, ha⟩, hp⟩, fun ⟨⟨a, ha⟩, hp⟩ => ⟨a, ha, hp⟩⟩

/-! ## Lists of steps -/

theorem exists_mapM_ok {xs : List α} : (∃ ys, xs.mapM f = .ok ys) ↔ ∀ x ∈ xs, ∃ y, f x = .ok y := by
  induction xs with
  | nil => exact ⟨fun _ x hx => absurd hx List.not_mem_nil, fun _ => ⟨[], rfl⟩⟩
  | cons x xs ih =>
    rw [List.mapM_cons, List.forall_mem_cons, ← ih, exists_bind_ok]
    simp only [exists_bind_ok, exists_pure_ok, and_true]
    exact ⟨fun ⟨y, hy, ys, hys⟩ => ⟨⟨y, hy⟩, ys, hys⟩, fun ⟨⟨y, hy⟩, ys, hys⟩ => ⟨y, hy, ys, hys⟩⟩

/-- A list of steps gives what each step gives, in order. -/
theorem mapM_ok_of_forall₂ {xs : List α} {ys : List β}
    (h : List.Forall₂ (fun x y => f x = .ok y) xs ys) : xs.mapM f = .ok ys := by
  induction h with
  | nil => rfl
  | cons hx _ ih =>
    rw [List.mapM_cons, hx, ok_bind, ih, ok_bind]
    rfl

/-- What holds of the value, if there is one, can be decided. -/
instance decidableForallOk {ε α : Type} (r : Except ε α) (P : α → Prop) [DecidablePred P] :
    Decidable (∀ a, r = .ok a → P a) :=
  match r with
  | .ok a => decidable_of_iff (P a) ⟨fun h _ he => Except.ok.inj he ▸ h, fun h => h a rfl⟩
  | .error _ => .isTrue fun _ he => nomatch he

end Arbreth.Lib
