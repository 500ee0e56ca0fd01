/-
  Lists whose elements carry consecutive numbers.

  `Numbered number start xs`: the elements are numbered `start + 1, start + 2, …`. Selecting
  by number is then cutting the list.
-/
import Mathlib.Data.List.Basic

namespace Arbreth.Lib

variable {α : Type} (number : α → Nat)

def Numbered (start : Nat) : List α → Prop
  | [] => True
  | x :: xs => number x = start + 1 ∧ Numbered (start + 1) xs

variable {number}

variable {start : Nat} {xs : List α} {x : α}

theorem Numbered.append {xs ys : List α} :
    Numbered number start (xs ++ ys) ↔
      Numbered number start xs ∧ Numbered number (start + xs.length) ys := by
  induction xs generalizing start with
  | nil => simp [Numbered]
  | cons x xs ih =>
    have hlen : start + (x :: xs).length = start + 1 + xs.length := by
      rw [List.length_cons]
      omega
    rw [List.cons_append, Numbered, Numbered, ih, hlen, and_assoc]

theorem Numbered.take (h : Numbered number start xs) (n : Nat) :
    Numbered number start (xs.take n) := by
  rw [← List.take_append_drop n xs] at h
  exact (Numbered.append.mp h).1

theorem Numbered.drop (h : Numbered number start xs) {n : Nat} (hn : n ≤ xs.length) :
    Numbered number (start + n) (xs.drop n) := by
  rw [← List.take_append_drop n xs] at h
  have hd := (Numbered.append.mp h).2
  rwa [List.length_take, Nat.min_eq_left hn] at hd

theorem Numbered.get (h : Numbered number start xs) {i : Nat} (hi : xs[i]? = some x) :
    number x = start + i + 1 := by
  induction xs generalizing start i with
  | nil => simp at hi
  | cons y xs ih =>
    cases i with
    | zero =>
      cases hi
      exact h.1
    | succ i =>
      rw [ih h.2 hi]
      omega

theorem Numbered.bounds (h : Numbered number start xs) (hx : x ∈ xs) :
    start < number x ∧ number x ≤ start + xs.length := by
  obtain ⟨i, hi, rfl⟩ := List.mem_iff_getElem.mp hx
  have hn := h.get (List.getElem?_eq_getElem hi)
  omega

theorem Numbered.head? (h : Numbered number start xs) (hx : xs.head? = some x) :
    number x = start + 1 := by
  rw [List.head?_eq_getElem?] at hx
  exact h.get hx

theorem Numbered.getLast? (h : Numbered number start xs) (hx : xs.getLast? = some x) :
    number x = start + xs.length := by
  have hne : xs ≠ [] := by
    rintro rfl
    cases hx
  have hpos : 0 < xs.length := List.length_pos_iff.mpr hne
  rw [List.getLast?_eq_getElem?] at hx
  have hn := h.get hx
  omega

theorem Numbered.filter_gt (h : Numbered number start xs) (n : Nat) :
    xs.filter (fun x => n < number x) = xs.drop (n - start) := by
  induction xs generalizing start with
  | nil => simp
  | cons x xs ih =>
    have hx : number x = start + 1 := h.1
    rw [List.filter_cons, ih h.2]
    by_cases hn : n ≤ start
    · have h0 : n - start = 0 := by omega
      have h1 : n - (start + 1) = 0 := by omega
      rw [if_pos (by simp; omega), h0, h1, List.drop_zero, List.drop_zero]
    · have h1 : n - start = n - (start + 1) + 1 := by omega
      rw [if_neg (by simp; omega), h1, List.drop_succ_cons]

theorem Numbered.filter_le (h : Numbered number start xs) (n : Nat) :
    xs.filter (fun x => number x ≤ n) = xs.take (n - start) := by
  induction xs generalizing start with
  | nil => simp
  | cons x xs ih =>
    have hx : number x = start + 1 := h.1
    rw [List.filter_cons, ih h.2]
    by_cases hn : n ≤ start
    · have h0 : n - start = 0 := by omega
      have h1 : n - (start + 1) = 0 := by omega
      rw [if_neg (by simp; omega), h0, h1, List.take_zero, List.take_zero]
    · have h1 : n - start = n - (start + 1) + 1 := by omega
      rw [if_pos (by simp; omega), h1, List.take_succ_cons]

end Arbreth.Lib
