/-
  Partial updates of a key-value state.

  An update gives new values to some keys. `extend u v` is `u` overridden by `v`, `lay s u`
  the state `s` with the update laid over it. Laying a list of updates one after the other is
  laying their union, and laying a final part of them twice changes nothing.
-/
import Mathlib.Data.List.Basic

namespace Arbreth.Lib

variable {κ ν β : Type}

/-- New values for some keys. -/
def Update (κ ν : Type) : Type := κ → Option ν

namespace Update

def empty : Update κ ν := fun _ => none

/-- `u` overridden by `v`. -/
def extend (u v : Update κ ν) : Update κ ν := fun k => (v k).or (u k)

/-- The state with the update laid over it. -/
def lay (s : κ → ν) (u : Update κ ν) : κ → ν := fun k => (u k).getD (s k)

/-- The union of a list of updates, later ones first. -/
def merged (f : β → Update κ ν) (xs : List β) : Update κ ν :=
  xs.foldl (fun u x => u.extend (f x)) empty

/-- The updates laid one after the other. -/
def layAll (f : β → Update κ ν) (s : κ → ν) (xs : List β) : κ → ν :=
  xs.foldl (fun s x => lay s (f x)) s

variable (s : κ → ν) (u : Update κ ν) (xs : List β)

@[simp] theorem extend_empty : u.extend empty = u := rfl

@[simp] theorem empty_extend : empty.extend u = u := by
  funext k
  exact Option.or_none

theorem extend_assoc (u v w : Update κ ν) : (u.extend v).extend w = u.extend (v.extend w) := by
  funext k
  exact Option.or_assoc.symm

theorem lay_extend (u v : Update κ ν) : lay s (u.extend v) = lay (lay s u) v := by
  funext k
  unfold lay extend
  cases v k with
  | none => rfl
  | some x => rfl

theorem lay_lay : lay (lay s u) u = lay s u := by
  funext k
  unfold lay
  cases u k with
  | none => rfl
  | some x => rfl

variable {f : β → Update κ ν}

theorem foldl_extend : xs.foldl (fun u x => u.extend (f x)) u = u.extend (merged f xs) := by
  induction xs generalizing u with
  | nil => exact (extend_empty u).symm
  | cons x xs ih =>
    unfold merged
    rw [List.foldl_cons, List.foldl_cons, ih, ih (empty.extend (f x)), empty_extend, extend_assoc]

theorem merged_append (xs ys : List β) :
    merged f (xs ++ ys) = (merged f xs).extend (merged f ys) := by
  unfold merged
  rw [List.foldl_append, foldl_extend]
  rfl

theorem merged_singleton (x : β) : merged f [x] = f x := empty_extend (f x)

theorem layAll_append (xs ys : List β) :
    layAll f s (xs ++ ys) = layAll f (layAll f s xs) ys := List.foldl_append ..

theorem layAll_eq_lay : layAll f s xs = lay s (merged f xs) := by
  induction xs generalizing s with
  | nil => rfl
  | cons x xs ih =>
    have hcons : x :: xs = [x] ++ xs := rfl
    rw [hcons, merged_append, lay_extend, merged_singleton, layAll_append, ih]
    rfl

/-- The union of a final part of a list, laid over the state after an initial part that
    overlaps it, gives the state after the whole list. -/
theorem lay_overlap {m d : Nat} (hm : m ≤ d) :
    lay (layAll f s (xs.take d)) (merged f (xs.drop m)) = layAll f s xs := by
  -- The parts before `m`, between `m` and `d`, and after `d`; the second is laid twice.
  have hback : xs.drop m = (xs.take d).drop m ++ xs.drop d := by
    have hd : xs.drop d = (xs.drop m).drop (d - m) := by
      rw [List.drop_drop, Nat.add_sub_cancel' hm]
    rw [List.drop_take, hd, List.take_append_drop]
  have hfront : xs.take d = xs.take m ++ (xs.take d).drop m := by
    conv_lhs => rw [← List.take_append_drop m (xs.take d), List.take_take, Nat.min_eq_left hm]
  calc lay (layAll f s (xs.take d)) (merged f (xs.drop m))
      = lay (lay (layAll f s (xs.take d)) (merged f ((xs.take d).drop m)))
          (merged f (xs.drop d)) := by rw [hback, merged_append, lay_extend]
    _ = lay (layAll f s (xs.take d)) (merged f (xs.drop d)) := by
        rw [hfront, layAll_append, ← hfront, layAll_eq_lay (layAll f s (xs.take m)), lay_lay]
    _ = layAll f s xs := by rw [← layAll_eq_lay, ← layAll_append, List.take_append_drop]

end Update

end Arbreth.Lib
