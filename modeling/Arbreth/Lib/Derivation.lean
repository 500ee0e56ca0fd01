/-
  Keys derived from one root along paths.

  A path is a list of labels; the key at a path is what its labels derive from the root, one
  after the other. If derivation takes different keys or labels to different keys, and never
  back to the root, different paths have different keys, whatever their lengths. Both conditions
  are asked only of the paths in use.
-/
import Mathlib.Data.List.Induction

namespace Arbreth.Lib

variable {α ι : Type}

/-- The key at a path from `root`. -/
def keyAt (derive : α → ι → α) (root : α) (path : List ι) : α := path.foldl derive root

variable (derive : α → ι → α)

theorem keyAt_concat (root : α) (path : List ι) (i : ι) :
    keyAt derive root (path ++ [i]) = derive (keyAt derive root path) i := by
  rw [keyAt, List.foldl_append]
  rfl

theorem keyAt_inj {derive : α → ι → α} {root : α} (InUse : List ι → Prop)
    (hshorter : ∀ path i, InUse (path ++ [i]) → InUse path)
    (hderive : ∀ p i q j, InUse (p ++ [i]) → InUse (q ++ [j]) →
      derive (keyAt derive root p) i = derive (keyAt derive root q) j →
      keyAt derive root p = keyAt derive root q ∧ i = j)
    (hroot : ∀ p i, InUse (p ++ [i]) → derive (keyAt derive root p) i ≠ root)
    {p q : List ι} (hp : InUse p) (hq : InUse q)
    (heq : keyAt derive root p = keyAt derive root q) : p = q := by
  -- from the end of the paths: the last labels agree, and so do the keys before them
  induction p using List.reverseRecOn generalizing q with
  | nil =>
    induction q using List.reverseRecOn with
    | nil => rfl
    | append_singleton q j _ =>
      rw [keyAt_concat] at heq
      exact absurd heq.symm (hroot q j hq)
  | append_singleton p i ih =>
    induction q using List.reverseRecOn with
    | nil =>
      rw [keyAt_concat] at heq
      exact absurd heq (hroot p i hp)
    | append_singleton q j _ =>
      rw [keyAt_concat, keyAt_concat] at heq
      obtain ⟨hkeys, rfl⟩ := hderive p i q j hp hq heq
      rw [ih (hshorter p i hp) (hshorter q i hq) hkeys]

end Arbreth.Lib
