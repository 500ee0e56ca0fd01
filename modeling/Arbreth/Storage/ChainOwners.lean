/-
  The chain owners after the upgrade to version 11.

  Before version 11 `remove` moved the last owner without telling the index map, which could
  leave stale entries. The upgrade empties the list with `clear_list` and keeps the map, and
  `rectify_mapping` puts an owner that is mapped but not listed back into the list. From then on
  the map leads from every slot of the list back to it, whatever stale entries remain, and
  `rectify_mapping` succeeds exactly on the owners that are still to be listed.

  `remove` looks at the map alone. For an owner that is mapped but not listed it takes one off
  the size all the same: from another owner's place, or, with the list still empty, from zero,
  and the size wraps to `u64::MAX`. A run is in order exactly when it never does the latter.
-/
import Arbreth.Storage.Membership

namespace Arbreth.Storage

open Arbreth.Lib Function AddressSet

/-- A call on the owners after the upgrade. -/
inductive OwnerOp where
  | rectify (addr : Address)
  | add (addr : Address)
  | remove (addr : Address) (arbosVersion : Nat)
  deriving DecidableEq

/-- A removal at a version the upgrade has reached. -/
def OwnerOp.Current : OwnerOp → Prop
  | remove _ arbosVersion => 11 ≤ arbosVersion
  | _ => True

instance (op : OwnerOp) : Decidable op.Current := by
  cases op <;> unfold OwnerOp.Current <;> infer_instance

/-- A call that fails leaves the owners as they were: `rectify_mapping` checks before it
    writes. -/
def ownerStep (s : AddressSet) : OwnerOp → Option AddressSet
  | .rectify addr =>
    match s.rectifyMapping addr with
    | .ok s' => some s'
    | .error _ => some s
  | .add addr => some (s.add addr)
  | .remove addr arbosVersion => some (s.remove addr arbosVersion)

/-- The owners right after the upgrade, when they were first kept by these calls. -/
def upgraded (before : List SetOp) : AddressSet :=
  (before.foldl SetOp.apply AddressSet.init).clearList

/-- The entries of the list are distinct, and the map leads back to each. -/
def ListOk (s : AddressSet) : Prop :=
  (∀ i j, i < s.size → j < s.size → s.slots (i + 1) = s.slots (j + 1) → i = j) ∧
    ∀ i, i < s.size → s.byAddress (s.slots (i + 1)) = i + 1

/-- What a call is to do: `rectify_mapping` lists an owner that is mapped but not listed and
    refuses every other address, and `remove` does not take the size below zero. -/
def CallOk (s : AddressSet) : OwnerOp → Prop
  | .rectify a =>
    ((∃ s', s.rectifyMapping a = .ok s') ↔ s.byAddress a ≠ 0 ∧ ¬ s.InList a) ∧
      ∀ s', s.rectifyMapping a = .ok s' → s'.InList a
  | .add _ => True
  | .remove a v => (s.remove a v).size ≤ s.size

/-- The list is in order at every point of a run, and every call does its part. -/
def RunOk (s : AddressSet) (ops : List OwnerOp) : Prop :=
  Along ownerStep (fun s op => ListOk s ∧ CallOk s op) s ops ∧
    ∀ s', exec ownerStep s ops = some s' → ListOk s'

/-- The states a call is safe in: no mapped owner is removed while the list is empty, and
    `rectify_mapping` lists no owner in a list of `u64::MAX` entries. -/
def Safe (s : AddressSet) : OwnerOp → Prop
  | .rectify a => s.size = u64Max → s.byAddress a = 0 ∨ s.InList a
  | .add _ => True
  | .remove a _ => s.byAddress a ≠ 0 → s.size ≠ 0

instance (s : AddressSet) (op : OwnerOp) : Decidable (Safe s op) := by
  cases op <;> unfold Safe <;> (try unfold AddressSet.InList) <;> infer_instance

variable {s s' : AddressSet} {a : Address} {op : OwnerOp} {ops : List OwnerOp}

theorem ListOk.of_listed (h : s.Listed) : ListOk s := ⟨fun _ _ => h.slots_inj, h⟩

/-! ## `rectify_mapping` -/

theorem inList_iff (h : s.Listed) (ha : s.byAddress a ≠ 0) :
    s.InList a ↔ s.slots (s.byAddress a) = a ∧ s.byAddress a ≤ s.size := by
  constructor
  · rintro ⟨i, hi, rfl⟩
    rw [h i hi]
    exact ⟨rfl, hi⟩
  · rintro ⟨hslot, hle⟩
    refine ⟨s.byAddress a - 1, by omega, ?_⟩
    rwa [Nat.sub_add_cancel (Nat.pos_of_ne_zero ha)]

theorem rectifyMapping_eq_ok (h : s.Listed) :
    s.rectifyMapping a = .ok s' ↔
      (s.byAddress a ≠ 0 ∧ ¬ s.InList a) ∧
        { s with byAddress := update s.byAddress a 0 }.add a = s' := by
  by_cases ha : s.byAddress a = 0
  · simp [rectifyMapping, isMember, ha]
  · rw [rectifyMapping, if_pos (isMember_of_ne_zero ha),
      inList_iff h ha]
    dsimp only
    split
    · next hslot => simp [hslot]
    · next hslot => simp [hslot, ha]

/-- The owner stands in the list afterwards, unless there is no room for it. -/
theorem inList_rectify (h : s.Listed) (hroom : s.size + 1 < 2 ^ 64)
    (hok : s.rectifyMapping a = .ok s') : s'.InList a := by
  obtain ⟨-, rfl⟩ := (rectifyMapping_eq_ok h).mp hok
  exact inList_add (update_self _ _ _) hroom

/-! ## One call -/

theorem size_add_lt {s : AddressSet} (hs : s.size < 2 ^ 64) (a : Address) :
    (s.add a).size < 2 ^ 64 := by
  unfold AddressSet.add
  split
  · exact hs
  · exact wrap64_lt _

theorem size_remove_lt (hs : s.size < 2 ^ 64) (a : Address) (v : Nat) :
    (s.remove a v).size < 2 ^ 64 := by
  unfold AddressSet.remove
  dsimp only
  split
  · exact hs
  · exact wrap64_lt _

theorem listed_ownerStep (h : s.Listed ∧ s.size < 2 ^ 64) (hop : op.Current) (hsafe : Safe s op)
    (hstep : ownerStep s op = some s') : s'.Listed ∧ s'.size < 2 ^ 64 := by
  cases op with
  | rectify a =>
    simp only [ownerStep] at hstep
    cases hr : s.rectifyMapping a with
    | error e =>
      rw [hr] at hstep
      cases hstep
      exact h
    | ok t =>
      rw [hr] at hstep
      cases hstep
      obtain ⟨⟨-, hunlisted⟩, rfl⟩ := (rectifyMapping_eq_ok h.1).mp hr
      have hsize : { s with byAddress := update s.byAddress a 0 }.size < 2 ^ 64 := h.2
      exact ⟨(h.1.unmap hunlisted).add hsize a, size_add_lt hsize a⟩
  | add a =>
    cases hstep
    exact ⟨h.1.add h.2 a, size_add_lt h.2 a⟩
  | remove a v =>
    cases hstep
    exact ⟨h.1.remove hop h.2 fun ha => Nat.pos_of_ne_zero (hsafe ha), size_remove_lt h.2 a v⟩

theorem callOk_of_safe (h : s.Listed ∧ s.size < 2 ^ 64) (hsafe : Safe s op) : CallOk s op := by
  cases op with
  | rectify a =>
    refine ⟨⟨fun ⟨s', hok⟩ => ((rectifyMapping_eq_ok h.1).mp hok).1,
      fun hmapped => ⟨_, (rectifyMapping_eq_ok h.1).mpr ⟨hmapped, rfl⟩⟩⟩, fun s' hok => ?_⟩
    have hmapped := ((rectifyMapping_eq_ok h.1).mp hok).1
    have hne : s.size ≠ u64Max := fun hmax =>
      (hsafe hmax).elim hmapped.1 hmapped.2
    have hroom : s.size + 1 < 2 ^ 64 := by
      have := h.2
      unfold u64Max at hne
      omega
    exact inList_rectify h.1 hroom hok
  | add a => trivial
  | remove a v =>
    by_cases ha : s.byAddress a = 0
    · exact (congrArg AddressSet.size (remove_of_not_mapped ha)).le
    · refine (size_remove ha (Nat.pos_of_ne_zero (hsafe ha)) h.2).trans_le ?_
      exact Nat.sub_le _ _

theorem safe_of_callOk (hlist : ListOk s) (h : CallOk s op) : Safe s op := by
  cases op with
  | rectify a =>
    intro hfull
    by_contra hmapped
    push Not at hmapped
    obtain ⟨t, hok⟩ := h.1.mpr hmapped
    have hzero : t.size = 0 := by
      obtain ⟨-, rfl⟩ := (rectifyMapping_eq_ok hlist.2).mp hok
      exact size_add_of_full (update_self _ _ _) hfull
    obtain ⟨i, hi, -⟩ := h.2 t hok
    omega
  | add a => trivial
  | remove a v =>
    intro ha hempty
    have hle : (s.remove a v).size ≤ s.size := h
    rw [size_remove_of_empty ha hempty, hempty] at hle
    exact absurd hle (by decide)

/-! ## Runs -/

/-- **Owner repair.** After the upgrade, however the owners were kept before, a run of
    rectifications, additions and removals is in order at every point exactly when it never
    removes a mapped owner from an empty list (nor rectifies one in a list of `u64::MAX`
    entries). -/
theorem owner_repair_iff (before : List SetOp) (hops : ∀ op ∈ ops, op.Current) :
    RunOk (upgraded before) ops ↔ Along ownerStep Safe (upgraded before) ops := by
  have h0 : (upgraded before).Listed ∧ (upgraded before).size < 2 ^ 64 := by
    have hsize : (upgraded before).size = 0 := size_clearList
    exact ⟨listed_of_size_eq_zero hsize, by rw [hsize]; decide⟩
  constructor
  · intro hrun
    have htrue : ∀ s op s', True → ListOk s ∧ CallOk s op → ownerStep s op = some s' → True :=
      fun _ _ _ _ _ _ => trivial
    exact Along.imp htrue (fun _ _ _ hok => safe_of_callOk hok.1 hok.2) trivial hrun.1
  · intro hsafe
    have hstep : ∀ s op s', s.Listed ∧ s.size < 2 ^ 64 → op.Current ∧ Safe s op →
        ownerStep s op = some s' → s'.Listed ∧ s'.size < 2 ^ 64 :=
      fun _ _ _ hs hok => listed_ownerStep hs hok.1 hok.2
    refine ⟨Along.imp hstep (fun s op hs hok => ?_) h0 (hsafe.and hops), fun s' hrun => ?_⟩
    · exact ⟨.of_listed hs.1, callOk_of_safe hs hok.2⟩
    · exact .of_listed (exec_invariant hstep h0 (hsafe.and hops) hrun).1

/-- Two owners, of whom the first is listed again; removing the second, whose entry is stale,
    is then in order. -/
theorem owner_repair_iff_relisted :
    RunOk (upgraded [.add 1, .add 2]) [.rectify 1, .remove 2 11] :=
  (owner_repair_iff [.add 1, .add 2] (by decide)).mpr (by decide +kernel)

/-- An owner removed right after the upgrade: the size wraps. -/
theorem owner_removed_from_empty_list :
    ¬ RunOk (upgraded [.add 1]) [.remove 1 11] ∧
      ((upgraded [.add 1]).remove 1 11).size = u64Max := by
  refine ⟨fun hrun => ?_, by decide +kernel⟩
  have hle : ((upgraded [.add 1]).remove 1 11).size ≤ (upgraded [.add 1]).size := hrun.1.1.2
  exact absurd hle (by decide +kernel)

end Arbreth.Storage
