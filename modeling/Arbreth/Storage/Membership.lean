/-
  Runs of the address set: it is a set.

  A run calls `add`, `remove` and `clear` on a set that starts empty. Every call keeps the set
  `Consistent`, as long as the size has room for one more member, and changes the membership of
  one address (of all, for `clear`). So after a run the members are the addresses added and not
  dropped since, each listed once.
-/
import Arbreth.Lib.Run
import Arbreth.Storage.AddressSet

namespace Arbreth.Storage

open Arbreth.Lib AddressSet

/-- A call that changes the set, with the ArbOS version a removal runs under. -/
inductive SetOp where
  | add (addr : Address)
  | remove (addr : Address) (arbosVersion : Nat)
  | clear
  deriving DecidableEq

namespace SetOp

def apply (s : AddressSet) : SetOp → AddressSet
  | add addr => s.add addr
  | remove addr arbosVersion => s.remove addr arbosVersion
  | clear => s.clear

/-- A removal from version 11 on, where the index map follows the moved member. -/
def Current : SetOp → Prop
  | remove _ arbosVersion => 11 ≤ arbosVersion
  | _ => True

/-- The call takes the address out. -/
def Drops (a : Address) : SetOp → Prop
  | add _ => False
  | remove addr _ => addr = a
  | clear => True

instance (op : SetOp) : Decidable op.Current := by
  cases op <;> unfold Current <;> infer_instance

end SetOp

/-- No call fails. -/
def setStep (s : AddressSet) (op : SetOp) : Option AddressSet := some (op.apply s)

/-- There is room for one more member. -/
def HasRoom (s : AddressSet) (_ : SetOp) : Prop := s.size < 2 ^ 64 - 1

instance (s : AddressSet) (op : SetOp) : Decidable (HasRoom s op) := by
  unfold HasRoom
  infer_instance

/-- The address was added, and no later call took it out. -/
def AddedSince (ops : List SetOp) (a : Address) : Prop :=
  ∃ before after, ops = before ++ SetOp.add a :: after ∧ ∀ op ∈ after, ¬ op.Drops a

variable {s s' : AddressSet} {a : Address} {op : SetOp} {ops : List SetOp}

theorem not_addedSince_nil : ¬ AddedSince [] a := by
  rintro ⟨before, after, heq, _⟩
  exact absurd heq.symm (by simp)

theorem addedSince_cons :
    AddedSince (op :: ops) a ↔
      (op = .add a ∧ ∀ op' ∈ ops, ¬ op'.Drops a) ∨ AddedSince ops a := by
  constructor
  · rintro ⟨before, after, heq, hafter⟩
    cases before with
    | nil =>
      obtain ⟨rfl, rfl⟩ := List.cons.inj heq
      exact .inl ⟨rfl, hafter⟩
    | cons first before =>
      obtain ⟨-, rfl⟩ := List.cons.inj heq
      exact .inr ⟨before, after, rfl, hafter⟩
  · rintro (⟨rfl, hafter⟩ | ⟨before, after, rfl, hafter⟩)
    · exact ⟨[], ops, rfl, hafter⟩
    · exact ⟨op :: before, after, rfl, hafter⟩

/-! ## One call -/

theorem consistent_apply (h : s.Consistent) (hop : op.Current) (hroom : HasRoom s op) :
    (op.apply s).Consistent := by
  cases op with
  | add addr => exact consistent_add h (Nat.add_lt_of_lt_sub hroom)
  | remove addr v => exact consistent_remove h hop
  | clear => exact consistent_clear h

theorem isMember_apply (h : s.Consistent) (hop : op.Current) (hroom : HasRoom s op)
    (a : Address) :
    (op.apply s).isMember a = true ↔ op = .add a ∨ (s.isMember a = true ∧ ¬ op.Drops a) := by
  cases op with
  | add addr =>
    refine (isMember_add_iff (Nat.add_lt_of_lt_sub hroom)).trans ?_
    simp only [SetOp.Drops, SetOp.add.injEq, not_false_eq_true, and_true]
    rw [@eq_comm _ a addr]
  | remove addr v =>
    refine (isMember_remove_iff h hop a).trans ?_
    simp only [SetOp.Drops, reduceCtorEq, false_or]
    rw [and_comm, @ne_comm _ a addr]
  | clear => simp [SetOp.apply, SetOp.Drops, isMember, byAddress_clear h a]

/-! ## Runs -/

theorem consistent_run (h : s.Consistent) (hops : ∀ op ∈ ops, op.Current)
    (hroom : Along setStep HasRoom s ops) (hrun : exec setStep s ops = some s') :
    s'.Consistent := by
  refine exec_invariant (fun s op s' hs hok hstep => ?_) h (hroom.and hops) hrun
  cases hstep
  exact consistent_apply hs hok.1 hok.2

theorem isMember_run (h : s.Consistent) (hops : ∀ op ∈ ops, op.Current)
    (hroom : Along setStep HasRoom s ops) (hrun : exec setStep s ops = some s') (a : Address) :
    s'.isMember a = true ↔
      AddedSince ops a ∨ (s.isMember a = true ∧ ∀ op ∈ ops, ¬ op.Drops a) := by
  induction ops generalizing s with
  | nil =>
    cases hrun
    simp [not_addedSince_nil]
  | cons op ops ih =>
    have hop := hops op List.mem_cons_self
    have hrest := ih (consistent_apply h hop hroom.1)
      (fun op' h' => hops op' (List.mem_cons_of_mem op h')) (hroom.2 _ rfl) hrun
    rw [hrest, isMember_apply h hop hroom.1, addedSince_cons, List.forall_mem_cons]
    tauto

/-- **An address set is a set.** After any run from the empty set that never meets a full one,
    removals being at version 11 or later: the entries of the list are distinct, the map leads
    from each back to its slot and is zero elsewhere; the members are the addresses added and
    not dropped since, `all_members` lists each of them once, and a removal has a member to
    take off the size. -/
theorem address_set_is_set (hops : ∀ op ∈ ops, op.Current)
    (hroom : Along setStep HasRoom AddressSet.init ops)
    (hrun : exec setStep AddressSet.init ops = some s) :
    (∀ i j, i < s.size → j < s.size → s.slots (i + 1) = s.slots (j + 1) → i = j) ∧
      (∀ i, i < s.size → s.byAddress (s.slots (i + 1)) = i + 1) ∧
      (∀ a, (∀ i, i < s.size → s.slots (i + 1) ≠ a) → s.byAddress a = 0) ∧
      (∀ a, s.isMember a = true ↔ AddedSince ops a) ∧
      (s.allMembers u64Max).Nodup ∧
      (∀ a, a ∈ s.allMembers u64Max ↔ s.isMember a = true) ∧
      (s.allMembers u64Max).length = s.size ∧
      ∀ a v, s.isMember a = true → 0 < s.size ∧ (s.remove a v).size + 1 = s.size := by
  have h := consistent_run consistent_init hops hroom hrun
  have hall := allMembers_u64Max h
  refine ⟨fun i j hi hj => h.listed.slots_inj hi hj, h.index_slot, fun a ha => ?_, fun a => ?_,
    ?_, fun a => ?_, ?_, fun a v ha => ?_⟩
  · by_contra hne
    have hle := h.index_le a
    refine ha (s.byAddress a - 1) (by omega) ?_
    rw [Nat.sub_add_cancel (Nat.pos_of_ne_zero hne)]
    exact h.slot_index a hne
  · refine (isMember_run consistent_init hops hroom hrun a).trans ?_
    simp [isMember, AddressSet.init]
  · rw [hall]
    exact nodup_members h
  · rw [hall]
    exact (isMember_iff h a).symm
  · rw [hall, members, List.length_map, List.length_range]
  · have hne : s.byAddress a ≠ 0 := of_decide_eq_true ha
    have hpos := h.size_pos hne
    rw [size_remove hne hpos h.fits]
    omega

/-- Two members, the first of which is removed and leaves its slot to the second. -/
theorem address_set_is_set_swap :
    let s := ((AddressSet.init.add 1).add 2).remove 1 11
    (∀ a, s.isMember a = true ↔ AddedSince [.add 1, .add 2, .remove 1 11] a) ∧
      s.isMember 2 = true ∧ s.allMembers u64Max = [2] := by
  have hrun : exec setStep AddressSet.init [.add 1, .add 2, .remove 1 11] =
      some (((AddressSet.init.add 1).add 2).remove 1 11) := rfl
  exact ⟨(address_set_is_set (by decide) (by decide +kernel) hrun).2.2.2.1, by decide +kernel,
    by decide +kernel⟩

end Arbreth.Storage
