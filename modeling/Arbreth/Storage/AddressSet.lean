/-
  The set of addresses in ArbOS storage (arbos, address_set/mod.rs).

  Slot 0 holds the size, the slots from 1 on the members, and a subspace maps an address to the
  slot it stands in, 0 for an address that is no member. As for the queue, the slots of the two
  spaces are apart, so that the set is modelled by its cells. The size is kept beside the slots:
  a slot that is read as a member is never slot 0, and where `add` or `remove` writes slot 0 the
  size is written over it before the call ends.

  What the set is for is the list `members`: `add` appends an address that is new, and `remove`
  moves the last member into the hole. `Listed` is the half of `Consistent` that also survives
  stale entries of the index map.
-/
import Arbreth.Lib.Machine

namespace Arbreth.Storage

open Arbreth.Lib Function

structure AddressSet where
  size : Nat
  slots : Nat → Address
  byAddress : Address → Nat

namespace AddressSet

/-- `initialize_address_set` over fresh storage. -/
def init : AddressSet := ⟨0, fun _ => 0, fun _ => 0⟩

def isMember (s : AddressSet) (addr : Address) : Bool := s.byAddress addr ≠ 0

/-- `add`. The size is a plain `u64` sum, which wraps. -/
def add (s : AddressSet) (addr : Address) : AddressSet :=
  if s.isMember addr then s
  else
    { size := wrap64 (s.size + 1)
      slots := update s.slots (wrap64 (1 + s.size)) addr
      byAddress := update s.byAddress addr (wrap64 (1 + s.size)) }

/-- `remove`. The last member moves into the hole, and from version 11 on the index map follows
    it. The size is a plain `u64` difference, which wraps at zero. -/
def remove (s : AddressSet) (addr : Address) (arbosVersion : Nat) : AddressSet :=
  let slot := s.byAddress addr
  if slot = 0 then s
  else
    let cleared := update s.byAddress addr 0
    let atSize := s.slots s.size
    { size := wrap64 (s.size + u64Max)
      slots := update
        (if slot < s.size then update s.slots slot atSize else s.slots) s.size 0
      byAddress :=
        if slot < s.size ∧ 11 ≤ arbosVersion then update cleared atSize slot
        else cleared }

/-- One turn of the loop of `clear`. -/
def clearSlot (s : AddressSet) (i : Nat) : AddressSet :=
  { s with
    slots := update s.slots i 0
    byAddress := update s.byAddress (s.slots i) 0 }

/-- `clear`. -/
def clear (s : AddressSet) : AddressSet :=
  if s.size = 0 then s
  else { (List.range s.size).foldl (fun t i => t.clearSlot (i + 1)) s with size := 0 }

/-- `clear_list`: the slots go, the index map stays. -/
def clearList (s : AddressSet) : AddressSet :=
  if s.size = 0 then s
  else
    { s with
      size := 0
      slots := (List.range s.size).foldl (fun f i => update f (i + 1) 0) s.slots }

/-- `AddressSetError`, without the failures of the store. -/
inductive Error where
  | notMember
  | mappingAlreadyConsistent
  deriving DecidableEq, Repr

/-- `rectify_mapping`. -/
def rectifyMapping (s : AddressSet) (addr : Address) : Except Error AddressSet :=
  if s.isMember addr then
    let slot := s.byAddress addr
    if s.slots slot = addr ∧ slot ≤ s.size then .error .mappingAlreadyConsistent
    else .ok ({ s with byAddress := update s.byAddress addr 0 }.add addr)
  else .error .notMember

/-- `all_members`. -/
def allMembers (s : AddressSet) (maxNum : Nat) : List Address :=
  (List.range (if maxNum < s.size then maxNum else s.size)).map fun i => s.slots (i + 1)

/-- The members in the order they were added. -/
def members (s : AddressSet) : List Address := (List.range s.size).map fun i => s.slots (i + 1)

/-- The index map and the slots agree, and the size is a `u64`. -/
structure Consistent (s : AddressSet) : Prop where
  fits : s.size < 2 ^ 64
  index_le : ∀ a, s.byAddress a ≤ s.size
  slot_index : ∀ a, s.byAddress a ≠ 0 → s.slots (s.byAddress a) = a
  index_slot : ∀ i, i < s.size → s.byAddress (s.slots (i + 1)) = i + 1

theorem consistent_init : init.Consistent :=
  ⟨by decide, fun _ => Nat.le_refl 0, fun _ h => absurd rfl h, fun _ h => absurd h (Nat.not_lt_zero _)⟩

variable {s : AddressSet}

theorem allMembers_u64Max (h : s.Consistent) : s.allMembers u64Max = s.members := by
  have hle : ¬ u64Max < s.size := by
    have := h.fits
    unfold u64Max
    omega
  rw [allMembers, if_neg hle, members]

theorem isMember_iff (h : s.Consistent) (a : Address) : s.isMember a = true ↔ a ∈ s.members := by
  rw [isMember, decide_eq_true_iff, members, List.mem_map]
  constructor
  · intro hne
    refine ⟨s.byAddress a - 1, List.mem_range.mpr ?_, ?_⟩
    · have := h.index_le a
      omega
    · rw [Nat.sub_add_cancel (Nat.pos_of_ne_zero hne)]
      exact h.slot_index a hne
  · rintro ⟨i, hi, rfl⟩
    rw [h.index_slot i (List.mem_range.mp hi)]
    exact Nat.succ_ne_zero i

theorem nodup_members (h : s.Consistent) : s.members.Nodup := by
  refine List.Nodup.map_on (fun i hi j hj hij => ?_) List.nodup_range
  have := h.index_slot i (List.mem_range.mp hi)
  rw [hij, h.index_slot j (List.mem_range.mp hj)] at this
  omega

theorem isMember_of_ne_zero {a : Address} (ha : s.byAddress a ≠ 0) : s.isMember a = true :=
  decide_eq_true ha

theorem add_of_isMember {a : Address} (ha : s.isMember a = true) : s.add a = s := if_pos ha

theorem add_of_not_isMember {a : Address} (ha : s.isMember a = false) (hfits : s.size + 1 < 2 ^ 64) :
    s.add a = ⟨s.size + 1, update s.slots (s.size + 1) a,
      update s.byAddress a (s.size + 1)⟩ := by
  rw [add, if_neg (by rw [ha]; exact Bool.false_ne_true), Nat.add_comm 1, wrap64_of_lt hfits]

theorem consistent_add {a : Address} (h : s.Consistent) (hfits : s.size + 1 < 2 ^ 64) :
    (s.add a).Consistent := by
  cases ha : s.isMember a with
  | true => rwa [add_of_isMember ha]
  | false =>
    have hnew : s.byAddress a = 0 := by simpa [isMember] using ha
    rw [add_of_not_isMember ha hfits]
    refine ⟨hfits, fun b => ?_, fun b hb => ?_, fun i hi => ?_⟩
    · dsimp only
      by_cases hba : b = a
      · rw [hba, update_self]
      · rw [update_of_ne hba]
        exact (h.index_le b).trans (Nat.le_succ _)
    · dsimp only at hb ⊢
      by_cases hba : b = a
      · rw [hba, update_self, update_self]
      · rw [update_of_ne hba] at hb ⊢
        have hne : s.byAddress b ≠ s.size + 1 := by
          have := h.index_le b
          omega
        rw [update_of_ne hne]
        exact h.slot_index b hb
    · dsimp only at hi ⊢
      by_cases hlast : i = s.size
      · rw [hlast, update_self, update_self]
      · rw [update_of_ne (fun he => hlast (Nat.succ.inj he))]
        have hslot := h.index_slot i (by omega)
        -- The slot of an old member holds another address than the new one.
        have hne : s.slots (i + 1) ≠ a := by
          intro he
          rw [he, hnew] at hslot
          omega
        rw [update_of_ne hne, hslot]

theorem members_add {a : Address} (ha : s.isMember a = false) (hfits : s.size + 1 < 2 ^ 64) :
    (s.add a).members = s.members ++ [a] := by
  rw [add_of_not_isMember ha hfits, members, members, List.range_succ, List.map_append,
    List.map_singleton]
  dsimp only
  rw [update_self]
  congr 1
  refine List.map_congr_left fun i hi => update_of_ne ?_ _ _
  have := List.mem_range.mp hi
  omega

theorem isMember_add (a : Address) (hfits : s.size + 1 < 2 ^ 64) : (s.add a).isMember a = true := by
  cases ha : s.isMember a with
  | true => rwa [add_of_isMember ha]
  | false => rw [add_of_not_isMember ha hfits]; simp [isMember]

/-! ## The list alone -/

/-- The index map leads from every slot of the list back to it. -/
def Listed (s : AddressSet) : Prop := ∀ i, i < s.size → s.byAddress (s.slots (i + 1)) = i + 1

/-- An address that stands in the list. -/
def InList (s : AddressSet) (a : Address) : Prop := ∃ i, i < s.size ∧ s.slots (i + 1) = a

theorem Listed.slots_inj (h : s.Listed) {i j : Nat} (hi : i < s.size) (hj : j < s.size)
    (he : s.slots (i + 1) = s.slots (j + 1)) : i = j := by
  have := h i hi
  rw [he, h j hj] at this
  omega

theorem listed_of_size_eq_zero (h : s.size = 0) : s.Listed := fun i hi => by omega

@[simp] theorem size_clearList : s.clearList.size = 0 := by
  unfold clearList
  split
  next h => exact h
  next => rfl

theorem Listed.unmap (h : s.Listed) {a : Address} (ha : ¬ s.InList a) :
    Listed { s with byAddress := update s.byAddress a 0 } := by
  intro i hi
  have hne : s.slots (i + 1) ≠ a := fun he => ha ⟨i, hi, he⟩
  exact (update_of_ne hne _ _).trans (h i hi)

/-- In a full set the size wraps, and the list is empty again. -/
theorem size_add_of_full {a : Address} (ha : s.byAddress a = 0) (hfull : s.size = u64Max) :
    (s.add a).size = 0 := by
  have hnew : ¬ s.isMember a = true := by simp [isMember, ha]
  rw [AddressSet.add, if_neg hnew, hfull]
  rfl

theorem Listed.add (h : s.Listed) (hfits : s.size < 2 ^ 64) (a : Address) : (s.add a).Listed := by
  cases ha : s.isMember a with
  | true => rwa [add_of_isMember ha]
  | false =>
    have hnew : s.byAddress a = 0 := by simpa [isMember] using ha
    by_cases hroom : s.size + 1 < 2 ^ 64
    · rw [add_of_not_isMember ha hroom]
      intro i hi
      dsimp only at hi ⊢
      by_cases hlast : i = s.size
      · rw [hlast, update_self, update_self]
      · have hslot := h i (by omega)
        have hne : s.slots (i + 1) ≠ a := by
          intro he
          rw [he, hnew] at hslot
          omega
        have hold : i + 1 ≠ s.size + 1 := by omega
        rw [update_of_ne hold, update_of_ne hne, hslot]
    · exact listed_of_size_eq_zero (size_add_of_full hnew (by unfold u64Max; omega))

theorem inList_add {a : Address} (ha : s.byAddress a = 0) (hfits : s.size + 1 < 2 ^ 64) :
    (s.add a).InList a := by
  have hnew : s.isMember a = false := by simpa [isMember] using ha
  rw [add_of_not_isMember hnew hfits]
  exact ⟨s.size, Nat.lt_succ_self _, update_self _ _ _⟩

theorem wrap64_pred {n : Nat} (hpos : 0 < n) (hfits : n < 2 ^ 64) :
    wrap64 (n + u64Max) = n - 1 := by
  unfold wrap64 u64Max
  omega

section Remove

variable {a : Address} {v : Nat}

theorem remove_of_not_mapped (ha : s.byAddress a = 0) : s.remove a v = s := if_pos ha

theorem size_remove (ha : s.byAddress a ≠ 0) (hpos : 0 < s.size) (hfits : s.size < 2 ^ 64) :
    (s.remove a v).size = s.size - 1 := by
  rw [remove, if_neg ha]
  exact wrap64_pred hpos hfits

theorem size_remove_of_empty (ha : s.byAddress a ≠ 0) (hempty : s.size = 0) :
    (s.remove a v).size = u64Max := by
  rw [remove, if_neg ha, hempty]
  rfl

/-- Removing the address that the map sends past the last slot or to it drops the last slot. -/
theorem remove_last (ha : s.byAddress a ≠ 0) (hslot : ¬ s.byAddress a < s.size) (v : Nat) :
    (s.remove a v).slots = update s.slots s.size 0 ∧
      (s.remove a v).byAddress = update s.byAddress a 0 := by
  rw [remove, if_neg ha]
  dsimp only
  exact ⟨by rw [if_neg hslot], if_neg fun h => hslot h.1⟩

/-- Otherwise the last member moves. -/
theorem remove_inner (ha : s.byAddress a ≠ 0) (hslot : s.byAddress a < s.size) (hv : 11 ≤ v) :
    (s.remove a v).slots =
        update (update s.slots (s.byAddress a) (s.slots s.size)) s.size 0 ∧
      (s.remove a v).byAddress =
        update (update s.byAddress a 0) (s.slots s.size) (s.byAddress a) := by
  rw [remove, if_neg ha]
  dsimp only
  exact ⟨by rw [if_pos hslot], if_pos ⟨hslot, hv⟩⟩

/-- With a member to drop, `remove` keeps the list in order, also for an address whose map
    entry is stale: the entry then costs some other address its place, and no more. -/
theorem Listed.remove (h : s.Listed) (hv : 11 ≤ v) (hfits : s.size < 2 ^ 64)
    (hpos : s.byAddress a ≠ 0 → 0 < s.size) : (s.remove a v).Listed := by
  by_cases ha : s.byAddress a = 0
  · rwa [remove_of_not_mapped ha]
  have hpos := hpos ha
  intro i hi
  rw [size_remove ha hpos hfits] at hi
  have hback := h i (by omega)
  have hinner : i + 1 ≠ s.size := by omega
  by_cases hslot : s.byAddress a < s.size
  · have hlast := h (s.size - 1) (by omega)
    rw [Nat.sub_add_cancel hpos] at hlast
    obtain ⟨hslots, hmap⟩ := remove_inner ha hslot hv
    rw [hslots, hmap, update_of_ne hinner]
    by_cases hhole : i + 1 = s.byAddress a
    · rw [hhole, update_self, update_self]
    · have hne : s.slots (i + 1) ≠ s.slots s.size := by
        intro he
        rw [he, hlast] at hback
        omega
      have hne' : s.slots (i + 1) ≠ a := by
        intro he
        rw [he] at hback
        exact hhole hback.symm
      rw [update_of_ne hhole, update_of_ne hne, update_of_ne hne', hback]
  · obtain ⟨hslots, hmap⟩ := remove_last ha hslot v
    have hne : s.slots (i + 1) ≠ a := by
      intro he
      rw [he] at hback
      omega
    rw [hslots, hmap, update_of_ne hinner, update_of_ne hne, hback]

end Remove

/-! ## Consistent sets -/

theorem Consistent.listed (h : s.Consistent) : s.Listed := h.index_slot

theorem Consistent.slots_eq_iff (h : s.Consistent) {i : Nat} (hi : i < s.size) {a : Address} :
    s.slots (i + 1) = a ↔ s.byAddress a = i + 1 := by
  constructor
  · rintro rfl
    exact h.index_slot i hi
  · intro hidx
    rw [← hidx]
    exact h.slot_index a (by omega)

theorem isMember_add_iff {a b : Address} (hfits : s.size + 1 < 2 ^ 64) :
    (s.add a).isMember b = true ↔ b = a ∨ s.isMember b = true := by
  cases ha : s.isMember a with
  | true =>
    rw [add_of_isMember ha]
    exact ⟨Or.inr, fun h => h.elim (fun he => he ▸ ha) id⟩
  | false =>
    rw [add_of_not_isMember ha hfits]
    by_cases hba : b = a
    · simp [isMember, hba]
    · simp [isMember, hba]

section Remove

variable {a : Address} {v : Nat}

theorem Consistent.size_pos (h : s.Consistent) (ha : s.byAddress a ≠ 0) : 0 < s.size :=
  (Nat.pos_of_ne_zero ha).trans_le (h.index_le a)

/-- The index map after a removal: the last member takes the hole. -/
theorem Consistent.byAddress_remove (h : s.Consistent) (hv : 11 ≤ v) (ha : s.byAddress a ≠ 0)
    (b : Address) :
    (s.remove a v).byAddress b =
      if b = a then 0 else if s.byAddress b = s.size then s.byAddress a else s.byAddress b := by
  have hlast : s.slots s.size = b ↔ s.byAddress b = s.size := by
    have := h.slots_eq_iff (i := s.size - 1) (a := b) (by have := h.size_pos ha; omega)
    rwa [Nat.sub_add_cancel (h.size_pos ha)] at this
  by_cases hslot : s.byAddress a < s.size
  · rw [(remove_inner ha hslot hv).2]
    by_cases hb : s.byAddress b = s.size
    · have hne : b ≠ a := by
        rintro rfl
        omega
      rw [← hlast.mpr hb, update_self, hlast.mpr hb, if_neg hne, if_pos hb]
    · rw [update_of_ne (fun he => hb (hlast.mp he.symm)), if_neg hb, update_apply]
  · rw [(remove_last ha hslot v).2, update_apply]
    by_cases hb : s.byAddress b = s.size
    · -- The last member is the address removed.
      have hself : s.byAddress a = s.size := by
        have := h.index_le a
        omega
      rw [if_pos hb, hself, hb]
    · rw [if_neg hb]

theorem isMember_remove_iff (h : s.Consistent) (hv : 11 ≤ v) (b : Address) :
    (s.remove a v).isMember b = true ↔ b ≠ a ∧ s.isMember b = true := by
  simp only [isMember, decide_eq_true_iff]
  by_cases ha : s.byAddress a = 0
  · rw [remove_of_not_mapped ha]
    exact ⟨fun hb => ⟨fun he => hb (he ▸ ha), hb⟩, And.right⟩
  · rw [h.byAddress_remove hv ha]
    by_cases hba : b = a
    · simp [hba]
    · rw [if_neg hba]
      by_cases hb : s.byAddress b = s.size
      · have := h.size_pos ha
        rw [if_pos hb]
        exact ⟨fun _ => ⟨hba, by omega⟩, fun _ => ha⟩
      · rw [if_neg hb]
        exact ⟨fun hne => ⟨hba, hne⟩, And.right⟩

theorem consistent_remove (h : s.Consistent) (hv : 11 ≤ v) : (s.remove a v).Consistent := by
  by_cases ha : s.byAddress a = 0
  · rwa [remove_of_not_mapped ha]
  have hpos := h.size_pos ha
  have hsize := size_remove (v := v) ha hpos h.fits
  refine ⟨?_, fun b => ?_, fun b => ?_, h.listed.remove hv h.fits fun _ => hpos⟩
  · have := h.fits
    omega
  · have hb := h.index_le b
    have haidx := h.index_le a
    rw [h.byAddress_remove hv ha, hsize]
    split
    · exact Nat.zero_le _
    · next hne =>
      split
      · next hlast =>
        -- Two addresses do not share a slot.
        have hdiff : s.byAddress a ≠ s.size := fun he => hne <| by
          rw [← h.slot_index b (by omega), ← h.slot_index a ha, hlast, he]
        omega
      · omega
  · intro hmapped
    have hb := (isMember_remove_iff h hv b).mp (decide_eq_true hmapped)
    have hbidx : s.byAddress b ≠ 0 := of_decide_eq_true hb.2
    have hbound := h.index_le b
    by_cases hslot : s.byAddress a < s.size
    · rw [h.byAddress_remove hv ha, if_neg hb.1, (remove_inner ha hslot hv).1]
      by_cases hlast : s.byAddress b = s.size
      · rw [if_pos hlast, update_of_ne hslot.ne, update_self, ← hlast]
        exact h.slot_index b hbidx
      · have hhole : s.byAddress b ≠ s.byAddress a := fun he => hb.1 <| by
          rw [← h.slot_index b hbidx, ← h.slot_index a ha, he]
        rw [if_neg hlast, update_of_ne hlast, update_of_ne hhole]
        exact h.slot_index b hbidx
    · have hself : s.byAddress a = s.size := by
        have := h.index_le a
        omega
      have hlast : s.byAddress b ≠ s.size := fun he => hb.1 <| by
        rw [← h.slot_index b hbidx, ← h.slot_index a ha, he, hself]
      rw [h.byAddress_remove hv ha, if_neg hb.1, if_neg hlast, (remove_last ha hslot v).1,
        update_of_ne hlast]
      exact h.slot_index b hbidx

end Remove

/-- The cells after `k` turns of the loop of `clear`. -/
theorem clear_loop (h : s.Consistent) {k : Nat} (hk : k ≤ s.size) :
    let t := (List.range k).foldl (fun t i => t.clearSlot (i + 1)) s
    (∀ i, k < i → t.slots i = s.slots i) ∧
      ∀ a, t.byAddress a = if s.byAddress a ≤ k then 0 else s.byAddress a := by
  induction k with
  | zero => exact ⟨fun _ _ => rfl, fun a => by simp⟩
  | succ k ih =>
    obtain ⟨hslots, hmap⟩ := ih (by omega)
    rw [List.range_succ, List.foldl_append]
    generalize (List.range k).foldl (fun t i => t.clearSlot (i + 1)) s = t at hslots hmap
    simp only [List.foldl_cons, List.foldl_nil, clearSlot]
    refine ⟨fun i hi => ?_, fun a => ?_⟩
    · rw [update_of_ne (by omega), hslots i (by omega)]
    · rw [hslots (k + 1) (by omega), update_apply, hmap]
      have hcell := h.slots_eq_iff (i := k) (a := a) (by omega)
      by_cases ha : a = s.slots (k + 1)
      · rw [if_pos ha, if_pos (hcell.mp ha.symm).le]
      · have hidx : s.byAddress a ≠ k + 1 := fun he => ha (hcell.mpr he).symm
        rw [if_neg ha]
        split_ifs <;> first | rfl | omega

@[simp] theorem size_clear : s.clear.size = 0 := by
  unfold clear
  split
  next h => exact h
  next => rfl

theorem byAddress_clear (h : s.Consistent) (a : Address) : s.clear.byAddress a = 0 := by
  unfold clear
  split
  next hzero =>
    have := h.index_le a
    omega
  next =>
    have hmap := (clear_loop h (Nat.le_refl _)).2 a
    rwa [if_pos (h.index_le a)] at hmap

theorem consistent_clear (h : s.Consistent) : s.clear.Consistent :=
  ⟨by rw [size_clear]; decide, fun a => by rw [byAddress_clear h a]; exact Nat.zero_le _,
    fun a ha => absurd (byAddress_clear h a) ha, listed_of_size_eq_zero size_clear⟩

end AddressSet

end Arbreth.Storage
