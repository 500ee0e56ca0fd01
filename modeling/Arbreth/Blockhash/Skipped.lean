/-
  Runs of `record_new_l1_block`: what the numbers that were skipped show.

  A number that no call recorded, but that the window shows, should read as the hash derived for
  it by the call that recorded the first number above it. The fill loop gives every skipped
  number that hash but one: it counts up before it writes, so the number the counter stood at
  when the call came is passed over, and its slot keeps what stood there before, the hash of the
  number 256 below it or the zero of fresh storage. A call whose gap is a whole ring or more
  puts that number out of sight. So a run exposes nothing exactly when every call records the
  number the counter stands at, or jumps by at least 256, or finds the derived hash in the slot
  already.
-/
import Arbreth.Blockhash.Recorded
import Arbreth.Lib.Keccak

namespace Arbreth.Blockhash

open Arbreth.Lib

/-- The state together with the calls that took effect, the oldest first. -/
structure Logged where
  state : Blockhashes
  log : List Call

def Logged.record (keccak256 : Bytes → B256) (l : Logged) (c : Call) : Logged :=
  ⟨l.state.record keccak256 c, if Effective l.state c then l.log ++ [c] else l.log⟩

/-- The calls of the list that took effect. -/
def recorded (keccak256 : Bytes → B256) (calls : List Call) : List Call :=
  (calls.foldl (Logged.record keccak256) ⟨.init, []⟩).log

variable (keccak256 : Bytes → B256)

/-- What is shown for a number that was not recorded is the hash that the call for the first
    number above it derived. -/
def SkippedSound (calls : List Call) : Prop :=
  ∀ n x, (∀ c ∈ recorded keccak256 calls, c.number ≠ n) →
    (run keccak256 calls).blockHash n = some x →
    ∃ c, (recorded keccak256 calls).find? (fun c => n < c.number) = some c ∧
      x = c.fill keccak256 n

/-- The call records the number the counter stands at, or is a ring or more ahead of it, or the
    slot of that number already holds the hash the call derives for it. -/
def Covered (s : Blockhashes) (c : Call) : Prop :=
  s.l1BlockNumber < c.number → c.number < s.l1BlockNumber + 256 →
    s.slots (slotOf s.l1BlockNumber) = c.fill keccak256 s.l1BlockNumber

instance (s : Blockhashes) (c : Call) : Decidable (Covered keccak256 s c) := by
  unfold Covered
  infer_instance

variable {keccak256} {calls : List Call} {c : Call}

/-! ## The log -/

theorem state_logged (calls : List Call) :
    (calls.foldl (Logged.record keccak256) ⟨.init, []⟩).state = run keccak256 calls := by
  induction calls using List.reverseRecOn with
  | nil => rfl
  | append_singleton calls c ih =>
    rw [List.foldl_append, run_concat, ← ih]
    rfl

theorem recorded_concat (calls : List Call) (c : Call) :
    recorded keccak256 (calls ++ [c]) =
      if Effective (run keccak256 calls) c then recorded keccak256 calls ++ [c]
      else recorded keccak256 calls := by
  rw [← state_logged, recorded, List.foldl_append]
  rfl

theorem number_lt_of_recorded (hcalls : ∀ c ∈ calls, c.Fits) :
    ∀ c ∈ recorded keccak256 calls, c.number < (run keccak256 calls).l1BlockNumber := by
  induction calls using List.reverseRecOn with
  | nil => exact fun c hc => absurd hc List.not_mem_nil
  | append_singleton calls last ih =>
    have hlast := hcalls last (List.mem_append_right _ List.mem_cons_self)
    have hold := ih fun c hc => hcalls c (List.mem_append_left _ hc)
    intro c hc
    rw [recorded_concat] at hc
    rw [run_concat]
    have hle : (run keccak256 calls).l1BlockNumber ≤
        ((run keccak256 calls).record keccak256 last).l1BlockNumber :=
      l1BlockNumber_le_record hlast
    split at hc
    · rcases List.mem_append.mp hc with hc | hc
      · exact (hold c hc).trans_le hle
      · rw [List.mem_singleton.mp hc]
        exact number_lt_record hlast
    · exact (hold c hc).trans_le hle

/-- A call that takes effect is the first above every number from the counter on. -/
theorem find?_recorded_concat (hcalls : ∀ c ∈ calls, c.Fits) {n : Nat}
    (heff : Effective (run keccak256 calls) c) (hle : (run keccak256 calls).l1BlockNumber ≤ n)
    (hlt : n < c.number) :
    (recorded keccak256 (calls ++ [c])).find? (fun c => n < c.number) = some c := by
  have hnone : (recorded keccak256 calls).find? (fun c => n < c.number) = none := by
    refine List.find?_eq_none.mpr fun c' hc' => ?_
    have := number_lt_of_recorded hcalls c' hc'
    simp only [decide_eq_true_eq]
    omega
  rw [recorded_concat, if_pos heff, List.find?_append, hnone, Option.none_or]
  exact List.find?_cons_of_pos (decide_eq_true hlt)

/-! ## One call -/

theorem skippedSound_concat (hcalls : ∀ c ∈ calls, c.Fits) (hc : c.Fits)
    (hcov : Covered keccak256 (run keccak256 calls) c) (h : SkippedSound keccak256 calls) :
    SkippedSound keccak256 (calls ++ [c]) := by
  have hfits := @counter_fits keccak256 calls hcalls
  by_cases heff : Effective (run keccak256 calls) c
  · intro n x hn hx
    have hcount : ((run keccak256 calls).record keccak256 c).l1BlockNumber = c.number + 1 :=
      l1BlockNumber_record heff (by unfold Call.Fits at hc; omega)
    rw [run_concat] at hx
    rw [recorded_concat, if_pos heff] at hn
    obtain ⟨⟨hlt, hwin⟩, hslot⟩ := (blockHash_eq_some (by unfold Call.Fits at hc; omega)).mp hx
    have hne : c.number ≠ n := hn c (List.mem_append_right _ List.mem_cons_self)
    rw [slots_record heff hfits (by omega) (by omega)] at hslot
    rcases Nat.lt_trichotomy n (run keccak256 calls).l1BlockNumber with hbelow | hat | habove
    · -- Shown before as well, and the call for it stays the first above it.
      rw [if_pos hbelow.le] at hslot
      have hold := (blockHash_eq_some hfits).mpr
        ⟨⟨hbelow, by unfold Effective at heff; omega⟩, hslot⟩
      obtain ⟨c', hfirst, hval⟩ := h n x (fun c' hc' => hn c' (List.mem_append_left _ hc')) hold
      refine ⟨c', ?_, hval⟩
      rw [recorded_concat, if_pos heff, List.find?_append, hfirst, Option.some_or]
    · rw [if_pos hat.le] at hslot
      refine ⟨c, find?_recorded_concat hcalls heff hat.ge (by omega), ?_⟩
      rw [← hslot, hat]
      exact hcov (by omega) (by omega)
    · rw [if_neg (Nat.not_le_of_lt habove)] at hslot
      exact ⟨c, find?_recorded_concat hcalls heff habove.le (by omega), hslot.symm⟩
  · intro n x hn hx
    rw [run_concat, record_of_not_effective heff] at hx
    rw [recorded_concat, if_neg heff] at hn ⊢
    exact h n x hn hx

/-- After a call that is not covered, the number the counter stood at is exposed. -/
theorem covered_of_skippedSound (hcalls : ∀ c ∈ calls, c.Fits) (hc : c.Fits)
    (h : SkippedSound keccak256 (calls ++ [c])) : Covered keccak256 (run keccak256 calls) c := by
  intro hlt hnear
  have hfits := @counter_fits keccak256 calls hcalls
  have heff : Effective (run keccak256 calls) c := hlt.le
  have hcount : ((run keccak256 calls).record keccak256 c).l1BlockNumber = c.number + 1 :=
    l1BlockNumber_record heff (by unfold Call.Fits at hc; omega)
  have hslot := @slots_record keccak256 c _ heff hfits _ hlt hnear
  rw [if_pos (Nat.le_refl _)] at hslot
  have hshown := (blockHash_eq_some (by unfold Call.Fits at hc; omega)).mpr
    ⟨⟨by omega, by omega⟩, hslot⟩
  rw [← run_concat] at hshown
  have hskipped : ∀ c' ∈ recorded keccak256 (calls ++ [c]),
      c'.number ≠ (run keccak256 calls).l1BlockNumber := by
    intro c' hc'
    rw [recorded_concat, if_pos heff] at hc'
    rcases List.mem_append.mp hc' with hc' | hc'
    · exact (number_lt_of_recorded hcalls c' hc').ne
    · rw [List.mem_singleton.mp hc']
      exact hlt.ne'
  obtain ⟨c', hfirst, hval⟩ := h _ _ hskipped hshown
  rw [find?_recorded_concat hcalls heff (Nat.le_refl _) hlt] at hfirst
  rw [hval, Option.some.inj hfirst]

/-! ## Runs -/

theorem skippedSound_nil : SkippedSound keccak256 [] := by
  intro n x _ hx
  rw [Blockhashes.blockHash, if_pos (.inl (Nat.zero_le _))] at hx
  cases hx

/-- **Skipped blocks.** Every state of a run shows for the skipped numbers the derived hashes
    alone exactly when every call of the run is covered. -/
theorem skipped_sound_iff (hcalls : ∀ c ∈ calls, c.Fits) :
    (∀ before after, calls = before ++ after → SkippedSound keccak256 before) ↔
      ∀ before c after, calls = before ++ c :: after →
        Covered keccak256 (run keccak256 before) c := by
  constructor
  · rintro h before c after rfl
    refine covered_of_skippedSound (fun c' hc' => hcalls c' (List.mem_append_left _ hc'))
      (hcalls c (List.mem_append_right _ List.mem_cons_self)) (h (before ++ [c]) after ?_)
    rw [List.append_assoc, List.singleton_append]
  · intro h before
    induction before using List.reverseRecOn with
    | nil => exact fun _ _ => skippedSound_nil
    | append_singleton before c ih =>
      rintro after rfl
      rw [List.append_assoc, List.singleton_append] at hcalls h ih
      exact skippedSound_concat (fun c' hc' => hcalls c' (List.mem_append_left _ hc'))
        (hcalls c (List.mem_append_right _ List.mem_cons_self)) (h before c after rfl)
        (ih (c :: after) rfl)

/-- Calls for consecutive numbers, and one that jumps by a whole ring. -/
theorem skipped_sound_iff_consecutive :
    SkippedSound Keccak.keccak256 [⟨0, 7, 30⟩, ⟨1, 8, 30⟩, ⟨300, 9, 30⟩] := by
  refine (skipped_sound_iff (by decide)).mpr (fun before c after h => ?_) _ [] (List.append_nil _).symm
  rcases before with _ | ⟨c₀, _ | ⟨c₁, _ | ⟨c₂, before⟩⟩⟩
  · cases h
    decide +kernel
  · cases h
    decide +kernel
  · cases h
    decide +kernel
  · simp at h

/-- After the blocks 0, 255 and 257 the number 256, never recorded, reads as the hash of 0. -/
theorem skipped_shows_other_block :
    let calls : List Call := [⟨0, 7, 30⟩, ⟨255, 8, 30⟩, ⟨257, 9, 30⟩]
    (run Keccak.keccak256 calls).blockHash 256 = some 7 ∧
      ¬ SkippedSound Keccak.keccak256 calls := by
  refine ⟨by decide +kernel, fun h => ?_⟩
  obtain ⟨c, hfirst, hval⟩ := h 256 7 (by decide +kernel) (by decide +kernel)
  have hcall : c = ⟨257, 9, 30⟩ := Option.some.inj (hfirst.symm.trans (by decide +kernel))
  rw [hcall] at hval
  exact absurd hval (by decide +kernel)

end Arbreth.Blockhash
