/-
  Runs of `record_new_l1_block`: recorded hashes read back.

  The counter is one above the largest number recorded, so a later call that takes effect has a
  larger number. As long as that number is within 256 of an earlier one, none of the slots it
  writes is the earlier one's (`slots_record`), and the earlier hash reads back.
-/
import Arbreth.Blockhash.Model

namespace Arbreth.Blockhash

open Arbreth.Lib

/-- The block number is far enough from `u64::MAX` for the window arithmetic. -/
def Call.Fits (c : Call) : Prop := c.number + 257 < 2 ^ 64

instance (c : Call) : Decidable c.Fits := inferInstanceAs (Decidable (_ < _))

/-- The state after a list of calls, from fresh storage. -/
def run (keccak256 : Bytes → B256) (calls : List Call) : Blockhashes :=
  calls.foldl (Blockhashes.record keccak256) .init

variable {keccak256 : Bytes → B256} {s : Blockhashes} {c : Call} {calls : List Call}

theorem run_append (before after : List Call) :
    run keccak256 (before ++ after) =
      after.foldl (Blockhashes.record keccak256) (run keccak256 before) :=
  List.foldl_append

theorem run_concat (calls : List Call) (c : Call) :
    run keccak256 (calls ++ [c]) = (run keccak256 calls).record keccak256 c :=
  run_append calls [c]

/-! ## The counter -/

theorem l1BlockNumber_le_record (hc : c.Fits) :
    s.l1BlockNumber ≤ (s.record keccak256 c).l1BlockNumber := by
  by_cases h : Effective s c
  · rw [l1BlockNumber_record h (by unfold Call.Fits at hc; omega)]
    exact Nat.le_succ_of_le h
  · rw [record_of_not_effective h]

theorem number_lt_record (hc : c.Fits) : c.number < (s.record keccak256 c).l1BlockNumber := by
  by_cases h : Effective s c
  · rw [l1BlockNumber_record h (by unfold Call.Fits at hc; omega)]
    exact Nat.lt_succ_self _
  · rw [record_of_not_effective h]
    exact Nat.lt_of_not_le h

theorem l1BlockNumber_le_foldl (hcalls : ∀ c ∈ calls, c.Fits) :
    s.l1BlockNumber ≤ (calls.foldl (Blockhashes.record keccak256) s).l1BlockNumber := by
  induction calls generalizing s with
  | nil => exact Nat.le_refl _
  | cons c calls ih =>
    exact (l1BlockNumber_le_record (hcalls c List.mem_cons_self)).trans
      (ih fun c' hc' => hcalls c' (List.mem_cons_of_mem c hc'))

/-- Nothing is recorded yet, or the counter is one above a call that took effect. -/
theorem l1BlockNumber_run (hcalls : ∀ c ∈ calls, c.Fits) :
    (calls = [] ∧ (run keccak256 calls).l1BlockNumber = 0) ∨
      ∃ before c after, calls = before ++ c :: after ∧ Effective (run keccak256 before) c ∧
        (run keccak256 calls).l1BlockNumber = c.number + 1 := by
  induction calls using List.reverseRecOn with
  | nil => exact .inl ⟨rfl, rfl⟩
  | append_singleton calls last ih =>
    have hlast := hcalls last (List.mem_append_right _ List.mem_cons_self)
    refine .inr ?_
    rw [run_concat]
    by_cases h : Effective (run keccak256 calls) last
    · exact ⟨calls, last, [], rfl, h,
        l1BlockNumber_record h (by unfold Call.Fits at hlast; omega)⟩
    · rw [record_of_not_effective h]
      rcases ih fun c hc => hcalls c (List.mem_append_left _ hc) with
        ⟨rfl, hzero⟩ | ⟨before, c, after, rfl, heff, hcount⟩
      · -- A first call takes effect.
        exact absurd (hzero.trans_le (Nat.zero_le _)) h
      · exact ⟨before, c, after ++ [last], by simp, heff, hcount⟩

theorem counter_fits (hcalls : ∀ c ∈ calls, c.Fits) :
    (run keccak256 calls).l1BlockNumber + 256 < 2 ^ 64 := by
  rcases @l1BlockNumber_run keccak256 calls hcalls with
    ⟨-, hzero⟩ | ⟨before, c, after, rfl, -, hcount⟩
  · rw [hzero]
    decide
  · have hc := hcalls c (List.mem_append_right _ List.mem_cons_self)
    unfold Call.Fits at hc
    omega

/-! ## A recorded hash -/

/-- The hash of `n` stands in its slot for as long as `n` is shown. -/
structure Keeps (n : Nat) (h : B256) (s : Blockhashes) : Prop where
  passed : n < s.l1BlockNumber
  fits : s.l1BlockNumber + 256 < 2 ^ 64
  slot : s.l1BlockNumber ≤ n + 256 → s.slots (slotOf n) = h

theorem Keeps.of_record (heff : Effective s c) (hc : c.Fits) :
    Keeps c.number c.blockHash (s.record keccak256 c) := by
  have hcount : (s.record keccak256 c).l1BlockNumber = c.number + 1 :=
    l1BlockNumber_record heff (by unfold Call.Fits at hc; omega)
  exact ⟨by omega, by unfold Call.Fits at hc; omega, fun _ => slots_record_self heff⟩

theorem Keeps.record {n : Nat} {h : B256} (hs : Keeps n h s) (hc : c.Fits) :
    Keeps n h (s.record keccak256 c) := by
  by_cases heff : Effective s c
  · have hcount : (s.record keccak256 c).l1BlockNumber = c.number + 1 :=
      l1BlockNumber_record heff (by unfold Call.Fits at hc; omega)
    have hpassed := hs.passed
    unfold Effective at heff
    refine ⟨by omega, by unfold Call.Fits at hc; omega, fun hwin => ?_⟩
    rw [slots_record heff hs.fits (by omega) (by omega), if_pos hpassed.le]
    exact hs.slot (by omega)
  · rwa [record_of_not_effective heff]

theorem Keeps.foldl {n : Nat} {h : B256} (hs : Keeps n h s) (hcalls : ∀ c ∈ calls, c.Fits) :
    Keeps n h (calls.foldl (Blockhashes.record keccak256) s) := by
  induction calls generalizing s with
  | nil => exact hs
  | cons c calls ih =>
    exact ih (hs.record (hcalls c List.mem_cons_self))
      fun c' hc' => hcalls c' (List.mem_cons_of_mem c hc')

/-- **Recorded hashes read back.** After any calls: a call that took effect has its hash in the
    ring for as long as the counter is within 256 of its number, the counter never went back,
    and it is one above the largest number recorded. -/
theorem recorded_hash_reads_back (hcalls : ∀ c ∈ calls, c.Fits) :
    (∀ before c after, calls = before ++ c :: after → Effective (run keccak256 before) c →
        c.number < (run keccak256 calls).l1BlockNumber →
        (run keccak256 calls).l1BlockNumber ≤ c.number + 256 →
        (run keccak256 calls).blockHash c.number = some c.blockHash) ∧
      (∀ before after, calls = before ++ after →
        (run keccak256 before).l1BlockNumber ≤ (run keccak256 calls).l1BlockNumber) ∧
      (∀ c ∈ calls, c.number + 1 ≤ (run keccak256 calls).l1BlockNumber) ∧
      (calls ≠ [] → ∃ before c after, calls = before ++ c :: after ∧
        Effective (run keccak256 before) c ∧
        (run keccak256 calls).l1BlockNumber = c.number + 1) := by
  refine ⟨?_, ?_, fun c hc => ?_, fun hne => ?_⟩
  · rintro before c after rfl heff hpassed hwin
    have hc := hcalls c (List.mem_append_right _ List.mem_cons_self)
    have hafter : ∀ c' ∈ after, c'.Fits := fun c' hc' =>
      hcalls c' (List.mem_append_right _ (List.mem_cons_of_mem c hc'))
    have hlast : Keeps c.number c.blockHash (run keccak256 (before ++ c :: after)) := by
      rw [run_append, List.foldl_cons]
      exact (Keeps.of_record heff hc).foldl hafter
    exact (blockHash_eq_some hlast.fits).mpr ⟨⟨hpassed, hwin⟩, hlast.slot hwin⟩
  · rintro before after rfl
    rw [run_append]
    exact l1BlockNumber_le_foldl fun c hc => hcalls c (List.mem_append_right _ hc)
  · obtain ⟨before, after, rfl⟩ := List.append_of_mem hc
    have hafter : ∀ c' ∈ after, c'.Fits := fun c' hc' =>
      hcalls c' (List.mem_append_right _ (List.mem_cons_of_mem c hc'))
    rw [run_append, List.foldl_cons]
    exact (number_lt_record (hcalls c hc)).trans_le (l1BlockNumber_le_foldl hafter)
  · exact (l1BlockNumber_run hcalls).resolve_left fun h => hne h.1

/-- Two calls with a gap between them: both hashes read back. -/
theorem recorded_hash_reads_back_gap :
    let calls : List Call := [⟨10, 7, 30⟩, ⟨12, 8, 30⟩]
    (run (fun _ => 0) calls).blockHash 10 = some 7 ∧
      (run (fun _ => 0) calls).blockHash 12 = some 8 :=
  have h := (@recorded_hash_reads_back (fun _ => 0) [⟨10, 7, 30⟩, ⟨12, 8, 30⟩] (by decide)).1
  ⟨h [] ⟨10, 7, 30⟩ [⟨12, 8, 30⟩] rfl (by decide) (by decide +kernel) (by decide +kernel),
    h [⟨10, 7, 30⟩] ⟨12, 8, 30⟩ [] rfl (by decide +kernel) (by decide +kernel)
      (by decide +kernel)⟩

end Arbreth.Blockhash
