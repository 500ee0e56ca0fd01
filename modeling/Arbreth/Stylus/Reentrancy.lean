/-
  The reentrancy flag (arb-evm, evm.rs: execute_stylus_program, ActorGuard; arb-context, lib.rs:
  push_stylus_program, pop_stylus_program).

  A program is told that it is reentrant where more than one frame is counted for its address.
  The frames that should count are those entered by CALL, STATICCALL or CREATE. The count
  differs in two kinds of frames: a CALLCODE reaches the trampoline as a plain call and is
  counted, a creation of EVM code in revm is not. `reentrancy_exact_iff` says where that matters.
  The counts are given back after every frame, except after a first frame that `frame_init`
  answers itself: nobody tells `frame_return_result`, and the count stays until the next
  transaction resets it.
-/
import Arbreth.Stylus.CallTracks

namespace Arbreth.Stylus

open Arbreth.Lib

/-- `reentrant` of `execute_stylus_program`. -/
def reentrant (b : Book) (target : Address) : Bool := 1 < b.counts target

/-- Entered by CALL, STATICCALL or CREATE. -/
def Live.enters (l : Live) : Bool :=
  l.scheme = some .call || l.scheme = some .staticCall || l.scheme = none

open Live

/-- Entered by a CALLCODE that goes through the trampoline. -/
def Live.foreignCallCode (l : Live) : Bool := !l.native && l.scheme = some .callCode

/-- Entered by a creation that goes through `frame_init`. -/
def Live.nativeCreate (l : Live) : Bool := l.native && l.scheme = none

/-- The live frames of one kind that act as an address. -/
def actingAs (live : List Live) (kind : Live → Bool) (a : Address) : Nat :=
  live.countP fun l => kind l && l.self = a

/-- The flag a program is given says whether more than one frame entered its address, and the
    counts after a frame are those before it. -/
def Event.Exact : Event → Prop
  | .started .stylus _ live b _ => ∀ l, live.getLast? = some l →
      (reentrant b l.self = true ↔ 1 < actingAs live enters l.self)
  | .started _ _ _ _ _ => True
  | .returned _ before after => after = before
  | .attempted _ _ _ _ => True

/-- At an address entered once, no more live frames are there by CALLCODE through the trampoline
    than by CREATE through `frame_init`; at one entered more often, these do not make up for all
    frames but one. A frame that is over is reported to `frame_return_result`. -/
def Event.Plain : Event → Prop
  | .started .stylus _ live _ _ => ∀ l, live.getLast? = some l →
      if actingAs live enters l.self ≤ 1 then
        actingAs live foreignCallCode l.self ≤ actingAs live nativeCreate l.self
      else
        actingAs live nativeCreate l.self + 2 ≤
          actingAs live enters l.self + actingAs live foreignCallCode l.self
  | .started _ _ _ _ _ => True
  | .returned dropped _ _ => dropped = false
  | .attempted _ _ _ _ => True

/-- Each frame is counted as it should be, but for the two kinds. -/
theorem counted_balance (live : List Live) (a : Address) :
    actingAs live Live.counted a + actingAs live nativeCreate a =
      actingAs live enters a + actingAs live foreignCallCode a := by
  unfold actingAs
  induction live with
  | nil => rfl
  | cons l live ih =>
    simp only [List.countP_cons]
    have hl : (if (l.counted && l.self = a) = true then 1 else 0) +
        (if (l.nativeCreate && l.self = a) = true then 1 else 0) =
        (if (l.enters && l.self = a) = true then 1 else 0) +
        (if (l.foreignCallCode && l.self = a) = true then 1 else 0) := by
      obtain ⟨native, scheme, self, caller⟩ := l
      by_cases hself : self = a
      · rcases scheme with _ | _ | _ | _ | _ <;> cases native <;>
          simp [Live.counted, nativeCreate, enters, foreignCallCode, hself]
      · simp [hself]
    omega

/-- When a program starts, its flag is exact exactly where the frames of the two kinds do not
    change it; after a frame the counts are as before exactly where its end is reported. -/
theorem reentrancy_exact_iff (arbosVersion : Nat) (leftover : List (Option Address)) (j : Journal)
    (tx : Transaction) (e : Event) (he : e ∈ tx.events arbosVersion leftover j) :
    e.Exact ↔ e.Plain := by
  have hok := (events_ok arbosVersion leftover j tx).each e he
  cases e with
  | attempted native live payable entered => exact Iff.rfl
  | returned dropped before after => exact hok.symm
  | started runner address live b p =>
    cases runner with
    | revm | inner | precompile => exact Iff.rfl
    | stylus =>
      obtain ⟨htracks, l, hlast, hentered⟩ := hok
      have hcounts : b.counts l.self = actingAs live Live.counted l.self := htracks.counts l.self
      have hbalance := counted_balance live l.self
      have honce : 0 < actingAs live enters l.self := by
        obtain ⟨l', hl', hself, hcall, hdelegate⟩ := hentered
        refine List.countP_pos_iff.mpr ⟨l', hl', ?_⟩
        rcases hscheme : l'.scheme with _ | _ | _ | _ | _ <;>
          simp_all [enters]
      have hlast' : ∀ l', live.getLast? = some l' ↔ l = l' := fun l' => by simp [hlast]
      simp only [Event.Exact, Event.Plain, hlast', forall_eq', reentrant, hcounts,
        decide_eq_true_eq]
      split <;> omega

/-- A program that is called again by the contract it calls is told so. -/
theorem reentrancy_exact_nested :
    ∃ live b p, Event.started .stylus 3 live b p ∈
        (Transaction.call 1 2 0 .evm
          (.call .call 3 0 .stylus
            (.call .call 2 0 .evm (.call .call 3 0 .stylus (.done true) (.done true)) (.done true))
            (.done true))).events 60 [] emptyJournal ∧
      (Event.started .stylus 3 live b p).Exact ∧ reentrant b 3 = true := by
  have hcall : Event.started .stylus 3 [⟨true, some .call, 2, 1⟩, ⟨true, some .call, 3, 2⟩,
      ⟨false, some .call, 2, 3⟩, ⟨false, some .call, 3, 2⟩] _ ⟨0, 0⟩ ∈
      (Transaction.call 1 2 0 .evm
        (.call .call 3 0 .stylus
          (.call .call 2 0 .evm (.call .call 3 0 .stylus (.done true) (.done true)) (.done true))
          (.done true))).events 60 [] emptyJournal :=
    .tail _ (.tail _ (.tail _ (.tail _ (.tail _ (.tail _ (.tail _ (.head _)))))))
  refine ⟨_, _, _, hcall, (reentrancy_exact_iff 60 [] emptyJournal _ _ hcall).mpr ?_, by decide⟩
  intro l hl
  obtain rfl : ⟨false, some .call, 3, 2⟩ = l := by simpa using hl
  decide

/-- A Stylus program calls an EVM contract, which runs another program's code with CALLCODE: that
    program is told it is reentrant, though its address was entered once. -/
theorem callcode_seems_reentrant :
    ∃ live b p, Event.started .stylus 4 live b p ∈
        (Transaction.call 1 2 0 .stylus
          (.call .call 3 0 .evm (.call .callCode 4 0 .stylus (.done true) (.done true))
            (.done true))).events 60 [] emptyJournal ∧
      live.getLast? = some ⟨false, some .callCode, 3, 3⟩ ∧ reentrant b 3 = true ∧
      actingAs live enters 3 = 1 := by
  refine ⟨[⟨true, some .call, 2, 1⟩, ⟨false, some .call, 3, 2⟩, ⟨false, some .callCode, 3, 3⟩], _,
    ⟨0, 0⟩, .tail _ (.tail _ (.tail _ (.tail _ (.tail _ (.head _))))), rfl, ?_, ?_⟩
  · decide
  · decide

end Arbreth.Stylus
