/-
  The call stack ArbSys sees (arb-precompiles, arbsys.rs: handle_is_top_level_call,
  handle_was_aliased, handle_caller_without_alias; arb-context, lib.rs: evm_depth,
  caller_at_depth).

  The precompile is told the journal's depth when it is dispatched, and asks the stack of callers
  for the caller at a depth. Three things spoil what it sees: the trampolines push no caller; a
  Stylus program called from EVM code has its caller taken off twice, once by `frame_init` and
  once by `frame_return_result`; a creation leaves behind the checkpoint `frame_init` took for
  it. `arbSys_sees_real_stack_iff`: what ArbSys sees is the real stack exactly where none of the
  three has happened.
-/
import Arbreth.Stylus.CallTracks
import Arbreth.Outbox.ArbSys

namespace Arbreth.Stylus

open Arbreth.Lib
open Arbreth.ArbSys (arbsysAddress)

/-! ## The three methods -/

/-- `undo_l1_alias`. -/
def undoL1Alias (a : Address) : Address := a - 0x1111000000000000000000000000000000001111

/-- The depth and the callers a method is told. -/
structure View where
  depth : Nat
  callerAtDepth : Nat → Option Address

/-- What the methods read of the transaction and the chain. -/
structure TxView where
  arbosVersion : Nat
  txOrigin : Address
  isAliased : Bool

namespace View

/-- `handle_is_top_level_call`. -/
def isTopLevelCall (s : View) : Bool := s.depth ≤ 2

/-- `is_top_level` of the other two methods. -/
def isTopLevel (s : View) (t : TxView) : Bool :=
  if t.arbosVersion < 6 then s.depth = 2
  else if s.depth ≤ 2 then true
  else s.callerAtDepth (s.depth - 1) = some t.txOrigin

/-- `handle_was_aliased`. -/
def wasMyCallersAddressAliased (s : View) (t : TxView) : Bool := s.isTopLevel t && t.isAliased

/-- `handle_caller_without_alias`. -/
def myCallersAddressWithoutAliasing (s : View) (t : TxView) : Address :=
  let address := if 1 < s.depth then (s.callerAtDepth (s.depth - 1)).getD 0 else 0
  if s.isTopLevel t && t.isAliased then undoL1Alias address else address

end View

/-- What the context tells a precompile. -/
def Book.view (b : Book) : View := ⟨b.depth, b.callerAtDepth⟩

/-- What is true: the live frames are counted from the first one, at depth one. -/
def realView (live : List Live) : View :=
  ⟨live.length, fun k => if k = 0 then none else (live[k - 1]?).map Live.caller⟩

/-- The depth is the number of live frames, the caller at each depth is the caller of the frame
    there, and the three methods answer as they would on the real stack. -/
structure SeesRealStack (b : Book) (live : List Live) : Prop where
  depth : b.depth = live.length
  callers : ∀ k, 1 ≤ k → k ≤ live.length → b.callerAtDepth k = (realView live).callerAtDepth k
  answers : ∀ t, b.view.isTopLevelCall = (realView live).isTopLevelCall ∧
    b.view.wasMyCallersAddressAliased t = (realView live).wasMyCallersAddressAliased t ∧
    b.view.myCallersAddressWithoutAliasing t = (realView live).myCallersAddressWithoutAliasing t

section Answers

variable {s s' : View} (hdepth : s.depth = s'.depth)
  (hcaller : 1 < s'.depth → s.callerAtDepth (s'.depth - 1) = s'.callerAtDepth (s'.depth - 1))

include hdepth hcaller

theorem View.isTopLevel_congr (t : TxView) : s.isTopLevel t = s'.isTopLevel t := by
  unfold View.isTopLevel
  rw [hdepth]
  by_cases hshallow : s'.depth ≤ 2
  · simp only [hshallow, if_true]
  · simp only [hcaller (by omega)]

theorem View.myCallersAddressWithoutAliasing_congr (t : TxView) :
    s.myCallersAddressWithoutAliasing t = s'.myCallersAddressWithoutAliasing t := by
  unfold View.myCallersAddressWithoutAliasing
  rw [View.isTopLevel_congr hdepth hcaller, hdepth]
  by_cases hdeep : 1 < s'.depth
  · rw [hcaller hdeep]
  · simp only [hdeep, if_false]

end Answers

variable {leftover : List (Option Address)} {live : List Live} {b : Book}

/-- The three methods ask for no other depth than their own and that of their caller. -/
theorem SeesRealStack.of_stack (hdepth : b.depth = live.length)
    (hcallers : ∀ k, 1 ≤ k → k ≤ live.length → b.callerAtDepth k = (realView live).callerAtDepth k) :
    SeesRealStack b live := by
  have hdepth' : b.view.depth = (realView live).depth := hdepth
  have hcaller : 1 < live.length →
      b.view.callerAtDepth (live.length - 1) = (realView live).callerAtDepth (live.length - 1) :=
    fun h => hcallers _ (by omega) (by omega)
  refine ⟨hdepth, hcallers, fun t => ⟨?_, ?_, ?_⟩⟩
  · rw [View.isTopLevelCall, View.isTopLevelCall, hdepth']
  · rw [View.wasMyCallersAddressAliased, View.wasMyCallersAddressAliased,
      View.isTopLevel_congr hdepth' hcaller]
  · exact View.myCallersAddressWithoutAliasing_congr hdepth' hcaller t

/-- The callers, told from the frames, where nothing has been taken off too often. -/
theorem callerAtDepth_eq (h : b.callers = live.map Live.caller) (k : Nat) :
    b.callerAtDepth k = (realView live).callerAtDepth k := by
  simp only [Book.callerAtDepth, realView, h, List.getElem?_map]

theorem Tracks.length_callers_le {p : Past} (h : Tracks leftover live b p) :
    b.callers.length ≤ (live.filter (·.native)).length := by
  by_cases hp : p.answered = 0
  · rw [h.callers hp, List.length_map]
  · exact Nat.le_of_lt (h.missing hp)

/-- A caller recorded for the innermost frame means that no caller is missing. -/
theorem Tracks.complete {p : Past} (h : Tracks leftover live b p)
    (hlen : live.length ≤ b.callers.length) : (∀ l ∈ live, l.native = true) ∧ p.answered = 0 := by
  have hle := h.length_callers_le
  have hfilter := List.length_filter_le (·.native) live
  have hfull : (live.filter (·.native)).length = live.length := by omega
  refine ⟨List.length_filter_eq_length_iff.mp hfull, ?_⟩
  by_contra hp
  have hmissing := h.missing hp
  omega

/-- When a method of ArbSys runs, what it sees is the real call stack exactly where every live
    frame was entered by revm, no nested call of a Stylus program has been answered by
    `frame_init` before in the transaction, and no creation has left a checkpoint behind. -/
theorem arbSys_sees_real_stack_iff (arbosVersion : Nat) (leftover : List (Option Address))
    (j : Journal) (tx : Transaction) (live : List Live) (b : Book) (p : Past)
    (hcall : Event.started .precompile arbsysAddress live b p ∈ tx.events arbosVersion leftover j) :
    SeesRealStack b live ↔ (∀ l ∈ live, l.native = true) ∧ p.answered = 0 ∧ p.leaked = 0 := by
  obtain ⟨htracks, l, hlast, -⟩ := (events_ok arbosVersion leftover j tx).each _ hcall
  have hdepth := htracks.depth
  constructor
  · intro hreal
    have hpos : 0 < live.length := List.length_pos_iff.mpr fun h => by simp [h] at hlast
    have hinner := hreal.callers live.length hpos (Nat.le_refl _)
    have hlen : live.length ≤ b.callers.length := by
      have hsome : b.callers[live.length - 1]? = some l.caller := by
        rw [List.getLast?_eq_getElem?] at hlast
        simpa [Book.callerAtDepth, realView, Nat.ne_of_gt hpos, hlast] using hinner
      have hlt := (List.getElem?_eq_some_iff.mp hsome).1
      omega
    obtain ⟨hnative, hanswered⟩ := htracks.complete hlen
    have hreal := hreal.depth
    exact ⟨hnative, hanswered, by omega⟩
  · rintro ⟨hnative, hanswered, hleaked⟩
    have hcallers := htracks.callers hanswered
    rw [List.filter_eq_self.mpr hnative] at hcallers
    exact .of_stack (by omega) fun k _ _ => callerAtDepth_eq hcallers k

/-- What a contract does that calls ArbSys. -/
def asksArbSys : Acts := .call .call arbsysAddress 0 .precompile (.done true) (.done true)

/-- A transaction to a contract that calls ArbSys. -/
theorem arbSys_sees_real_stack_direct :
    ∃ live b p, Event.started .precompile arbsysAddress live b p ∈
        (Transaction.call 1 2 0 .evm asksArbSys).events 60 [] emptyJournal ∧
      SeesRealStack b live := by
  have hcall : Event.started .precompile arbsysAddress [⟨true, some .call, 2, 1⟩,
      ⟨true, some .call, arbsysAddress, 2⟩] _ ⟨0, 0⟩ ∈
      (Transaction.call 1 2 0 .evm asksArbSys).events 60 [] emptyJournal :=
    .tail _ (.tail _ (.tail _ (.head _)))
  exact ⟨_, _, _, hcall, (arbSys_sees_real_stack_iff 60 [] emptyJournal _ _ _ _ hcall).mpr (by decide)⟩

/-- A contract called by the sender creates another one and then calls ArbSys: it is told that
    its call is not a top level call. -/
theorem arbSys_misses_top_level :
    ∃ live b p, Event.started .precompile arbsysAddress live b p ∈
        (Transaction.call 1 2 0 .evm (.create 0 3 [] (.done true) asksArbSys)).events 60 []
          emptyJournal ∧
      b.view.isTopLevelCall = false ∧ (realView live).isTopLevelCall = true ∧
      ¬ SeesRealStack b live := by
  refine ⟨[⟨true, some .call, 2, 1⟩, ⟨true, some .call, arbsysAddress, 2⟩], _, ⟨0, 1⟩,
    .tail _ (.tail _ (.tail _ (.tail _ (.tail _ (.tail _ (.head _)))))), rfl, rfl, fun h => ?_⟩
  exact absurd h.depth (by decide)

end Arbreth.Stylus
