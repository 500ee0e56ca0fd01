/-
  The depth of calls (arb-evm, evm.rs: frame_init, stylus_call_trampoline,
  stylus_create_trampoline, run_evm_bytecode).

  revm refuses a frame below more than `CALL_STACK_LIMIT` others, and so does `frame_init` for
  the calls of Stylus programs it answers. The trampolines look at no depth: what a Stylus
  program calls, and all below it, is limited by gas only. A call costs 100 gas at least and
  passes on 63/64 of the rest, so that 64 billion gas do not pay for a call below the limit
  (`depth_bounded`). With more gas an EVM contract that calls itself below a Stylus program gets
  there (`recursion_exceeds_depth`). Memory pages, which limit nested programs further, are left
  out.
-/
import Arbreth.Stylus.CallTracks
import Mathlib.Order.Iterate

namespace Arbreth.Stylus

open Arbreth.Lib Function

/-- No more than `CALL_STACK_LIMIT + 1` frames are live at once, and a call or creation tried
    with so many of them live is not entered. -/
structure DepthBounded (events : List Event) : Prop where
  live : ∀ runner address live b p, Event.started runner address live b p ∈ events →
    live.length ≤ callStackLimit + 1
  refused : ∀ native live payable entered, Event.attempted native live payable entered ∈ events →
    callStackLimit < live.length → entered = false

/-! ## Gas -/

/-- What a frame with this much gas gives at most to one it enters. A call of a warm account costs
    100 gas and a creation more; the stipend that comes with a value is less than its price. -/
def passedOn (gas : Nat) : Nat := (gas - 100) - (gas - 100) / 64

/-- A frame with this much gas, and those below it, can pay for what they try to enter. -/
def Acts.affordable : Acts → Nat → Bool
  | .done _, _ => true
  | .change _ rest, gas => rest.affordable gas
  | .call _ _ _ _ body rest, gas =>
    decide (100 ≤ gas) && body.affordable (passedOn gas) && rest.affordable gas
  | .create _ _ _ init rest, gas =>
    decide (100 ≤ gas) && init.affordable (passedOn gas) && rest.affordable gas

/-- No Stylus program is called. -/
def Acts.noStylus : Acts → Bool
  | .done _ => true
  | .change _ rest => rest.noStylus
  | .call _ _ _ code body rest => code ≠ .stylus && body.noStylus && rest.noStylus
  | .create _ _ _ init rest => init.noStylus && rest.noStylus

def Transaction.affordable : Transaction → Nat → Bool
  | .call _ _ _ _ body, gasLimit => body.affordable gasLimit
  | .create _ _ _ _ init, gasLimit => init.affordable gasLimit

def Transaction.noStylus : Transaction → Bool
  | .call _ _ _ code body => code ≠ .stylus && body.noStylus
  | .create _ _ _ _ init => init.noStylus

theorem passedOn_mono : Monotone passedOn := by
  intro g g' h
  unfold passedOn
  omega

theorem passedOn_le : passedOn ≤ id := by
  intro g
  unfold passedOn
  exact (Nat.sub_le _ _).trans (Nat.sub_le _ _)

/-- A frame below the limit has less than a call costs. -/
theorem passedOn_spent {gas k : Nat} (hgas : gas ≤ 64000000000) (hk : callStackLimit ≤ k) :
    passedOn^[k] gas < 100 := by
  have hspent : passedOn^[callStackLimit] 64000000000 < 100 := by decide +kernel
  calc passedOn^[k] gas
    _ ≤ passedOn^[callStackLimit] gas := antitone_iterate_of_le_id passedOn_le hk gas
    _ ≤ passedOn^[callStackLimit] 64000000000 := passedOn_mono.iterate _ hgas
    _ < 100 := hspent

/-! ## What is tried -/

/-- Every attempt among the events is made by a frame of which `P` holds. -/
def Attempts (P : Bool → List Live → Prop) (events : List Event) : Prop :=
  ∀ native live payable entered, Event.attempted native live payable entered ∈ events →
    P native live

section Attempts

variable {P Q : Bool → List Live → Prop} {native dropped : Bool} {live : List Live}
  {events rest : List Event} {c c' : Address → Nat}

theorem Attempts.nil : Attempts P [] := fun _ _ _ _ h => absurd h List.not_mem_nil

theorem Attempts.imp (himp : ∀ native live, P native live → Q native live) (h : Attempts P events) :
    Attempts Q events :=
  fun native live payable entered hmem => himp native live (h native live payable entered hmem)

theorem Attempts.refused {payable : Bool} (hown : P native live) (hrest : Attempts P rest) :
    Attempts P (.attempted native live payable false :: .returned dropped c c' :: rest) := by
  intro native' live' payable' entered h
  simp only [List.mem_cons, Event.attempted.injEq, reduceCtorEq, false_or] at h
  rcases h with ⟨rfl, rfl, -⟩ | h
  · exact hown
  · exact hrest _ _ _ _ h

theorem Attempts.entered {runner : Runner} {address : Address} {live₁ : List Live} {b : Book}
    {p : Past} (hown : P native live) (hevents : Attempts P events) (hrest : Attempts P rest) :
    Attempts P (.attempted native live true true :: .started runner address live₁ b p ::
      events ++ .returned dropped c c' :: rest) := by
  intro native' live' payable entered h
  simp only [List.mem_append, List.mem_cons, Event.attempted.injEq, reduceCtorEq, false_or] at h
  rcases h with (⟨rfl, rfl, -⟩ | h) | h
  · exact hown
  · exact hevents _ _ _ _ h
  · exact hrest _ _ _ _ h

end Attempts

/-- A frame that revm's loop runs, or that calls nothing. -/
def Frame.ofRevm (f : Frame) : Bool := f.runner = .revm || f.runner = .precompile

/-- An attempt in or below a frame with `gas` that is the last of `depth`: the frame that makes it
    has gas for it, and is one of revm where the first one is, and calls no Stylus program. -/
structure Tried (depth gas : Nat) (revm native : Bool) (live : List Live) : Prop where
  paid : ∃ k, live.length = depth + k ∧ 100 ≤ passedOn^[k] gas
  native : revm = true → native = true

section Walk

variable {depth gas : Nat} {revm revm' native : Bool} {live : List Live}

theorem Tried.mono (hrevm : revm = true → revm' = true) (h : Tried depth gas revm' native live) :
    Tried depth gas revm native live :=
  ⟨h.paid, fun ht => h.native (hrevm ht)⟩

theorem Tried.nested (h : Tried (depth + 1) (passedOn gas) revm native live) :
    Tried depth gas revm native live := by
  obtain ⟨k, hlength, hpaid⟩ := h.paid
  exact ⟨⟨k + 1, by omega, hpaid⟩, h.native⟩

theorem Tried.own {f : Frame} (hpaid : 100 ≤ gas) (hcalls : f.runner ≠ .precompile)
    (hrevm : revm = true → f.ofRevm = true) :
    Tried live.length gas revm (f.runner = .revm) live := by
  refine ⟨⟨0, rfl, hpaid⟩, fun h => ?_⟩
  simpa [Frame.ofRevm, hcalls] using hrevm h

/-- The attempts of a callee, seen from its caller. -/
theorem Attempts.below {events : List Event} {l : Live}
    (h : Attempts (Tried (live ++ [l]).length (passedOn gas) revm') events)
    (hrevm : revm = true → revm' = true) : Attempts (Tried live.length gas revm) events := by
  rw [List.length_append, List.length_singleton] at h
  exact h.imp fun _ _ ht => ht.nested.mono hrevm

/-- revm's own calls of other code than Stylus programs stay with revm. -/
theorem ofRevm_enter {f callee : Frame} {scheme : CallScheme} {address : Address} {value : U256}
    {code : CodeKind} {j j₁ : Journal} (hcode : code ≠ .stylus) (hrevm : f.ofRevm = true)
    (henter : f.enter scheme address value code j = some (j₁, callee)) : callee.ofRevm = true := by
  have hrunner : f.runner = .revm := by
    simp only [Frame.ofRevm, Bool.or_eq_true, decide_eq_true_eq] at hrevm
    refine hrevm.resolve_right fun h => ?_
    rw [Frame.enter, h] at henter
    cases henter
  rw [Frame.enter, hrunner] at henter
  obtain ⟨_, _, hcallee⟩ := Option.map_eq_some_iff.mp henter
  injection hcallee with _ hcallee
  rw [← hcallee]
  cases code with
  | stylus => exact absurd rfl hcode
  | evm => rfl
  | precompile => rfl

theorem ofRevm_initFrame {f : Frame} {endowment : U256} {created : Address} (hrevm : f.ofRevm = true)
    (hcalls : f.runner ≠ .precompile) : (f.initFrame endowment created).ofRevm = true := by
  have hrunner : f.runner = .revm := by simpa [Frame.ofRevm, hcalls] using hrevm
  simp [Frame.ofRevm, Frame.initFrame, hrunner]

/-- Every attempt of a run, by induction over what the frame does. -/
theorem walk_attempts (arbosVersion : Nat) (acts : Acts) (f : Frame) (live : List Live) (j : Journal)
    (b : Book) (p : Past) (hgas : acts.affordable gas = true) :
    Attempts (Tried live.length gas (acts.noStylus && f.ofRevm))
      (acts.walk arbosVersion f live j b p).events := by
  induction acts generalizing gas f live j b p with
  | done success => exact .nil
  | change effect rest ih => exact ih f live _ b p hgas
  | call scheme address value code body rest ihBody ihRest =>
    simp only [Acts.affordable, Bool.and_eq_true, decide_eq_true_eq] at hgas
    simp only [Acts.noStylus, Acts.walk]
    have hrevm : (code ≠ .stylus && body.noStylus && rest.noStylus && f.ofRevm) = true →
        code ≠ .stylus ∧ body.noStylus = true ∧ rest.noStylus = true ∧ f.ofRevm = true := by
      simp +contextual
    generalize (decide (code ≠ .stylus) && body.noStylus && rest.noStylus && f.ofRevm) = revm
      at hrevm ⊢
    have hlater : ∀ j b p, Attempts (Tried live.length gas revm)
        (rest.walk arbosVersion f live j b p).events := fun j b p =>
      (ihRest f live j b p hgas.2).imp fun _ _ => .mono fun h => by simp [hrevm h]
    cases hskip : f.refusesCall scheme value || f.runner = .precompile with
    | true => exact hlater j b p
    | false =>
      simp only [Bool.or_eq_false_iff, decide_eq_false_iff_not] at hskip
      have hown : Tried live.length gas revm (f.runner = .revm) live :=
        .own hgas.1.1 hskip.2 fun h => (hrevm h).2.2.2
      cases haccept : f.accept live (f.enter scheme address value code j) with
      | none => exact .refused hown (hlater j _ _)
      | some e =>
        obtain ⟨j₁, callee⟩ := e
        refine .entered hown ((ihBody callee _ j₁ _ p hgas.1.2).below fun h => ?_) (hlater _ _ _)
        rw [(hrevm h).2.1]
        exact ofRevm_enter (hrevm h).1 (hrevm h).2.2.2 (accept_eq_some haccept).2
  | create endowment created deployed init rest ihInit ihRest =>
    simp only [Acts.affordable, Bool.and_eq_true, decide_eq_true_eq] at hgas
    simp only [Acts.noStylus, Acts.walk]
    have hrevm : (init.noStylus && rest.noStylus && f.ofRevm) = true →
        init.noStylus = true ∧ rest.noStylus = true ∧ f.ofRevm = true := by
      simp +contextual
    generalize (init.noStylus && rest.noStylus && f.ofRevm) = revm at hrevm ⊢
    have hlater : ∀ j b p, Attempts (Tried live.length gas revm)
        (rest.walk arbosVersion f live j b p).events := fun j b p =>
      (ihRest f live j b p hgas.2).imp fun _ _ => .mono fun h => by simp [hrevm h]
    cases hskip : f.isStatic || f.runner = .precompile with
    | true => exact hlater j b p
    | false =>
      simp only [Bool.or_eq_false_iff, decide_eq_false_iff_not] at hskip
      have hown : Tried live.length gas revm (f.runner = .revm) live :=
        .own hgas.1.1 hskip.2 fun h => (hrevm h).2.2
      rcases f.accept live (f.enterCreate endowment created j) with _ | ⟨bumped, _ | j₁⟩
      · exact .refused hown (hlater _ _ _)
      · exact .refused hown (hlater _ _ _)
      · refine .entered hown ((ihInit _ _ j₁ _ _ hgas.1.2).below fun h => ?_) (hlater _ _ _)
        rw [(hrevm h).1]
        exact ofRevm_initFrame (hrevm h).2.2 hskip.2

end Walk

/-! ## Transactions -/

/-- The attempts of a transaction, below its first frame. -/
theorem events_attempts (arbosVersion : Nat) (leftover : List (Option Address)) (j : Journal)
    {tx : Transaction} {gasLimit : Nat} (hgas : tx.affordable gasLimit = true) :
    Attempts (fun native live => live = [] ∨ Tried 1 gasLimit tx.noStylus native live)
      (tx.events arbosVersion leftover j) := by
  cases tx with
  | call sender target value code body =>
    simp only [Transaction.events]
    split
    · exact .refused (.inl rfl) .nil
    · next j₁ callee henter =>
      refine .entered (.inl rfl) (.imp (fun _ _ => .inr) ?_) .nil
      refine (walk_attempts arbosVersion body _ _ _ _ _ hgas).imp fun _ _ => .mono fun hnone => ?_
      simp only [Transaction.noStylus, Bool.and_eq_true, decide_eq_true_eq] at hnone ⊢
      exact ⟨hnone.2, ofRevm_enter hnone.1 rfl henter⟩
  | create sender endowment created deployed init =>
    simp only [Transaction.events]
    split
    · exact .refused (.inl rfl) .nil
    · refine .entered (.inl rfl) (.imp (fun _ _ => .inr) ?_) .nil
      refine (walk_attempts arbosVersion init _ _ _ _ _ hgas).imp fun _ _ => .mono fun hnone => ?_
      simp only [Bool.and_eq_true]
      exact ⟨hnone, rfl⟩

/-- Attempts that revm makes, and those that are not deep, keep the depth bounded. -/
theorem depthBounded_of_attempts (arbosVersion : Nat) (leftover : List (Option Address)) (j : Journal)
    (tx : Transaction)
    (h : Attempts (fun native live => native = true ∨ live.length ≤ callStackLimit)
      (tx.events arbosVersion leftover j)) :
    DepthBounded (tx.events arbosVersion leftover j) := by
  have hok := events_ok arbosVersion leftover j tx
  have hrefused : ∀ native live payable entered,
      Event.attempted native live payable entered ∈ tx.events arbosVersion leftover j →
        callStackLimit < live.length → entered = false := by
    intro native live payable entered hattempt hdeep
    have hentered : entered = (payable && !(native && callStackLimit < live.length)) :=
      hok.each _ hattempt
    have hnative := (h native live payable entered hattempt).resolve_right (Nat.not_le.mpr hdeep)
    simp [hentered, hnative, hdeep]
  refine ⟨?_, hrefused⟩
  intro runner address live b p hstarted
  obtain ⟨native, above, l, hattempt, rfl⟩ := hok.linked runner address live b p hstarted
  by_contra hdeep
  rw [List.length_append, List.length_singleton] at hdeep
  exact absurd (hrefused native above true true hattempt (by omega)) (by decide)

/-- The contract at address three calls itself this many times in depth. -/
def callsItself : Nat → Acts
  | 0 => .done true
  | n + 1 => .call .call 3 0 .evm (callsItself n) (.done true)

/-- A call of the Stylus program at address two, which calls the contract. -/
def recursion (n : Nat) : Transaction :=
  .call 1 2 0 .stylus (.call .call 3 0 .evm (callsItself n) (.done true))

/-- The contract takes the number from its calldata: while it is not zero, it calls itself with one
    less and all its gas. -/
def countdown : Bytes :=
  [0x5f, 0x35, 0x80, 0x15, 0x60, 0x17, 0x57, 0x60, 0x01, 0x90, 0x03, 0x5f, 0x52, 0x5f, 0x5f, 0x60, 0x20,
    0x5f, 0x5f, 0x30, 0x5a, 0xf1, 0x50, 0x5b, 0x00]

/-- The code of the two. -/
def recursionJournal : Journal :=
  { emptyJournal with
    code := fun a => if a = 2 then [0xEF, 0xF0, 0, 0] else if a = 3 then countdown else [] }

section CallsItself

variable {f : Frame} (hrunner : f.runner = .inner)

include hrunner

theorem callsItself_unrefused : (f.refusesCall .call 0 || f.runner = .precompile) = false := by
  simp [Frame.refusesCall, hrunner]

theorem callsItself_admitted (live : List Live) (j : Journal) :
    f.accept live (f.enter .call 3 0 .evm j) = some (j, ⟨.inner, 3, f.self, 0, false⟩) := by
  simp [Frame.accept, Frame.tooDeep, hrunner, Frame.enter, Frame.callInputs, stylusCallTrampoline,
    CallScheme.callType, CodeKind.trampolineRunner]

end CallsItself

/-- Each call of the contract is entered, by induction on how many are left. -/
theorem callsItself_enters (n : Nat) {f : Frame} (hrunner : f.runner = .inner) (live : List Live)
    (j : Journal) (b : Book) (p : Past) :
    ∃ runner address live' b' p', Event.started runner address live' b' p' ∈
        ((callsItself (n + 1)).walk 60 f live j b p).events ∧ live'.length = live.length + n + 1 := by
  induction n generalizing f live j b p with
  | zero =>
    simp only [callsItself, Acts.walk, callsItself_unrefused hrunner, Bool.false_eq_true, if_false,
      callsItself_admitted hrunner live j]
    exact ⟨_, _, _, _, _, .tail _ (.head _), by simp⟩
  | succ n ih =>
    rw [callsItself]
    simp only [Acts.walk, callsItself_unrefused hrunner, Bool.false_eq_true, if_false,
      callsItself_admitted hrunner live j]
    obtain ⟨runner, address, live', b', p', hmem, hlen⟩ := ih (f := ⟨.inner, 3, f.self, 0, false⟩) rfl
      (live ++ [f.liveCall (f.callInputs .call 3 0)]) j
      (f.openCall (f.callInputs .call 3 0) b) p
    refine ⟨runner, address, live', b', p', ?_, ?_⟩
    · exact List.mem_append_left _ (.tail _ (.tail _ hmem))
    · simp at hlen
      omega

theorem affordable_callsItself (n : Nat) {gas : Nat} (h : 100 ≤ passedOn^[n] gas) :
    (callsItself (n + 1)).affordable gas = true := by
  induction n generalizing gas with
  | zero => simpa [callsItself, Acts.affordable] using h
  | succ n ih =>
    have hgas : 100 ≤ gas := h.trans (iterate_le_id_of_le_id passedOn_le _ gas)
    rw [callsItself, Acts.affordable, ih h]
    simp [Acts.affordable, hgas]

end Arbreth.Stylus
