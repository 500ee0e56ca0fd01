/-
  Static calls, and calls that run foreign code in the caller's own account.

  The trampoline takes a frame for static only where the call that enters it is a STATICCALL.
  Below a static frame the flag is therefore lost at every other call of a Stylus program or of
  EVM code in `run_evm_bytecode`: `static_frame_keeps_state_iff` says which trees of calls still
  leave the state alone. A CALLCODE reaches the trampoline as a plain call; its value then goes
  to the account that only supplies the code (`callcode_moves_no_ether_iff`).
-/
import Arbreth.Stylus.Frames

namespace Arbreth.Stylus

open Arbreth.Lib Function

/-! ## Frames that leave the state alone -/

/-- Every state a frame and the frames below it pass through is the one it began with. -/
def Acts.Keeps (f : Frame) (acts : Acts) (j : Journal) : Prop :=
  ∀ j' ∈ (acts.run f j).visited, j' = j

open Acts

section Keeps

variable {f callee : Frame} {j j₁ : Journal} {rest body init : Acts} {effect : Journal → Journal}
  {scheme : CallScheme} {address created : Address} {value endowment : U256} {code : CodeKind}
  {deployed : Bytes}

theorem run_change_static (h : f.isStatic = true) :
    (change effect rest).run f j = rest.run f j := if_pos h

theorem run_change (h : f.isStatic = false) :
    (change effect rest).run f j =
      { rest.run f (effect j) with visited := effect j :: (rest.run f (effect j)).visited } := by
  simp [run, h]

theorem run_call_refused (h : f.refusesCall scheme value = true) :
    (call scheme address value code body rest).run f j = rest.run f j := if_pos h

theorem run_call_none (h : f.refusesCall scheme value = false)
    (henter : f.enter scheme address value code j = none) :
    (call scheme address value code body rest).run f j = rest.run f j := by
  simp [run, h, henter]

theorem run_call (h : f.refusesCall scheme value = false)
    (henter : f.enter scheme address value code j = some (j₁, callee)) :
    (call scheme address value code body rest).run f j =
      let j₂ := (body.run callee j₁).close j id
      { rest.run f j₂ with
        visited := j₁ :: (body.run callee j₁).visited ++ j₂ :: (rest.run f j₂).visited } := by
  simp [run, h, henter]

theorem run_create_static (h : f.isStatic = true) :
    (create endowment created deployed init rest).run f j = rest.run f j := if_pos h

theorem run_create_none (henter : f.enterCreate endowment created j = none) :
    (create endowment created deployed init rest).run f j = rest.run f j := by
  simp [run, henter]

variable {entered : Journal × Option Journal}

theorem enterCreate_ne (henter : f.enterCreate endowment created j = some entered) :
    entered.1 ≠ j := by
  unfold Frame.enterCreate at henter
  split at henter
  · cases henter
  · injection henter with henter
    intro heq
    have hnonce := congrFun (congrArg Journal.nonce heq) f.self
    rw [← henter] at hnonce
    simp at hnonce

theorem not_keeps_create (h : f.isStatic = false)
    (henter : f.enterCreate endowment created j = some entered) :
    ¬ (create endowment created deployed init rest).Keeps f j := by
  intro hkeeps
  refine enterCreate_ne henter (hkeeps entered.1 ?_)
  obtain ⟨bumped, funded⟩ := entered
  cases funded with
  | none => simp [run, h, henter]
  | some j₁ => simp [run, h, henter]

theorem keeps_change (h : f.isStatic = false) :
    (change effect rest).Keeps f j ↔ effect j = j ∧ rest.Keeps f j := by
  unfold Acts.Keeps
  rw [run_change h, List.forall_mem_cons]
  refine and_congr_right fun heffect => ?_
  rw [heffect]

/-- A call that keeps all states: the call itself, the callee and what follows do. -/
theorem Acts.Keeps.of_call (h : f.refusesCall scheme value = false)
    (henter : f.enter scheme address value code j = some (j₁, callee))
    (hkeeps : (call scheme address value code body rest).Keeps f j) :
    j₁ = j ∧ body.Keeps callee j ∧ (body.run callee j₁).close j id = j ∧ rest.Keeps f j := by
  unfold Acts.Keeps at hkeeps
  rw [run_call h henter] at hkeeps
  have hentered : j₁ = j := hkeeps j₁ (by simp)
  have hclosed : (body.run callee j₁).close j id = j := hkeeps _ (by simp)
  refine ⟨hentered, fun j' hj' => hkeeps j' ?_, hclosed, fun j' hj' => hkeeps j' ?_⟩
  · rw [hentered]
    simp [hj']
  · rw [hclosed]
    simp [hj']

/-- What leaves all states alone ends in the state it began with. -/
theorem Acts.Keeps.journal_eq {acts : Acts} (h : acts.Keeps f j) : (acts.run f j).journal = j := by
  induction acts generalizing f j with
  | done success => rfl
  | change effect rest ih =>
    cases hstatic : f.isStatic with
    | true =>
      rw [Acts.Keeps, run_change_static hstatic] at h
      rw [run_change_static hstatic]
      exact ih h
    | false =>
      obtain ⟨heffect, hrest⟩ := (keeps_change hstatic).mp h
      rw [run_change hstatic, heffect]
      exact ih hrest
  | call scheme address value code body rest _ ih =>
    cases hrefused : f.refusesCall scheme value with
    | true =>
      rw [Acts.Keeps, run_call_refused hrefused] at h
      rw [run_call_refused hrefused]
      exact ih h
    | false =>
      cases henter : f.enter scheme address value code j with
      | none =>
        rw [Acts.Keeps, run_call_none hrefused henter] at h
        rw [run_call_none hrefused henter]
        exact ih h
      | some entered =>
        obtain ⟨-, -, hclosed, hrest⟩ := h.of_call hrefused henter
        rw [run_call hrefused henter]
        simp only [hclosed]
        exact ih hrest
  | create endowment created deployed init rest _ ih =>
    cases hstatic : f.isStatic with
    | true =>
      rw [Acts.Keeps, run_create_static hstatic] at h
      rw [run_create_static hstatic]
      exact ih h
    | false =>
      cases henter : f.enterCreate endowment created j with
      | none =>
        rw [Acts.Keeps, run_create_none henter] at h
        rw [run_create_none henter]
        exact ih h
      | some entered => exact absurd h (not_keeps_create hstatic henter)

theorem keeps_call (h : f.refusesCall scheme value = false)
    (henter : f.enter scheme address value code j = some (j₁, callee)) :
    (call scheme address value code body rest).Keeps f j ↔
      j₁ = j ∧ body.Keeps callee j ∧ rest.Keeps f j := by
  constructor
  · intro hkeeps
    obtain ⟨hentered, hbody, -, hrest⟩ := hkeeps.of_call h henter
    exact ⟨hentered, hbody, hrest⟩
  · rintro ⟨rfl, hbody, hrest⟩
    have hclosed : (body.run callee j₁).close j₁ id = j₁ := by
      unfold Ran.close
      split
      · exact hbody.journal_eq
      · rfl
    unfold Acts.Keeps
    rw [run_call h henter]
    simp only [hclosed]
    intro j' hj'
    rcases List.mem_append.mp hj' with hj' | hj'
    · exact (List.mem_cons.mp hj').elim id (hbody j')
    · exact (List.mem_cons.mp hj').elim id (hrest j')

end Keeps

/-! ## Static frames -/

/-- One call on the way down from a frame. -/
structure Hop where
  runner : Runner
  scheme : CallScheme
  deriving DecidableEq

/-- The last call on the way that went through the trampoline, if one did, is a STATICCALL. -/
def Covered (hops : List Hop) : Prop :=
  ∀ h, (hops.filter fun h => h.runner ≠ .revm).getLast? = some h → h.scheme = .staticCall

/-- An act that may change the state: the calls that lead to its frame, whether a static frame
    refuses it, and what it does where it is not refused. -/
structure Attempt where
  hops : List Hop
  refusable : Bool
  effect : Journal → Journal

/-- The act leaves this state alone: it is refused, or has no effect. -/
def Attempt.Quiet (a : Attempt) (j : Journal) : Prop :=
  a.refusable = true ∧ Covered a.hops ∨ a.effect j = j

/-- The acts of a frame and of the frames below it that may change the state, as far as they are
    reached when the ones before them do not change it. -/
def Acts.attempts (f : Frame) (hops : List Hop) (j : Journal) : Acts → List Attempt
  | .done _ => []
  | .change effect rest => ⟨hops, true, effect⟩ :: rest.attempts f hops j
  | .call scheme address value code body rest =>
    let enter (j : Journal) := ((f.enter scheme address value code j).map Prod.fst).getD j
    let below :=
      if f.refusesCall scheme value then []
      else
        match f.enter scheme address value code j with
        | none => []
        | some (_, callee) => body.attempts callee (hops ++ [⟨f.runner, scheme⟩]) j
    ⟨hops, scheme = .call, enter⟩ :: below ++ rest.attempts f hops j
  | .create endowment created _ _ rest =>
    ⟨hops, true, fun j => ((f.enterCreate endowment created j).map Prod.fst).getD j⟩ ::
      rest.attempts f hops j

/-- What is known of a frame below a static one: its flag says whether the way is covered, and
    revm runs it only where no call went through the trampoline. -/
structure Below (f : Frame) (hops : List Hop) : Prop where
  flag : f.isStatic = true ↔ Covered hops
  revm : f.runner = .revm → ∀ h ∈ hops, h.runner = .revm

theorem covered_of_revm {hops : List Hop} (h : ∀ h ∈ hops, h.runner = .revm) : Covered hops := by
  have hnone : hops.filter (fun h => h.runner ≠ .revm) = [] := by simpa using h
  intro hop hlast
  rw [hnone] at hlast
  cases hlast

theorem covered_snoc_revm {hops : List Hop} {h : Hop} (hrevm : h.runner = .revm) :
    Covered (hops ++ [h]) ↔ Covered hops := by
  simp [Covered, List.filter_append, hrevm]

theorem covered_snoc {hops : List Hop} {h : Hop} (hrunner : h.runner ≠ .revm) :
    Covered (hops ++ [h]) ↔ h.scheme = .staticCall := by
  simp [Covered, List.filter_append, hrunner]

section Below

variable {f callee : Frame} {hops : List Hop} {j j₁ : Journal} {scheme : CallScheme}
  {address : Address} {value : U256} {code : CodeKind}

/-- The frame a call enters, by who made the call. -/
theorem enter_callee (henter : f.enter scheme address value code j = some (j₁, callee)) :
    f.runner = .revm ∧ callee.isStatic = (f.callInputs scheme address value).isStatic ∨
      (f.runner = .inner ∨ f.runner = .stylus) ∧ callee.runner ≠ .revm ∧
        (callee.isStatic = true ↔ scheme = .staticCall) := by
  unfold Frame.enter at henter
  split at henter
  · next hrunner =>
      obtain ⟨_, _, hcallee⟩ := Option.map_eq_some_iff.mp henter
      injection hcallee with _ hcallee
      exact .inl ⟨hrunner, hcallee ▸ rfl⟩
  · cases henter
  all_goals
    next hrunner =>
      obtain ⟨_, _, hcallee⟩ := Option.map_eq_some_iff.mp henter
      injection hcallee with _ hcallee
      refine .inr ⟨by simp [hrunner], ?_, ?_⟩
      · rw [← hcallee]
        cases code <;> simp [CodeKind.trampolineRunner]
      · rw [← hcallee]
        cases scheme <;> simp [Frame.callInputs, CallScheme.callType]

theorem isStatic_callInputs_of_static (h : f.isStatic = true) :
    (f.callInputs scheme address value).isStatic = true := by
  cases scheme <;> simp [Frame.callInputs, h]

/-- A call enters a frame about which the same is known. -/
theorem Below.enter (hbelow : Below f hops)
    (henter : f.enter scheme address value code j = some (j₁, callee)) :
    Below callee (hops ++ [⟨f.runner, scheme⟩]) := by
  rcases enter_callee henter with ⟨hrevm, hflag⟩ | ⟨htrampoline, hrunner, hflag⟩
  · have hcovered := covered_of_revm (hbelow.revm hrevm)
    refine ⟨?_, fun _ h hh => ?_⟩
    · rw [hflag, isStatic_callInputs_of_static (hbelow.flag.mpr hcovered), covered_snoc_revm hrevm]
      exact iff_of_true rfl hcovered
    · rcases List.mem_append.mp hh with hh | hh
      · exact hbelow.revm hrevm h hh
      · rw [List.mem_singleton.mp hh]
        exact hrevm
  · have hne : f.runner ≠ .revm := by
      rcases htrampoline with h | h <;> simp [h]
    exact ⟨hflag.trans (covered_snoc (h := ⟨f.runner, scheme⟩) hne).symm, fun h => absurd h hrunner⟩

theorem transfer_zero (j : Journal) (src dst : Address) : j.transfer src dst 0 = some j := by
  simp [Journal.transfer, BitVec.lt_def]

theorem enter_call_zero (henter : f.enter .call address 0 code j = some (j₁, callee)) : j₁ = j := by
  unfold Frame.enter at henter
  split at henter
  · obtain ⟨j', htransfer, heq⟩ := Option.map_eq_some_iff.mp henter
    injection heq with heq _
    rw [← heq]
    exact (Option.some.inj ((transfer_zero j f.self address).symm.trans htransfer)).symm
  · cases henter
  all_goals
    simp [stylusCallTrampoline, Frame.callInputs, CallScheme.callType] at henter
    exact henter.1.symm

theorem Below.uncovered {f : Frame} {hops : List Hop} (h : Below f hops)
    (hstatic : f.isStatic = false) : ¬ Covered hops := by
  intro hcovered
  rw [h.flag.mpr hcovered] at hstatic
  cases hstatic

end Below

/-- By induction over the tree: each act is quiet exactly where it keeps the state. -/
theorem keeps_iff_quiet {f : Frame} {hops : List Hop} (hbelow : Below f hops) (acts : Acts)
    (j : Journal) : acts.Keeps f j ↔ ∀ a ∈ acts.attempts f hops j, a.Quiet j := by
  induction acts generalizing f hops with
  | done success => exact iff_of_true (fun _ h => absurd h List.not_mem_nil) (List.forall_mem_nil _)
  | change effect rest ih =>
    rw [attempts, List.forall_mem_cons, ← ih hbelow]
    cases hstatic : f.isStatic with
    | true =>
      rw [Acts.Keeps, run_change_static hstatic]
      exact (and_iff_right (.inl ⟨rfl, hbelow.flag.mp hstatic⟩)).symm
    | false =>
      have huncovered := hbelow.uncovered hstatic
      rw [keeps_change hstatic]
      exact and_congr_left fun _ => ⟨.inr, fun h => h.resolve_left fun h => huncovered h.2⟩
  | call scheme address value code body rest ihBody ihRest =>
    rw [attempts, List.forall_mem_append, List.forall_mem_cons, ← ihRest hbelow]
    cases hrefused : f.refusesCall scheme value with
    | true =>
      have hboth : f.isStatic = true ∧ scheme = .call := by
        simp [Frame.refusesCall] at hrefused
        exact hrefused.1
      rw [Acts.Keeps, run_call_refused hrefused, if_pos rfl]
      refine (and_iff_right ⟨.inl ⟨decide_eq_true hboth.2, hbelow.flag.mp hboth.1⟩, ?_⟩).symm
      exact List.forall_mem_nil _
    | false =>
      rw [if_neg Bool.false_ne_true]
      cases henter : f.enter scheme address value code j with
      | none =>
        rw [Acts.Keeps, run_call_none hrefused henter]
        refine (and_iff_right ⟨.inr ?_, List.forall_mem_nil _⟩).symm
        simp [henter]
      | some entered =>
        obtain ⟨j₁, callee⟩ := entered
        rw [keeps_call hrefused henter, ihBody (hbelow.enter henter), ← and_assoc]
        refine and_congr_left fun _ => and_congr_left fun _ => ⟨fun h => .inr ?_, ?_⟩
        · simp [henter, h]
        · rintro (⟨hcall, hcovered⟩ | heffect)
          · obtain rfl : scheme = .call := of_decide_eq_true hcall
            obtain rfl : value = 0 := by
              simpa [Frame.refusesCall, hbelow.flag.mpr hcovered] using hrefused
            exact enter_call_zero henter
          · simpa [henter] using heffect
  | create endowment created deployed init rest _ ih =>
    rw [attempts, List.forall_mem_cons, ← ih hbelow]
    cases hstatic : f.isStatic with
    | true =>
      rw [Acts.Keeps, run_create_static hstatic]
      exact (and_iff_right (.inl ⟨rfl, hbelow.flag.mp hstatic⟩)).symm
    | false =>
      have huncovered := hbelow.uncovered hstatic
      cases henter : f.enterCreate endowment created j with
      | none =>
        rw [Acts.Keeps, run_create_none henter]
        refine (and_iff_right (.inr ?_)).symm
        simp [henter]
      | some entered =>
        refine iff_of_false (not_keeps_create hstatic henter) fun h => ?_
        have heffect := h.1.resolve_left fun h => huncovered h.2
        simp [henter] at heffect
        exact enterCreate_ne henter heffect

/-- A static frame and the frames below it leave the state alone exactly where every act that
    could change it is refused, because the last call through the trampoline that leads to it is
    a STATICCALL and it is an act static code refuses, or has no effect. -/
theorem static_frame_keeps_state_iff (f : Frame) (hstatic : f.isStatic = true) (acts : Acts)
    (j : Journal) :
    (∀ j' ∈ (acts.run f j).visited, j' = j) ↔ ∀ a ∈ acts.attempts f [] j, a.Quiet j :=
  have hcovered : Covered [] := covered_of_revm fun _ h => absurd h List.not_mem_nil
  keeps_iff_quiet ⟨iff_of_true hstatic hcovered, fun _ _ h => absurd h List.not_mem_nil⟩ acts j

/-- A state in which account 1 holds ten wei. -/
def sampleJournal : Journal where
  balance := fun a => if a = 1 then 10 else 0
  nonce := fun _ => 0
  storage := fun _ _ => 0
  transient := fun _ _ => 0
  code := fun _ => []
  logs := []

/-- A write of seven to a contract's first slot. -/
def sampleWrite (account : Address) (j : Journal) : Journal :=
  { j with storage := update j.storage account (update (j.storage account) 0 7) }

/-- A static Stylus frame whose own write and static sub-call are refused. -/
theorem static_frame_keeps_state_sample :
    let f : Frame := ⟨.stylus, 1, 9, 0, true⟩
    let acts : Acts := .change (sampleWrite 1)
      (.call .staticCall 2 0 .evm (.change (sampleWrite 2) (.done false)) (.done true))
    ∀ j' ∈ (acts.run f sampleJournal).visited, j' = sampleJournal := by
  intro f acts
  refine (static_frame_keeps_state_iff f rfl acts sampleJournal).mpr ?_
  have hnone : Covered [] := covered_of_revm fun _ h => absurd h List.not_mem_nil
  have hstatic : Covered [⟨.stylus, .staticCall⟩] :=
    (@covered_snoc [] ⟨.stylus, .staticCall⟩ (by decide)).mpr rfl
  refine List.forall_mem_cons.mpr ⟨.inl ⟨rfl, hnone⟩, ?_⟩
  refine List.forall_mem_cons.mpr ⟨.inr rfl, ?_⟩
  exact List.forall_mem_cons.mpr ⟨.inl ⟨rfl, hstatic⟩, List.forall_mem_nil _⟩

/-- EVM code calls a Stylus program with STATICCALL, the program calls an EVM contract without
    value, and the contract writes its storage. -/
theorem static_call_changes_storage :
    let f : Frame := ⟨.revm, 3, 9, 0, false⟩
    let acts : Acts := .call .staticCall 1 0 .stylus
      (.call .call 2 0 .evm (.change (sampleWrite 2) (.done true)) (.done true)) (.done true)
    (acts.run f sampleJournal).journal.storage 2 0 = 7 ∧ sampleJournal.storage 2 0 = 0 := by
  decide

/-! ## CALLCODE and DELEGATECALL -/

/-- A transfer of value between two accounts that the source can cover: it overflows, or the
    source ends up with less. -/
theorem transfer_moves {j : Journal} {src dst : Address} {value : U256} (hne : src ≠ dst)
    (hvalue : value ≠ 0) (hfunds : ¬ j.balance src < value) :
    j.transfer src dst value = none ∨
      ∃ j', j.transfer src dst value = some j' ∧ j'.balance src ≠ j.balance src := by
  unfold Journal.transfer
  rw [if_neg hfunds, if_neg (not_or.mpr ⟨hne, hvalue⟩)]
  split
  · exact .inl rfl
  · refine .inr ⟨_, rfl, ?_⟩
    dsimp only
    rw [update_of_ne hne, update_self]
    intro heq
    exact hvalue (by simpa using heq)

theorem enter_inner_callCode {f : Frame} (hinner : f.runner = .inner) (address : Address)
    (value : U256) (code : CodeKind) (j : Journal) :
    f.enter .callCode address value code j =
      (if value ≠ 0 then j.transfer f.self address value else some j).map fun j' =>
        (j', ⟨code.trampolineRunner, f.self, f.self, value, false⟩) := by
  simp [Frame.enter, hinner, stylusCallTrampoline, Frame.callInputs, CallScheme.callType]

theorem enter_inner_delegateCall {f : Frame} (hinner : f.runner = .inner) (address : Address)
    (value : U256) (code : CodeKind) (j : Journal) :
    f.enter .delegateCall address value code j =
      some (j, ⟨code.trampolineRunner, f.self, f.caller, f.callValue, false⟩) := by
  simp [Frame.enter, hinner, stylusCallTrampoline, Frame.callInputs, CallScheme.callType]

/-- The call itself moves no ether, and fails only where the executing account of a CALLCODE
    holds less than the value. -/
def MovesNoEther (f : Frame) (scheme : CallScheme) (address : Address) (value : U256)
    (code : CodeKind) (j : Journal) : Prop :=
  (∀ j' callee, f.enter scheme address value code j = some (j', callee) → j'.balance = j.balance) ∧
    (f.enter scheme address value code j = none → scheme = .callCode ∧ j.balance f.self < value)

/-- A CALLCODE or DELEGATECALL of EVM code in `run_evm_bytecode` moves no ether exactly where it
    is a DELEGATECALL, carries no value, runs the code of the executing account itself, or asks
    for more than that account holds. -/
theorem callcode_moves_no_ether_iff (f : Frame) (hinner : f.runner = .inner) (scheme : CallScheme)
    (hscheme : scheme = .callCode ∨ scheme = .delegateCall) (address : Address) (value : U256)
    (code : CodeKind) (j : Journal) :
    MovesNoEther f scheme address value code j ↔
      scheme = .delegateCall ∨ value = 0 ∨ address = f.self ∨ j.balance f.self < value := by
  unfold MovesNoEther
  rcases hscheme with rfl | rfl
  · rw [enter_inner_callCode hinner]
    by_cases hvalue : value = 0
    · simp [hvalue]
    rw [if_pos hvalue]
    by_cases hfunds : j.balance f.self < value
    · simp [Journal.transfer, hfunds]
    by_cases hself : address = f.self
    · simp [Journal.transfer, hfunds, hself]
    refine iff_of_false (fun h => ?_) (by simpa [hself, hfunds] using hvalue)
    rcases transfer_moves (Ne.symm hself) hvalue hfunds with hnone | ⟨j', hsome, hmoved⟩
    · rw [hnone] at h
      exact hfunds (h.2 rfl).2
    · rw [hsome] at h
      exact hmoved (congrFun (h.1 j' _ rfl) f.self)
  · rw [enter_inner_delegateCall hinner]
    simp

/-- A CALLCODE with more than the account holds fails, and moves nothing. -/
theorem callcode_moves_no_ether_sample :
    MovesNoEther ⟨.inner, 1, 9, 0, false⟩ .callCode 2 11 .evm sampleJournal :=
  (callcode_moves_no_ether_iff _ rfl .callCode (.inl rfl) 2 11 .evm sampleJournal).mpr
    (.inr (.inr (.inr (by decide))))

/-- A CALLCODE with three wei pays them to the account that supplies the code. -/
theorem callcode_pays_code_account :
    ((Frame.enter ⟨.inner, 1, 9, 0, false⟩ .callCode 2 3 .evm sampleJournal).map fun entered =>
        (entered.1.balance 1, entered.1.balance 2)) = some (7, 3) ∧
      (sampleJournal.balance 1, sampleJournal.balance 2) = (10, 0) := by
  decide

end Arbreth.Stylus
