/-
  The books of the live frames hold what `Tracks` says, at every point of every transaction.

  Entering a frame and leaving it are said once, by what they do to the books (`Book.enter`,
  `Book.leave`); the four ways to enter a frame and their ends are cases of these. `walksOk`
  goes by induction over what a frame does, `events_ok` adds the first frame.
-/
import Arbreth.Stylus.CallBook

namespace Arbreth.Stylus

open Arbreth.Lib Stylus.Frame

/-! ## Entering and leaving a frame -/

namespace Book

/-- The books when a frame is entered. -/
def enter (l : Live) (b : Book) : Book where
  depth := b.depth + 1
  callers := if l.native then b.callers ++ [l.caller] else b.callers
  counts := if l.counted then Function.update b.counts l.self (b.counts l.self + 1) else b.counts
  actors := if l.native then b.actors ++ [l.actor] else b.actors

/-- The books when a frame is left. -/
def leave (l : Live) (b : Book) : Book where
  depth := b.depth - 1
  callers := if l.native then b.callers.dropLast else b.callers
  counts := if l.counted then Function.update b.counts l.self (b.counts l.self - 1) else b.counts
  actors := if l.native then b.actors.dropLast else b.actors

end Book

section Steps

variable {leftover : List (Option Address)} {live : List Live} {l : Live} {b : Book} {p : Past}
  {f : Frame} {i : CallInputs} {created : Address}

theorem openCall_eq : f.openCall i b = b.enter (f.liveCall i) := by
  unfold openCall liveCall Book.enter
  by_cases hrevm : f.runner = .revm
  · cases hscheme : i.scheme <;>
      simp [hrevm, hscheme, Book.frameInitCall, Book.checkpoint, Book.pushCaller, Book.pushActor,
        Book.pushStylusProgram, Live.counted, Live.actor]
  · cases hscheme : i.scheme <;>
      simp [hrevm, Book.actorGuard, Book.checkpoint, Book.pushStylusProgram, Live.counted,
        CallScheme.callType]

theorem openCreate_eq_of_revm (hrevm : f.runner = .revm) :
    f.openCreate created b = (b.enter (f.liveCreate created)).checkpoint := by
  simp [openCreate, liveCreate, Book.enter, hrevm, Book.frameInitCreate,
    Book.checkpoint, Book.pushCaller, Book.pushActor, Live.counted, Live.actor]

theorem openCreate_eq (hrevm : f.runner ≠ .revm) :
    f.openCreate created b = b.enter (f.liveCreate created) := by
  simp [openCreate, liveCreate, Book.enter, hrevm, Book.checkpoint,
    Book.pushStylusProgram, Live.counted]

theorem counts_enter (a : Address) :
    (b.enter l).counts a = b.counts a + if (l.counted && l.self = a) = true then 1 else 0 := by
  cases hcounted : l.counted with
  | false => simp [Book.enter, hcounted]
  | true =>
    by_cases hself : a = l.self
    · simp [Book.enter, hcounted, hself]
    · simp [Book.enter, hcounted, hself, Ne.symm hself]

theorem counts_leave (a : Address) :
    (b.leave l).counts a = b.counts a - if (l.counted && l.self = a) = true then 1 else 0 := by
  cases hcounted : l.counted with
  | false => simp [Book.leave, hcounted]
  | true =>
    by_cases hself : a = l.self
    · simp [Book.leave, hcounted, hself]
    · simp [Book.leave, hcounted, hself, Ne.symm hself]

theorem Tracks.enter (h : Tracks leftover live b p) :
    Tracks leftover (live ++ [l]) (b.enter l) p where
  depth := by
    simp only [Book.enter, h.depth, List.length_append, List.length_singleton]
    omega
  counts a := by rw [counts_enter, h.counts, List.countP_append, List.countP_singleton]
  actors := by cases hnative : l.native <;> simp [Book.enter, hnative, h.actors]
  callers hp := by cases hnative : l.native <;> simp [Book.enter, hnative, h.callers hp]
  missing hp := by
    have hlt := h.missing hp
    cases hnative : l.native <;> simpa [Book.enter, hnative] using hlt

/-- The last frame of revm took its actor along. -/
theorem Tracks.getLast?_actors (h : Tracks leftover (live ++ [l]) b p) (hnative : l.native = true) :
    b.actors.getLast? = some l.actor := by
  rw [h.actors]
  simp [hnative]

theorem Tracks.getLast?_actors_first (h : Tracks leftover [l] b p) (hnative : l.native = true) :
    b.actors.getLast? = some l.actor := by
  have h : Tracks leftover ([] ++ [l]) b p := h
  exact h.getLast?_actors hnative

theorem frameReturnResult_eq (hlast : b.actors.getLast? = some l.actor) (hnative : l.native = true) :
    b.release.frameReturnResult = b.leave l := by
  have hlast' : b.release.actors.getLast? = some l.actor := hlast
  unfold Book.frameReturnResult
  rw [hlast']
  unfold Live.actor
  cases hcounted : l.counted <;>
    simp [Book.leave, hnative, hcounted, Book.popStylusProgram, Book.popCaller, Book.release]

theorem Tracks.leave (h : Tracks leftover (live ++ [l]) b p)
    (hbelow : l.native = true → (live.filter (·.native)) ≠ []) :
    Tracks leftover live (b.leave l) p where
  depth := by
    have hdepth := h.depth
    simp only [List.length_append, List.length_singleton] at hdepth
    simp only [Book.leave]
    omega
  counts a := by
    rw [counts_leave, h.counts, List.countP_append, List.countP_singleton, Nat.add_sub_cancel]
  actors := by
    have hactors := h.actors
    cases hnative : l.native <;> simp [Book.leave, hnative, hactors]
  callers hp := by
    have hcallers := h.callers hp
    cases hnative : l.native <;> simp [Book.leave, hnative, hcallers]
  missing hp := by
    have hmissing := h.missing hp
    cases hnative : l.native with
    | false => simpa [Book.leave, hnative] using hmissing
    | true =>
      have hpos := List.length_pos_iff.mpr (hbelow hnative)
      simp [hnative] at hmissing
      simp only [Book.leave, hnative, if_true, List.length_dropLast]
      omega

/-- A call of a Stylus program from a frame of revm takes two callers off the stack. -/
theorem Tracks.leave_answered (h : Tracks leftover (live ++ [l]) b p)
    (hbelow : (live.filter (·.native)) ≠ []) (hnative : l.native = true) :
    Tracks leftover live (b.popCaller.leave l) { p with answered := p.answered + 1 } where
  depth := (h.leave fun _ => hbelow).depth
  counts := (h.leave fun _ => hbelow).counts
  actors := (h.leave fun _ => hbelow).actors
  callers hp := absurd hp (Nat.succ_ne_zero _)
  missing _ := by
    have hpos := List.length_pos_iff.mpr hbelow
    have hlen : b.callers.length ≤ (live.filter (·.native)).length + 1 := by
      by_cases hp : p.answered = 0
      · rw [h.callers hp]
        simp [hnative]
      · have hmissing := h.missing hp
        simp [hnative] at hmissing
        omega
    simp only [Book.leave, Book.popCaller, hnative, if_true, List.length_dropLast]
    omega

end Steps

/-! ## Whole runs -/

/-- What is true of a single event. -/
def Event.Ok (leftover : List (Option Address)) : Event → Prop
  | .attempted native live payable entered =>
    entered = (payable && !(native && callStackLimit < live.length))
  | .started _ _ live b p =>
    Tracks leftover live b p ∧ ∃ l, live.getLast? = some l ∧
      ∃ l' ∈ live, l'.self = l.self ∧ l'.scheme ≠ some .callCode ∧ l'.scheme ≠ some .delegateCall
  | .returned dropped before after => dropped = false ↔ after = before

/-- What is true of the events of a run: a frame starts only after an attempt that enters it. -/
structure EventsOk (leftover : List (Option Address)) (events : List Event) : Prop where
  each : ∀ e ∈ events, e.Ok leftover
  linked : ∀ runner address live b p, Event.started runner address live b p ∈ events →
    ∃ native above l, Event.attempted native above true true ∈ events ∧ live = above ++ [l]

section Runs

variable {leftover : List (Option Address)} {live : List Live} {l : Live} {b : Book} {p : Past}
  {f callee : Frame} {i : CallInputs} {created : Address} {events events' : List Event}

theorem EventsOk.nil : EventsOk leftover [] :=
  ⟨List.forall_mem_nil _, fun _ _ _ _ _ h => absurd h List.not_mem_nil⟩

theorem EventsOk.append (h : EventsOk leftover events) (h' : EventsOk leftover events') :
    EventsOk leftover (events ++ events') := by
  refine ⟨List.forall_mem_append.mpr ⟨h.each, h'.each⟩, ?_⟩
  intro runner address live b p hmem
  rcases List.mem_append.mp hmem with hmem | hmem
  · obtain ⟨native, above, l, hin, heq⟩ := h.linked runner address live b p hmem
    exact ⟨native, above, l, List.mem_append_left _ hin, heq⟩
  · obtain ⟨native, above, l, hin, heq⟩ := h'.linked runner address live b p hmem
    exact ⟨native, above, l, List.mem_append_right _ hin, heq⟩

variable {before after : Address → Nat} {dropped : Bool} {code : CodeKind}

theorem EventsOk.refused {native payable : Bool}
    (hrefused : (payable && !(native && callStackLimit < live.length)) = false)
    (hcounts : dropped = false ↔ after = before) :
    EventsOk leftover [.attempted native live payable false, .returned dropped before after] := by
  refine ⟨List.forall_mem_cons.mpr ⟨hrefused.symm, ?_⟩, fun _ _ _ _ _ h => by simp at h⟩
  exact List.forall_mem_singleton.mpr hcounts

theorem EventsOk.entered (runner : Runner) (address : Address)
    (hshallow : (l.native && callStackLimit < live.length) = false)
    (htracks : Tracks leftover (live ++ [l]) b p)
    (hsound : ∃ l' ∈ live ++ [l], l'.self = l.self ∧ l'.scheme ≠ some .callCode ∧
      l'.scheme ≠ some .delegateCall) :
    EventsOk leftover [.attempted l.native live true true,
      .started runner address (live ++ [l]) b p] := by
  refine ⟨List.forall_mem_cons.mpr ⟨?_, ?_⟩, ?_⟩
  · simp only [Event.Ok]
    rw [hshallow]
    rfl
  · exact List.forall_mem_singleton.mpr ⟨htracks, l, by simp, hsound⟩
  · intro runner' address' live' b' p' h
    simp at h
    exact ⟨l.native, live, l, by simp, h.2.2.1⟩

theorem EventsOk.returned (hcounts : dropped = false ↔ after = before) :
    EventsOk leftover [.returned dropped before after] :=
  ⟨List.forall_mem_singleton.mpr hcounts, fun _ _ _ _ _ h => by simp at h⟩

theorem Tracks.counts_iff {b' : Book} {p' : Past} (h : Tracks leftover live b p)
    (h' : Tracks leftover live b' p') : false = false ↔ b'.counts = b.counts := by
  refine iff_of_true rfl (funext fun a => ?_)
  rw [h.counts, h'.counts]

theorem Tracks.checkpoint (h : Tracks leftover live b p) :
    Tracks leftover live b.checkpoint { p with leaked := p.leaked + 1 } where
  depth := by simp only [Book.checkpoint, h.depth, Nat.add_assoc]
  counts := h.counts
  actors := h.actors
  callers := h.callers
  missing := h.missing

theorem Tracks.release (h : Tracks leftover live b p) (hleaked : p.leaked ≠ 0) :
    Tracks leftover live b.release { p with leaked := p.leaked - 1 } where
  depth := by
    have hdepth := h.depth
    simp only [Book.release]
    omega
  counts := h.counts
  actors := h.actors
  callers := h.callers
  missing := h.missing

theorem Sound.filter_ne_nil (h : Sound f live) (hrevm : f.runner = .revm) :
    live.filter (·.native) ≠ [] := by
  obtain ⟨hne, hnative⟩ := h.native hrevm
  rwa [List.filter_eq_self.mpr hnative]

theorem Tracks.openCall (h : Tracks leftover live b p) (i : CallInputs) :
    Tracks leftover (live ++ [f.liveCall i]) (f.openCall i b) p := by
  rw [openCall_eq]
  exact h.enter

theorem Tracks.closeCall (h : Tracks leftover (live ++ [f.liveCall i]) b p) (hsound : Sound f live)
    (code : CodeKind) :
    Tracks leftover live (f.closeCall i code b) (f.afterCall code p) := by
  unfold Frame.closeCall afterCall
  by_cases hrevm : f.runner = .revm
  · have hnative : (f.liveCall i).native = true := decide_eq_true hrevm
    have hlast := h.getLast?_actors hnative
    have hbelow := hsound.filter_ne_nil hrevm
    rw [if_pos hrevm]
    by_cases hcode : code = .stylus
    · have hlast' : b.popCaller.actors.getLast? = some (f.liveCall i).actor := hlast
      have hclosed : b.release.popCaller.frameReturnResult = b.popCaller.leave (f.liveCall i) :=
        frameReturnResult_eq hlast' hnative
      rw [if_pos hcode, if_pos ⟨hrevm, hcode⟩, hclosed]
      exact h.leave_answered hbelow hnative
    · rw [if_neg hcode, if_neg fun h => hcode h.2, frameReturnResult_eq hlast hnative]
      exact h.leave fun _ => hbelow
  · have hforeign : (f.liveCall i).native = false := decide_eq_false hrevm
    rw [if_neg hrevm, if_neg fun h => hrevm h.1]
    have hclosed : b.release.dropActorGuard i.scheme.callType i.targetAddress =
        b.leave (f.liveCall i) := by
      cases hscheme : i.scheme <;>
        simp [Book.dropActorGuard, Book.leave, hrevm, Book.release, Book.popStylusProgram,
          Live.counted, liveCall, hscheme, CallScheme.callType]
    rw [hclosed]
    exact h.leave fun htrue => absurd (htrue.symm.trans hforeign) (by decide)

theorem Tracks.openCreate (h : Tracks leftover live b p) (created : Address) :
    Tracks leftover (live ++ [f.liveCreate created]) (f.openCreate created b) (f.duringCreate p) := by
  unfold duringCreate
  by_cases hrevm : f.runner = .revm
  · rw [if_pos hrevm, openCreate_eq_of_revm hrevm]
    exact h.enter.checkpoint
  · rw [if_neg hrevm, openCreate_eq hrevm]
    exact h.enter

theorem Tracks.closeCreate (h : Tracks leftover (live ++ [f.liveCreate created]) b p)
    (hsound : Sound f live) (hleaked : f.runner = .revm → p.leaked ≠ 0) (rejected : Bool) :
    Tracks leftover live (f.closeCreate created rejected b) (f.afterCreate rejected p) := by
  unfold Frame.closeCreate afterCreate
  by_cases hrevm : f.runner = .revm
  · have hnative : (f.liveCreate created).native = true := decide_eq_true hrevm
    have hclosed := h.leave fun _ => hsound.filter_ne_nil hrevm
    rw [if_pos hrevm, frameReturnResult_eq (h.getLast?_actors hnative) hnative]
    cases rejected with
    | false => simpa using hclosed
    | true => simpa [hrevm] using hclosed.release (hleaked hrevm)
  · have hforeign : (f.liveCreate created).native = false := decide_eq_false hrevm
    rw [if_neg hrevm, if_neg fun h => hrevm h.1]
    have hclosed : b.release.popStylusProgram created = b.leave (f.liveCreate created) := by
      simp [Book.leave, hrevm, Book.release, Book.popStylusProgram, Live.counted, liveCreate]
    rw [hclosed]
    exact h.leave fun htrue => absurd (htrue.symm.trans hforeign) (by decide)

theorem enter_frame {scheme : CallScheme} {address : Address} {value : U256} {j j₁ : Journal}
    (henter : f.enter scheme address value code j = some (j₁, callee)) :
    callee.self = (f.callInputs scheme address value).targetAddress ∧
      (callee.runner = .revm → f.runner = .revm) := by
  unfold enter at henter
  split at henter
  · next hrunner =>
      obtain ⟨_, _, hcallee⟩ := Option.map_eq_some_iff.mp henter
      injection hcallee with _ hcallee
      exact ⟨hcallee ▸ rfl, fun _ => hrunner⟩
  · cases henter
  all_goals
    obtain ⟨_, _, hcallee⟩ := Option.map_eq_some_iff.mp henter
    injection hcallee with _ hcallee
    refine ⟨hcallee ▸ rfl, fun hrevm => ?_⟩
    rw [← hcallee] at hrevm
    cases code <;> cases hrevm

theorem Sound.openCall (hsound : Sound f live) {scheme : CallScheme} {address : Address}
    {value : U256} {j j₁ : Journal}
    (henter : f.enter scheme address value code j = some (j₁, callee)) :
    Sound callee (live ++ [f.liveCall (f.callInputs scheme address value)]) := by
  obtain ⟨hself, hrunner⟩ := enter_frame henter
  refine ⟨fun hrevm => ⟨by simp, ?_⟩, ?_⟩
  · have hrevm := hrunner hrevm
    refine List.forall_mem_append.mpr ⟨(hsound.native hrevm).2, ?_⟩
    exact List.forall_mem_singleton.mpr (decide_eq_true hrevm)
  · obtain ⟨l, hl, hlself, hlscheme⟩ := hsound.entered
    rw [hself]
    cases scheme with
    | call | staticCall =>
      exact ⟨_, List.mem_append_right _ (List.mem_singleton_self _), rfl, by simp [liveCall,
        callInputs]⟩
    | callCode | delegateCall => exact ⟨l, List.mem_append_left _ hl, hlself, hlscheme⟩

theorem Sound.openCreate (hsound : Sound f live) {endowment : U256} :
    Sound (f.initFrame endowment created) (live ++ [f.liveCreate created]) := by
  refine ⟨fun hrevm => ⟨by simp, ?_⟩, ?_⟩
  · have hrevm : f.runner = .revm := by
      by_contra hne
      simp [initFrame, hne] at hrevm
    refine List.forall_mem_append.mpr ⟨(hsound.native hrevm).2, ?_⟩
    exact List.forall_mem_singleton.mpr (decide_eq_true hrevm)
  · exact ⟨_, List.mem_append_right _ (List.mem_singleton_self _), rfl, by simp [liveCreate]⟩

theorem leaked_afterCall : (f.afterCall code p).leaked = p.leaked := by
  unfold afterCall
  split <;> rfl

theorem le_leaked_duringCreate : p.leaked ≤ (f.duringCreate p).leaked := by
  unfold duringCreate
  split
  · exact Nat.le_succ _
  · exact Nat.le_refl _

theorem afterCreate_false : f.afterCreate false p = p := if_neg fun h => Bool.false_ne_true h.2

/-- A creation gives back at most the checkpoint it took. -/
theorem le_leaked_afterCreate {p₁ : Past} {rejected : Bool}
    (h : (f.duringCreate p).leaked ≤ p₁.leaked) : p.leaked ≤ (f.afterCreate rejected p₁).leaked := by
  unfold duringCreate at h
  unfold afterCreate
  by_cases hrevm : f.runner = .revm
  · rw [if_pos hrevm] at h
    split
    · exact Nat.le_sub_one_of_lt h
    · exact Nat.le_of_succ_le h
  · rw [if_neg hrevm] at h
    rw [if_neg fun h => hrevm h.1]
    exact h

end Runs

theorem accept_isSome {α : Type} {f : Frame} {live : List Live} {possible : Option α}
    (h : f.accept live possible = none) :
    (possible.isSome && !((f.runner = .revm : Bool) && callStackLimit < live.length)) = false := by
  unfold accept tooDeep at h
  split at h
  · next hdeep => rw [hdeep, Bool.not_true, Bool.and_false]
  · rw [h, Option.isSome_none, Bool.false_and]

theorem accept_bind {α β : Type} {f : Frame} {live : List Live} (possible : Option α)
    (g : α → Option β) : (f.accept live possible).bind g = f.accept live (possible.bind g) := by
  unfold accept
  split <;> rfl

theorem accept_eq_some {α : Type} {f : Frame} {live : List Live} {possible : Option α} {entered : α}
    (h : f.accept live possible = some entered) :
    ((f.runner = .revm : Bool) && callStackLimit < live.length) = false ∧ possible = some entered := by
  unfold accept tooDeep at h
  split at h
  · cases h
  · next hdeep => exact ⟨Bool.eq_false_iff.mpr hdeep, h⟩

/-- The books are right at every point of a run below a frame, and no checkpoint left behind is
    given back. -/
def Acts.WalksOk (arbosVersion : Nat) (leftover : List (Option Address)) (acts : Acts) : Prop :=
  ∀ (f : Frame) (live : List Live) (j : Journal) (b : Book) (p : Past), Sound f live →
    Tracks leftover live b p →
      Tracks leftover live (acts.walk arbosVersion f live j b p).book
          (acts.walk arbosVersion f live j b p).past ∧
        p.leaked ≤ (acts.walk arbosVersion f live j b p).past.leaked ∧
        EventsOk leftover (acts.walk arbosVersion f live j b p).events

section Steps

variable {arbosVersion : Nat} {leftover : List (Option Address)} {body init rest : Acts}

theorem Acts.WalksOk.call (hbody : body.WalksOk arbosVersion leftover)
    (hrest : rest.WalksOk arbosVersion leftover) (scheme : CallScheme) (address : Address)
    (value : U256) (code : CodeKind) :
    (Acts.call scheme address value code body rest).WalksOk arbosVersion leftover := by
  intro f live j b p hsound h
  simp only [Acts.walk]
  cases f.refusesCall scheme value || f.runner = .precompile with
  | true => exact hrest f live j b p hsound h
  | false =>
    cases haccept : f.accept live (f.enter scheme address value code j) with
    | none =>
      have hclosed := (h.openCall (f.callInputs scheme address value)).closeCall hsound code
      obtain ⟨hafter, hleaked, hevents⟩ := hrest f live j _ _ hsound hclosed
      have hrefused := (EventsOk.refused (accept_isSome haccept) (h.counts_iff hclosed)).append hevents
      exact ⟨hafter, leaked_afterCall ▸ hleaked, hrefused⟩
    | some entered =>
      obtain ⟨j₁, callee⟩ := entered
      obtain ⟨hshallow, henter⟩ := accept_eq_some haccept
      have hcallee := hsound.openCall henter
      obtain ⟨hsub, hsubLeaked, hsubEvents⟩ := hbody _ _ j₁ _ _ hcallee (h.openCall _)
      have hclosed := hsub.closeCall hsound code
      obtain ⟨hafter, hleaked, hevents⟩ := hrest f live _ _ _ hsound hclosed
      rw [leaked_afterCall] at hleaked
      have hself := hcallee.entered
      rw [(enter_frame henter).1] at hself
      have hentered := EventsOk.entered callee.runner address hshallow (h.openCall _) hself
      have hreturned := (EventsOk.returned (h.counts_iff hclosed)).append hevents
      exact ⟨hafter, hsubLeaked.trans hleaked, (hentered.append hsubEvents).append hreturned⟩

theorem Acts.WalksOk.create (hinit : init.WalksOk arbosVersion leftover)
    (hrest : rest.WalksOk arbosVersion leftover) (endowment : U256) (created : Address)
    (deployed : Bytes) :
    (Acts.create endowment created deployed init rest).WalksOk arbosVersion leftover := by
  intro f live j b p hsound h
  simp only [Acts.walk]
  cases f.isStatic || f.runner = .precompile with
  | true => exact hrest f live j b p hsound h
  | false =>
    have hopened := Tracks.openCreate (f := f) h created
    have htook : f.runner = .revm → (f.duringCreate p).leaked ≠ 0 := fun hrevm => by
      simp [duringCreate, hrevm]
    cases hbind : (f.accept live (f.enterCreate endowment created j)).bind Prod.snd with
    | none =>
      have hclosed := hopened.closeCreate hsound htook false
      rw [afterCreate_false] at hclosed
      have hafter := fun j' => hrest f live j' _ _ hsound hclosed
      have hnone := hbind
      rw [accept_bind] at hnone
      have hrefused := fun j' => (EventsOk.refused (accept_isSome hnone) (h.counts_iff hclosed)).append
        (hafter j').2.2
      have hleaked := fun j' => le_leaked_duringCreate.trans (hafter j').2.1
      rcases haccept : f.accept live (f.enterCreate endowment created j) with _ | ⟨bumped, _ | j₁⟩
      · exact ⟨(hafter j).1, hleaked j, hrefused j⟩
      · exact ⟨(hafter bumped).1, hleaked bumped, hrefused bumped⟩
      · simp [haccept] at hbind
    | some j₁ =>
      obtain ⟨⟨bumped, _⟩, haccept, rfl⟩ := Option.bind_eq_some_iff.mp hbind
      have hshallow := (accept_eq_some haccept).1
      have hcallee : Sound (f.initFrame endowment created) _ := hsound.openCreate
      obtain ⟨hsub, hsubLeaked, hsubEvents⟩ := hinit _ _ j₁ _ _ hcallee hopened
      -- the checkpoint of this creation is still there when it is over
      have hclosed := fun rejected => hsub.closeCreate hsound
        (fun hrevm => Nat.ne_of_gt ((Nat.pos_of_ne_zero (htook hrevm)).trans_le hsubLeaked))
        rejected
      obtain ⟨hafter, hleaked, hevents⟩ := hrest f live _ _ _ hsound (hclosed _)
      have hentered := EventsOk.entered (f.initFrame endowment created).runner created hshallow hopened
        hcallee.entered
      simp only [haccept, Bool.false_eq_true, if_false]
      refine ⟨hafter, (le_leaked_afterCreate hsubLeaked).trans hleaked,
        (hentered.append hsubEvents).append ?_⟩
      exact (EventsOk.returned (h.counts_iff (hclosed _))).append hevents

/-- By induction over what a frame does. -/
theorem walksOk (arbosVersion : Nat) (leftover : List (Option Address)) (acts : Acts) :
    acts.WalksOk arbosVersion leftover := by
  induction acts with
  | done success => exact fun _ _ _ _ _ _ h => ⟨h, Nat.le_refl _, .nil⟩
  | change effect rest ih => exact fun f live _ b p hsound h => ih f live _ b p hsound h
  | call scheme address value code body rest ihBody ihRest =>
    exact ihBody.call ihRest scheme address value code
  | create endowment created deployed init rest ihInit ihRest =>
    exact ihInit.create ihRest endowment created deployed

end Steps

section Transactions

variable {leftover : List (Option Address)}

theorem tracks_start : Tracks leftover [] (Book.start leftover) ⟨0, 0⟩ where
  depth := rfl
  counts _ := rfl
  actors := (List.append_nil _).symm
  callers _ := rfl
  missing h := absurd rfl h

theorem sound_first (callee : Frame) {l : Live} (hself : l.self = callee.self)
    (hnative : l.native = true) (hscheme : l.scheme ≠ some .callCode ∧ l.scheme ≠ some .delegateCall) :
    Sound callee [l] :=
  ⟨fun _ => ⟨List.cons_ne_nil _ _, List.forall_mem_singleton.mpr hnative⟩,
    l, List.mem_singleton_self l, hself, hscheme⟩

/-- The first frame counts itself, and nothing else is live. -/
theorem counts_first {l : Live} {b : Book} {p : Past} (h : Tracks leftover [l] b p)
    (hcounted : l.counted = true) : b.counts ≠ (Book.start leftover).counts := by
  intro heq
  have hone := congrFun heq l.self
  rw [h.counts] at hone
  simp [hcounted, Book.start] at hone

theorem counts_leave_first {l : Live} {b : Book} {p : Past} (h : Tracks leftover [l] b p) :
    (b.leave l).counts = (Book.start leftover).counts := by
  funext a
  rw [counts_leave, h.counts, List.countP_singleton, Nat.sub_self]
  rfl

theorem counts_closeCreate {f : Frame} {created : Address} {rejected : Bool} {b : Book}
    (hrevm : f.runner = .revm) :
    (f.closeCreate created rejected b).counts = b.release.frameReturnResult.counts := by
  unfold Frame.closeCreate
  rw [if_pos hrevm]
  cases rejected <;> rfl

/-- The first frame, all that happens below it, and its end. -/
theorem EventsOk.first {runner : Runner} {address : Address} {l : Live} {b : Book} {p : Past}
    {events : List Event} {before after : Address → Nat} {dropped : Bool} (hnative : l.native = true)
    (hscheme : l.scheme ≠ some .callCode ∧ l.scheme ≠ some .delegateCall)
    (htracks : Tracks leftover [l] b p) (hevents : EventsOk leftover events)
    (hcounts : dropped = false ↔ after = before) :
    EventsOk leftover (.attempted true [] true true :: .started runner address [l] b p ::
      events ++ [.returned dropped before after]) := by
  have htracks : Tracks leftover ([] ++ [l]) b p := htracks
  have hentered := EventsOk.entered runner address (by simp [callStackLimit]) htracks
    ⟨l, List.mem_singleton_self l, rfl, hscheme⟩
  rw [hnative] at hentered
  exact (hentered.append hevents).append (.returned hcounts)

/-- The books are right at every point of a transaction. -/
theorem events_ok (arbosVersion : Nat) (leftover : List (Option Address)) (j : Journal)
    (tx : Transaction) : EventsOk leftover (tx.events arbosVersion leftover j) := by
  cases tx with
  | call sender target value code body =>
    let l : Live := ⟨true, some .call, target, sender⟩
    have hscheme : l.scheme ≠ some .callCode ∧ l.scheme ≠ some .delegateCall := by simp [l]
    have hopened : Tracks leftover [l] _ _ := tracks_start.openCall (f := origin sender)
      ((origin sender).callInputs .call target value)
    have hnot : ¬ true = false := by decide
    cases henter : (origin sender).enter .call target value code j with
    | none =>
      simp only [Transaction.events, henter]
      exact .refused rfl (iff_of_false hnot (counts_first hopened rfl))
    | some entered =>
      obtain ⟨j₁, callee⟩ := entered
      have hsound : Sound callee [l] := sound_first callee (enter_frame henter).1.symm rfl hscheme
      obtain ⟨hsub, -, hevents⟩ := walksOk arbosVersion leftover body _ _ j₁ _ _ hsound hopened
      simp only [Transaction.events, henter]
      refine EventsOk.first rfl hscheme hopened hevents ?_
      cases hanswers : answersFirst code target j with
      | true =>
        have hcounts := counts_first hsub (rfl : l.counted = true)
        exact iff_of_false hnot hcounts
      | false =>
        have hcode : code = .evm := by simpa using (Bool.or_eq_false_iff.mp hanswers).1
        refine iff_of_true rfl ((congrArg Book.counts ?_).trans (counts_leave_first hsub))
        rw [if_neg Bool.false_ne_true, hcode]
        exact frameReturnResult_eq (hsub.getLast?_actors_first rfl) rfl
  | create sender endowment created deployed init =>
    let l : Live := ⟨true, none, created, sender⟩
    have hscheme : l.scheme ≠ some .callCode ∧ l.scheme ≠ some .delegateCall := by simp [l]
    have hopened : Tracks leftover [l] _ _ := tracks_start.openCreate (f := origin sender) created
    cases henter : ((origin sender).enterCreate endowment created j).bind Prod.snd with
    | none =>
      simp only [Transaction.events, henter]
      exact .refused rfl (iff_of_true rfl rfl)
    | some j₁ =>
      have hsound : Sound ((origin sender).initFrame endowment created) [l] :=
        sound_first _ rfl rfl hscheme
      obtain ⟨hsub, -, hevents⟩ := walksOk arbosVersion leftover init _ _ j₁ _ _ hsound hopened
      simp only [Transaction.events, henter]
      refine EventsOk.first rfl hscheme hopened hevents (iff_of_true rfl ?_)
      have hclosed := frameReturnResult_eq (hsub.getLast?_actors_first rfl) rfl
      rw [counts_closeCreate rfl]
      exact (congrArg Book.counts hclosed).trans (counts_leave_first hsub)

end Transactions

end Arbreth.Stylus
