/-
  The books kept of the live frames (arb-evm, evm.rs: frame_init, frame_return_result,
  stylus_call_trampoline, stylus_create_trampoline; arb-context, lib.rs: caller_stack,
  stylus_program_counts).

  Frames are entered in two ways. revm's loop enters a frame with `frame_init` and reports its
  end to `frame_return_result`; the trampolines enter the frames below a Stylus program
  themselves. Both keep the journal's depth and the count of programs, only the first one keeps
  the stacks of callers and actors. `Acts.walk` runs a tree of acts as `Acts.run` does, and
  keeps the books on the way; `Live` is the list of frames as they really are.

  Of revm: a checkpoint raises the depth by one, its commit or revert lowers it by one;
  `frame_return_result` is called once for each nested frame that returns, and for the first
  frame unless `frame_init` already answered it; a frame below more than `CALL_STACK_LIMIT`
  others is refused. `Tracks` says what the books should hold, told from the live frames.
-/
import Arbreth.Stylus.Frames

namespace Arbreth.Stylus

open Arbreth.Lib

/-- `CALL_STACK_LIMIT`. -/
def callStackLimit : Nat := 1024

/-! ## The books -/

/-- The journal's depth, `caller_stack`, `stylus_program_counts` and `actor_stack`, the entries
    of the innermost frame last. -/
structure Book where
  depth : Nat
  callers : List Address
  counts : Address → Nat
  actors : List (Option Address)

namespace Book

/-- The books at the start of a transaction; `actor_stack` is not reset between them. -/
def start (leftover : List (Option Address)) : Book := ⟨0, [], fun _ => 0, leftover⟩

def checkpoint (b : Book) : Book := { b with depth := b.depth + 1 }

/-- `checkpoint_commit` and `checkpoint_revert`. -/
def release (b : Book) : Book := { b with depth := b.depth - 1 }

def pushCaller (b : Book) (a : Address) : Book := { b with callers := b.callers ++ [a] }

def popCaller (b : Book) : Book := { b with callers := b.callers.dropLast }

def pushStylusProgram (b : Book) (a : Address) : Book :=
  { b with counts := Function.update b.counts a (b.counts a + 1) }

def popStylusProgram (b : Book) (a : Address) : Book :=
  { b with counts := Function.update b.counts a (b.counts a - 1) }

def pushActor (b : Book) (a : Option Address) : Book := { b with actors := b.actors ++ [a] }

def callerAtDepth (b : Book) (depth : Nat) : Option Address :=
  if depth = 0 then none else b.callers[depth - 1]?

/-- `frame_init` of a call, up to what it does with the frame. -/
def frameInitCall (i : CallInputs) (b : Book) : Book :=
  if i.scheme = .delegateCall ∨ i.scheme = .callCode then (b.pushCaller i.caller).pushActor none
  else ((b.pushCaller i.caller).pushStylusProgram i.targetAddress).pushActor (some i.targetAddress)

/-- `frame_init` of a creation: it takes a checkpoint of its own. -/
def frameInitCreate (caller : Address) (b : Book) : Book :=
  ((b.pushCaller caller).pushActor none).checkpoint

def frameReturnResult (b : Book) : Book :=
  match b.actors.getLast? with
  | some (some a) => { b.popCaller with actors := b.actors.dropLast }.popStylusProgram a
  | _ => { b.popCaller with actors := b.actors.dropLast }

/-- The `ActorGuard` of `stylus_call_trampoline`. -/
def actorGuard (callType : Nat) (storageAddr : Address) (b : Book) : Book :=
  if callType = 1 ∨ callType = 3 then b else b.pushStylusProgram storageAddr

def dropActorGuard (callType : Nat) (storageAddr : Address) (b : Book) : Book :=
  if callType = 1 ∨ callType = 3 then b else b.popStylusProgram storageAddr

end Book

/-- The books when the callee of a call starts. -/
def Frame.openCall (f : Frame) (i : CallInputs) (b : Book) : Book :=
  if f.runner = .revm then (b.frameInitCall i).checkpoint
  else (b.actorGuard i.scheme.callType i.targetAddress).checkpoint

/-- The books after a nested call. `frame_init` answers the call of a Stylus program itself and
    takes the caller off the stack before it does. -/
def Frame.closeCall (f : Frame) (i : CallInputs) (code : CodeKind) (b : Book) : Book :=
  if f.runner = .revm then
    if code = .stylus then b.release.popCaller.frameReturnResult else b.release.frameReturnResult
  else b.release.dropActorGuard i.scheme.callType i.targetAddress

/-- The books when the init code of a creation starts. -/
def Frame.openCreate (f : Frame) (created : Address) (b : Book) : Book :=
  if f.runner = .revm then (b.frameInitCreate f.self).checkpoint
  else (b.pushStylusProgram created).checkpoint

/-- The books after a nested creation. `frame_return_result` gives back the checkpoint of
    `frame_init` only where it rejects the deployed code. -/
def Frame.closeCreate (f : Frame) (created : Address) (rejected : Bool) (b : Book) : Book :=
  if f.runner = .revm then
    if rejected then b.release.frameReturnResult.release else b.release.frameReturnResult
  else b.release.popStylusProgram created

/-! ## Deployed code -/

/-- `is_stylus_classic`, `is_stylus_fragment` and `is_stylus_root`, by their third byte. -/
def hasDiscriminant (kind : UInt8) (code : Bytes) : Bool :=
  3 < code.length && code.take 3 = [0xEF, 0xF0, kind]

/-- `is_stylus_deployable`. -/
def isStylusDeployable (code : Bytes) (arbosVersion : Nat) : Bool :=
  if arbosVersion < 30 then false
  else if arbosVersion < 60 then hasDiscriminant 0 code
  else hasDiscriminant 0 code || hasDiscriminant 2 code

/-- `is_stylus_component`. -/
def isStylusComponent (code : Bytes) (arbosVersion : Nat) : Bool :=
  if arbosVersion < 60 then isStylusDeployable code arbosVersion
  else isStylusDeployable code arbosVersion || hasDiscriminant 1 code

/-- Code with the prefix of EIP-3541 that is no part of a Stylus program. -/
def rejectsCode (arbosVersion : Nat) (code : Bytes) : Bool :=
  code.head? = some 0xEF && !isStylusComponent code arbosVersion

/-! ## Runs that keep the books -/

/-- A live frame: who entered it, by which scheme (none for a creation), the address it acts as
    and its caller. -/
structure Live where
  native : Bool
  scheme : Option CallScheme
  self : Address
  caller : Address
  deriving DecidableEq

/-- What has happened so far in the transaction: nested calls of Stylus programs that
    `frame_init` answered, and creations whose checkpoint `frame_init` took and nothing gave
    back. -/
structure Past where
  answered : Nat
  leaked : Nat
  deriving DecidableEq

/-- What can be seen of a run. -/
inductive Event where
  /-- A call or creation is tried below `live`; `payable` if all but the depth allows it. -/
  | attempted (native : Bool) (live : List Live) (payable entered : Bool)
  /-- The code of a frame starts; the frame is the last of `live`. -/
  | started (runner : Runner) (address : Address) (live : List Live) (book : Book) (past : Past)
  /-- A frame is over; `dropped` if `frame_return_result` is not told. -/
  | returned (dropped : Bool) (before after : Address → Nat)

structure Walk where
  journal : Journal
  success : Bool
  book : Book
  past : Past
  events : List Event

/-- `FrameInit.depth` is the number of frames above. -/
def Frame.tooDeep (f : Frame) (live : List Live) : Bool :=
  f.runner = .revm && callStackLimit < live.length

/-- What comes of an entry that all but the depth decides. -/
def Frame.accept {α : Type} (f : Frame) (live : List Live) (possible : Option α) : Option α :=
  if f.tooDeep live then none else possible

def Frame.liveCall (f : Frame) (i : CallInputs) : Live :=
  ⟨f.runner = .revm, some i.scheme, i.targetAddress, i.caller⟩

def Frame.liveCreate (f : Frame) (created : Address) : Live :=
  ⟨f.runner = .revm, none, created, f.self⟩

def Frame.afterCall (f : Frame) (code : CodeKind) (past : Past) : Past :=
  if f.runner = .revm ∧ code = .stylus then { past with answered := past.answered + 1 } else past

def Frame.duringCreate (f : Frame) (past : Past) : Past :=
  if f.runner = .revm then { past with leaked := past.leaked + 1 } else past

def Frame.afterCreate (f : Frame) (rejected : Bool) (past : Past) : Past :=
  if f.runner = .revm ∧ rejected = true then { past with leaked := past.leaked - 1 } else past

/-- `Acts.run` with the depth limit and the books. -/
def Acts.walk (arbosVersion : Nat) (f : Frame) (live : List Live) :
    Acts → Journal → Book → Past → Walk
  | .done success, j, b, p => ⟨j, success, b, p, []⟩
  | .change effect rest, j, b, p =>
    rest.walk arbosVersion f live (if f.isStatic then j else effect j) b p
  | .call scheme address value code body rest, j, b, p =>
    if f.refusesCall scheme value || f.runner = .precompile then rest.walk arbosVersion f live j b p
    else
      let i := f.callInputs scheme address value
      let possible := f.enter scheme address value code j
      match f.accept live possible with
      | none =>
        let b₁ := f.closeCall i code (f.openCall i b)
        let r := rest.walk arbosVersion f live j b₁ (f.afterCall code p)
        { r with events :=
            .attempted (f.runner = .revm) live possible.isSome false ::
              .returned false b.counts b₁.counts :: r.events }
      | some (j₁, callee) =>
        let live₁ := live ++ [f.liveCall i]
        let sub := body.walk arbosVersion callee live₁ j₁ (f.openCall i b) p
        let b₁ := f.closeCall i code sub.book
        let r := rest.walk arbosVersion f live (if sub.success then sub.journal else j) b₁
          (f.afterCall code sub.past)
        { r with events :=
            .attempted (f.runner = .revm) live true true ::
              .started callee.runner address live₁ (f.openCall i b) p ::
                sub.events ++ .returned false b.counts b₁.counts :: r.events }
  | .create endowment created deployed init rest, j, b, p =>
    if f.isStatic || f.runner = .precompile then rest.walk arbosVersion f live j b p
    else
      let possible := f.enterCreate endowment created j
      let p₁ := f.duringCreate p
      match f.accept live possible with
      | some (bumped, some j₁) =>
        let callee := f.initFrame endowment created
        let live₁ := live ++ [f.liveCreate created]
        let sub := init.walk arbosVersion callee live₁ j₁ (f.openCreate created b) p₁
        let rejected := sub.success && rejectsCode arbosVersion deployed
        let b₁ := f.closeCreate created rejected sub.book
        let deploy := { sub.journal with
          code := Function.update sub.journal.code created deployed }
        let r := rest.walk arbosVersion f live
          (if sub.success && !rejected then deploy else bumped) b₁ (f.afterCreate rejected sub.past)
        { r with events :=
            .attempted (f.runner = .revm) live true true ::
              .started callee.runner created live₁ (f.openCreate created b) p₁ ::
                sub.events ++ .returned false b.counts b₁.counts :: r.events }
      | entered =>
        let b₁ := f.closeCreate created false (f.openCreate created b)
        let r := rest.walk arbosVersion f live ((entered.map Prod.fst).getD j) b₁ p₁
        { r with events :=
            .attempted (f.runner = .revm) live (possible.bind Prod.snd).isSome false ::
              .returned false b.counts b₁.counts :: r.events }

/-- A transaction that enters the EVM: its first frame and what that does. -/
inductive Transaction where
  | call (sender target : Address) (value : U256) (code : CodeKind) (body : Acts)
  | create (sender : Address) (endowment : U256) (created : Address) (deployed : Bytes) (init : Acts)

/-- Where a transaction comes from, as if it were a frame of revm. -/
def origin (sender : Address) : Frame := ⟨.revm, sender, sender, 0, false⟩

/-- `frame_init` itself answers the first call: code that is not run by revm's loop, or none. -/
def answersFirst (code : CodeKind) (target : Address) (j : Journal) : Bool :=
  code ≠ .evm || j.code target = []

/-- All that can be seen of a transaction. -/
def Transaction.events (arbosVersion : Nat) (leftover : List (Option Address)) (j : Journal) :
    Transaction → List Event
  | .call sender target value code body =>
    let f := origin sender
    let i := f.callInputs .call target value
    let b := Book.start leftover
    match f.enter .call target value code j with
    | none => [.attempted true [] false false, .returned true b.counts (f.openCall i b).counts]
    | some (j₁, callee) =>
      let sub := body.walk arbosVersion callee [f.liveCall i] j₁ (f.openCall i b) ⟨0, 0⟩
      let ended :=
        if answersFirst code target j then sub.book.release else f.closeCall i code sub.book
      .attempted true [] true true ::
        .started callee.runner target [f.liveCall i] (f.openCall i b) ⟨0, 0⟩ ::
          sub.events ++ [.returned (answersFirst code target j) b.counts ended.counts]
  | .create sender endowment created deployed init =>
    let f := origin sender
    let b := Book.start leftover
    match (f.enterCreate endowment created j).bind Prod.snd with
    | none =>
      [.attempted true [] false false, .returned false b.counts (f.openCreate created b).counts]
    | some j₁ =>
      let sub := init.walk arbosVersion (f.initFrame endowment created) [f.liveCreate created] j₁
        (f.openCreate created b) ⟨0, 1⟩
      let ended := f.closeCreate created (sub.success && rejectsCode arbosVersion deployed) sub.book
      .attempted true [] true true ::
        .started .revm created [f.liveCreate created] (f.openCreate created b) ⟨0, 1⟩ ::
          sub.events ++ [.returned false b.counts ended.counts]

/-- A state without code and ether. -/
def emptyJournal : Journal where
  balance := fun _ => 0
  nonce := fun _ => 0
  storage := fun _ _ => 0
  transient := fun _ _ => 0
  code := fun _ => []
  logs := []

/-! ## What the books hold -/

/-- The frames the count of programs counts: of revm's frames the calls that are not
    delegated, of the trampolines' frames all that are not DELEGATECALLs. -/
def Live.counted (l : Live) : Bool :=
  if l.native then l.scheme = some .call || l.scheme = some .staticCall
  else l.scheme ≠ some .delegateCall

def Live.actor (l : Live) : Option Address := if l.counted then some l.self else none

/-- The books, told from the frames that are live and what has happened so far. -/
structure Tracks (leftover : List (Option Address)) (live : List Live) (b : Book) (p : Past) :
    Prop where
  depth : b.depth = live.length + p.leaked
  counts : ∀ a, b.counts a = live.countP fun l => l.counted && l.self = a
  actors : b.actors = leftover ++ (live.filter (·.native)).map Live.actor
  callers : p.answered = 0 → b.callers = (live.filter (·.native)).map Live.caller
  missing : p.answered ≠ 0 → b.callers.length < (live.filter (·.native)).length

/-- A frame that runs is the last one live: only frames of revm are above a frame of revm, and
    one of the live frames that acts as its address was entered by a call of that address or a
    creation. -/
structure Sound (f : Frame) (live : List Live) : Prop where
  native : f.runner = .revm → live ≠ [] ∧ ∀ l ∈ live, l.native = true
  entered : ∃ l ∈ live, l.self = f.self ∧ l.scheme ≠ some .callCode ∧ l.scheme ≠ some .delegateCall

end Arbreth.Stylus
