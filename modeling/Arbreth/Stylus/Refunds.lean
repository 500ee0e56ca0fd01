/-
  Refunds below a Stylus program (arb-evm, evm.rs: stylus_call_trampoline,
  stylus_create_trampoline, run_evm_bytecode, execute_stylus_program; arb-stylus,
  evm_api_impl.rs: contract_call, delegate_call, static_call, create1, create2).

  Four pieces of code add up the refunds of storage writes. A Stylus program adds what each call
  gives back, whether it succeeded or not. EVM code in `run_evm_bytecode` adds it for calls that
  succeeded. The trampoline hands on what EVM code recorded also where it failed; for a Stylus
  program it does so only if the program is reached through an EIP-7702 designator. A creation
  hands on nothing, as its result has no field for it.

  So a write counts by the calls that lead to it: `Link.counted` says which of them hand a
  refund on, `Link.committed` which of them keep the write. `refund_exact_iff`: the refund of a
  program that succeeds is the sum over the writes that are kept exactly where the refunds that
  leak out of failed frames and those lost in constructors balance. Precompiles record no refund
  and make no calls; they are left out of the tree.
-/
import Arbreth.Stylus.SStore

namespace Arbreth.Stylus

/-! ## The model -/

/-- How code ends: `halt` stands for the exceptional halts of EVM code, and for a program that
    runs out of ink or stack. -/
inductive Ending where
  | success
  | revert
  | halt
  deriving DecidableEq, Repr

/-- What runs: WASM, or EVM bytecode in `run_evm_bytecode`. -/
inductive Code where
  | wasm
  | evm
  deriving DecidableEq, Repr

/-- What a call reaches: EVM code, a Stylus program, or an account whose EIP-7702 designator
    names a Stylus program. -/
inductive Callee where
  | evm
  | stylus
  | delegatedStylus
  deriving DecidableEq, Repr

def Callee.code : Callee → Code
  | .evm => .evm
  | .stylus => .wasm
  | .delegatedStylus => .wasm

/-- What code does, in order: the storage writes it pays for, its calls and creations with what
    runs there, and how it ends. Deployed code is `accepted` if it may be stored and is paid for. -/
inductive Work where
  | done (ending : Ending)
  | store (info : SStoreInfo) (rest : Work)
  | call (callee : Callee) (body rest : Work)
  | create (accepted : Bool) (init rest : Work)

def Work.ending : Work → Ending
  | .done ending => ending
  | .store _ rest => rest.ending
  | .call _ _ rest => rest.ending
  | .create _ _ rest => rest.ending

/-- `SubCallResult.refund` of `stylus_call_trampoline`, for a callee that recorded this much. -/
def trampolineRefund (callee : Callee) (ending : Ending) (recorded : Int) : Int :=
  match callee with
  | .evm => recorded
  | .stylus => if ending = .success then recorded else 0
  -- `zero_gas` of a program that ran out of ink or stack records nothing
  | .delegatedStylus => if ending = .halt then 0 else recorded

/-- `sstore_refund` of the host functions, or the refund counter of the interpreter. -/
def Work.recorded : Code → Work → Int
  | _, .done _ => 0
  | c, .store info rest => sstoreRefund info + rest.recorded c
  | c, .call callee body rest =>
    let refund := trampolineRefund callee body.ending (body.recorded callee.code)
    (if c = .wasm ∨ body.ending = .success then refund else 0) + rest.recorded c
  | c, .create _ _ rest => rest.recorded c

/-- The refund in the result of `execute_stylus_program`. -/
def Work.resultRefund (w : Work) : Int := if w.ending = .halt then 0 else w.recorded .wasm

/-! ## Where writes happen -/

/-- A step on the way from the program down to a write. -/
inductive Link where
  | call (caller : Code) (callee : Callee) (ending : Ending)
  | create (succeeded : Bool)
  deriving DecidableEq

/-- The frame did not fail. -/
def Link.committed : Link → Bool
  | .call _ _ ending => ending = .success
  | .create succeeded => succeeded

/-- The refund of the frame reaches the frame above. -/
def Link.counted : Link → Bool
  | .call caller callee ending =>
    (caller = .wasm || ending = .success) &&
      match callee with
      | .evm => true
      | .stylus => ending = .success
      | .delegatedStylus => ending ≠ .halt
  | .create _ => false

/-- A storage write and the way to it. -/
structure Write where
  path : List Link
  info : SStoreInfo

/-- All writes below a frame that `path` leads to. -/
def Work.writes (path : List Link) : Code → Work → List Write
  | _, .done _ => []
  | c, .store info rest => ⟨path, info⟩ :: rest.writes path c
  | c, .call callee body rest =>
    body.writes (path ++ [.call c callee body.ending]) callee.code ++ rest.writes path c
  | c, .create accepted init rest =>
    init.writes (path ++ [.create (init.ending = .success && accepted)]) .evm ++
      rest.writes path c

def Write.committed (w : Write) : Bool := w.path.all Link.committed

def Write.counted (w : Write) : Bool := w.path.all Link.counted

/-- The refunds, by the rules of the EVM, of the writes of one kind. -/
def refunds (kind : Write → Bool) (writes : List Write) : Int :=
  ((writes.filter kind).map fun w => eip3529Refund w.info).sum

/-- All writes below a program. -/
def Work.allWrites (w : Work) : List Write := w.writes [] .wasm

/-! ## Which writes are counted -/

variable (kind : Write → Bool)

theorem refunds_append (ws ws' : List Write) :
    refunds kind (ws ++ ws') = refunds kind ws + refunds kind ws' := by
  simp [refunds]

theorem refunds_cons (w : Write) (ws : List Write) :
    refunds kind (w :: ws) = (if kind w then eip3529Refund w.info else 0) + refunds kind ws := by
  cases h : kind w <;> simp [refunds, h]

/-- A call hands on the refund of its callee, or nothing. -/
theorem call_hands_on (c : Code) (callee : Callee) (ending : Ending) (recorded : Int) :
    (if c = .wasm ∨ ending = .success then trampolineRefund callee ending recorded else 0) =
      if (Link.call c callee ending).counted then recorded else 0 := by
  cases c <;> cases callee <;> cases ending <;> simp [trampolineRefund, Link.counted]

/-- What a frame records is the sum over the writes that are counted below it, as far as the way
    to the frame hands refunds on. -/
theorem refunds_counted (path : List Link) (c : Code) (w : Work) :
    refunds Write.counted (w.writes path c) =
      if path.all Link.counted then w.recorded c else 0 := by
  induction w generalizing path c with
  | done ending => simp [Work.writes, Work.recorded, refunds]
  | store info rest ih =>
    rw [Work.writes, refunds_cons, ih, Work.recorded, sstoreRefund_eq]
    by_cases hpath : path.all Link.counted = true
    · simp [Write.counted, hpath]
    · simp [Write.counted, hpath]
  | call callee body rest ihBody ihRest =>
    rw [Work.writes, refunds_append, ihBody, ihRest, Work.recorded, call_hands_on,
      List.all_append, List.all_cons, List.all_nil, Bool.and_true]
    cases path.all Link.counted <;> simp
  | create accepted init rest ihInit ihRest =>
    rw [Work.writes, refunds_append, ihInit, ihRest, Work.recorded]
    simp [Link.counted]

/-- Two sums over kinds of writes differ by what is in one kind only. -/
theorem refunds_eq_iff (p q : Write → Bool) (ws : List Write) :
    refunds p ws = refunds q ws ↔
      refunds (fun w => p w && !q w) ws = refunds (fun w => q w && !p w) ws := by
  have hsplit : refunds p ws + refunds (fun w => q w && !p w) ws =
      refunds q ws + refunds (fun w => p w && !q w) ws := by
    induction ws with
    | nil => rfl
    | cons w ws ih =>
      simp only [refunds_cons]
      cases p w <;> cases q w <;> simp <;> omega
  omega

/-- The refund of a program that succeeds is the sum over the storage writes that are kept
    exactly where the refunds of writes in failed frames that reach the program and those of
    kept writes that do not reach it are the same in sum. -/
theorem refund_exact_iff (w : Work) (hsuccess : w.ending = .success) :
    w.resultRefund = refunds Write.committed w.allWrites ↔
      refunds (fun x => x.counted && !x.committed) w.allWrites =
        refunds (fun x => x.committed && !x.counted) w.allWrites := by
  have hresult : w.resultRefund = refunds Write.counted w.allWrites := by
    have hcounted := refunds_counted [] .wasm w
    rw [List.all_nil, if_pos rfl] at hcounted
    rw [Work.resultRefund, hsuccess, if_neg (by decide), Work.allWrites, hcounted]
  rw [hresult]
  exact refunds_eq_iff _ _ _

/-- Clearing a slot that held one. -/
def clearsSlot : SStoreInfo := ⟨false, 1, 1, 0⟩

/-- A program that clears a slot and calls an EVM contract that does the same. -/
theorem refund_exact_call :
    let w : Work := .store clearsSlot
      (.call .evm (.store clearsSlot (.done .success)) (.done .success))
    w.resultRefund = refunds Write.committed w.allWrites ∧ w.resultRefund = 9600 := by
  intro w
  exact ⟨(refund_exact_iff w rfl).mpr (by decide), by decide⟩

/-- A program calls an EVM contract that clears a slot and reverts, and gets the refund; one that
    creates a contract whose constructor clears a slot does not. -/
theorem refund_not_exact :
    let reverted : Work := .call .evm (.store clearsSlot (.done .revert)) (.done .success)
    let created : Work := .create true (.store clearsSlot (.done .success)) (.done .success)
    (reverted.resultRefund = 4800 ∧ refunds Write.committed reverted.allWrites = 0) ∧
      (created.resultRefund = 0 ∧ refunds Write.committed created.allWrites = 4800) := by
  decide

end Arbreth.Stylus
