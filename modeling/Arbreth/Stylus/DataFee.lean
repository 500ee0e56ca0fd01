/-
  The Stylus data fee of a transaction that calls ArbWasm.

  The precompile leaves the fee in the transaction's scratch, the executor takes it from there
  after the run whatever its end, and `commit_transaction` moves it. `data_fee_exact_iff` says
  for which transactions the fee that moves is the fee of a program word that is kept: those
  that do not run out of gas at the precompile's last comparison. revm is a parameter, with
  `RunsArbWasm` for what it hands over of the precompile's call.
-/
import Arbreth.Stylus.ArbWasm
import Arbreth.Exec.GasCharging

namespace Arbreth.Stylus

open Arbreth.Lib Arbreth.Tx Arbreth.Parse Arbreth.Exec

/-! ## The call in a transaction -/

/-- The precompile's surroundings: the host, ABI decoding, and the gas revm takes before the
    call. -/
structure WasmExternals extends WasmHost where
  decode : Bytes → Option WasmCall
  initialGas : EvmInput → Nat

variable (e : WasmExternals) (x : Externals) (ps : Programs)

def wasmCtx (ctx : BlockCtx) (i : EvmInput) : WasmCtx :=
  ⟨ctx.arbosVersion, ctx.blockTimestamp, ctx.networkFeeAccount, i.stylusCallValue⟩

/-- The outermost call of a run. -/
def wasmInput (i : EvmInput) : WasmInput :=
  ⟨i.env.gasLimit - e.initialGas i, i.env.data.length, i.env.value, i.env.caller⟩

def topCall (ctx : BlockCtx) (i : EvmInput) (call : WasmCall) : WasmOutcome :=
  handle e.toWasmHost (wasmCtx ctx i) (wasmInput e i) ps .fresh call

def topDue (ctx : BlockCtx) (i : EvmInput) (call : WasmCall) : Option FeeDue :=
  due e.toWasmHost (wasmCtx ctx i) (wasmInput e i) ps call

/-- A run of revm on a call of ArbWasm ends as the precompile does and hands over its scratch. -/
structure RunsArbWasm (ctx : BlockCtx) : Prop where
  success : ∀ i w out call, i.env.kind = some arbwasmAddress → e.decode i.env.data = some call →
    x.evm i w = .ok out → out.success = (topCall e ps ctx i call).result.isSuccess
  dataFee : ∀ i w out call, i.env.kind = some arbwasmAddress → e.decode i.env.data = some call →
    x.evm i w = .ok out → out.stylusDataFee = (topCall e ps ctx i call).scratch.takeDataFee

/-- The programs after the run: revm discards the writes of a failed call. -/
def committedPrograms (o : WasmOutcome) (success : Bool) : Programs :=
  if success then o.programs else ps

/-! ## The property and its condition -/

/-- The fee's stage of `commit_transaction` starts here. -/
def beforeFee (s : Executor) (p : Pending) (r : TxResult) : Executor :=
  redirectTip (commitRun s r) p r.gasUsed

/-- The amount the commit moves is a transfer from the sender to the network account. It is the
    fee of the program word that was kept, and nothing if the run failed or owes nothing. -/
structure FeeExact (s : Executor) (t : ExecutableTx x) (call : WasmCall) (s' : Executor) (p : Pending)
    (r : TxResult) : Prop where
  transferred : ¬ (beforeFee s' p r).world.getBalance p.sender < p.stylusDataFee ∧
    (payStylusDataFee (beforeFee s' p r) p).world = transferBalance (beforeFee s' p r).world p.sender
      (beforeFee s' p r).ctx.networkFeeAccount p.stylusDataFee
  paid : ∀ i w d, enteredRun x s t = some (i, w) → topDue e ps s.ctx i call = some d →
    r.success = true → p.stylusDataFee = d.dataFee ∧
      (committedPrograms ps (topCall e ps s.ctx i call) r.success).words d.codeHash =
        d.program.toStorage
  kept : (r.success = false ∨
      ∀ i w, enteredRun x s t = some (i, w) → topDue e ps s.ctx i call = none) →
    p.stylusDataFee = 0

/-- A call that owes a fee and was sent the value for it has the gas for the whole call, and the
    sender has kept the fee. -/
def FeeCovered (s : Executor) (t : ExecutableTx x) (call : WasmCall) (s' : Executor) (p : Pending)
    (r : TxResult) : Prop :=
  ∀ i w d, enteredRun x s t = some (i, w) → topDue e ps s.ctx i call = some d → d.dataFee ≠ 0 →
    ¬ i.stylusCallValue < d.dataFee → totalGas call d ≤ (wasmInput e i).gas ∧
      ¬ (beforeFee s' p r).world.getBalance p.sender < d.dataFee

instance (s : Executor) (t : ExecutableTx x) (call : WasmCall) (s' : Executor) (p : Pending)
    (r : TxResult) : Decidable (FeeCovered e x ps s t call s' p r) :=
  match hi : enteredRun x s t with
  | none => isTrue fun i w d hi' => by
    rw [hi] at hi'
    cases hi'
  | some (i, w) =>
    match hd : topDue e ps s.ctx i call with
    | none => isTrue fun j w' d hj hd' => by
      cases hi.symm.trans hj
      cases hd.symm.trans hd'
    | some d =>
      decidable_of_iff (d.dataFee ≠ 0 → ¬ i.stylusCallValue < d.dataFee →
          totalGas call d ≤ (wasmInput e i).gas ∧
            ¬ (beforeFee s' p r).world.getBalance p.sender < d.dataFee)
        ⟨fun h j w' d' hj hd' => by
          cases hi.symm.trans hj
          cases hd.symm.trans hd'
          exact h, fun h => h i w d hi hd⟩

/-! ## What the executor hands on -/

variable {e x ps} {s s' : Executor} {t : ExecutableTx x} {p : Pending} {r : TxResult}

variable {call : WasmCall} {i : EvmInput} {w : World}

/-- A call of ArbWasm carries no value of its own. -/
theorem enteredRun_env (htarget : Accessor.kind t.tx = some arbwasmAddress)
    (hrun : enteredRun x s t = some (i, w)) :
    i.env.kind = some arbwasmAddress ∧ i.env.data = t.env.data ∧ i.env.value = 0 := by
  unfold enteredRun at hrun
  split at hrun
  · cases hrun
  · split at hrun
    · cases hrun
      exact ⟨(env_kind t).trans htarget, rfl, if_pos htarget⟩
    · cases hrun

theorem world_payStylusDataFee {s : Executor} {p : Pending}
    (h : ¬ s.world.getBalance p.sender < p.stylusDataFee) :
    (payStylusDataFee s p).world =
      transferBalance s.world p.sender s.ctx.networkFeeAccount p.stylusDataFee := by
  rw [transferBalance_covered h]
  unfold payStylusDataFee
  split
  · dsimp only [Executor.touch]
    rw [burnBalance_eq, mintBalance_eq]
  · next h0 =>
    simp only [Decidable.of_not_not h0, World.applyBurn, World.applyMint, if_true]

/-- A run's fee and success, by what the call owes. -/
theorem run_fee (hrevm : RunsArbWasm e x ps s.ctx)
    (htarget : Accessor.kind t.tx = some arbwasmAddress) (hcall : e.decode t.env.data = some call)
    {out : EvmOutput} (hrun : enteredRun x s t = some (i, w)) (hout : x.evm i w = .ok out) :
    (topDue e ps s.ctx i call = none ∧ out.stylusDataFee = 0) ∨
      ∃ d, topDue e ps s.ctx i call = some d ∧
        (topCall e ps s.ctx i call).programs.words d.codeHash = d.program.toStorage ∧
        out.stylusDataFee = (if i.stylusCallValue < d.dataFee then 0 else d.dataFee) ∧
        (out.success = true ↔
          ¬ i.stylusCallValue < d.dataFee ∧ totalGas call d ≤ (wasmInput e i).gas) := by
  obtain ⟨hkind, hdata, hvalue⟩ := enteredRun_env htarget hrun
  have hsuccess := hrevm.success i w out call hkind (hdata ▸ hcall) hout
  have hfee := hrevm.dataFee i w out call hkind (hdata ▸ hcall) hout
  rw [hsuccess, hfee]
  cases hdue : topDue e ps s.ctx i call with
  | none =>
    refine .inl ⟨rfl, ?_⟩
    rw [topCall, handle_of_due_none hdue]
    rfl
  | some d =>
    obtain ⟨hhandle, hprepare⟩ := handle_of_due hdue .fresh
    have hword := prepared_prepare e.toWasmHost (wasmCtx s.ctx i) (wasmInput e i) ps call
    rw [hprepare] at hword
    refine .inr ⟨d, rfl, ?_⟩
    rw [topCall, hhandle, programs_settleFee]
    exact ⟨hword, takeDataFee_settleFee hvalue, isSuccess_settleFee hvalue .fresh⟩

theorem transferred_of_zero (s' : Executor) (r : TxResult) (h : p.stylusDataFee = 0) :
    ¬ (beforeFee s' p r).world.getBalance p.sender < p.stylusDataFee := by
  rw [h]
  exact BitVec.not_lt_zero

/-- Without a fee asked for and one owed there is nothing to meet. -/
theorem exact_iff_of_nothing (hfee : p.stylusDataFee = 0)
    (hnone : ∀ i w, enteredRun x s t = some (i, w) → topDue e ps s.ctx i call = none) :
    FeeExact e x ps s t call s' p r ↔ FeeCovered e x ps s t call s' p r := by
  have hnot : ∀ i w d, enteredRun x s t = some (i, w) → topDue e ps s.ctx i call = some d → False := by
    intro i w d hi hd
    cases (hnone i w hi).symm.trans hd
  have hcovers := transferred_of_zero s' r hfee
  refine iff_of_true ⟨⟨hcovers, world_payStylusDataFee hcovers⟩, ?_, fun _ => hfee⟩ ?_
  · intro i w d hi hd
    exact (hnot i w d hi hd).elim
  · intro i w d hi hd
    exact (hnot i w d hi hd).elim

/-- The case of a run whose call owes a fee. -/
theorem exact_iff_of_due {d : FeeDue} (hrun : enteredRun x s t = some (i, w))
    (hdue : topDue e ps s.ctx i call = some d)
    (hword : (topCall e ps s.ctx i call).programs.words d.codeHash = d.program.toStorage)
    (hfee : p.stylusDataFee = if i.stylusCallValue < d.dataFee then 0 else d.dataFee)
    (hends : r.success = true ↔
      ¬ i.stylusCallValue < d.dataFee ∧ totalGas call d ≤ (wasmInput e i).gas) :
    FeeExact e x ps s t call s' p r ↔ FeeCovered e x ps s t call s' p r := by
  have honly : ∀ {j w' d'}, enteredRun x s t = some (j, w') → topDue e ps s.ctx j call = some d' →
      j = i ∧ d' = d := by
    intro j w' d' hj hd'
    cases hrun.symm.trans hj
    cases hdue.symm.trans hd'
    exact ⟨rfl, rfl⟩
  constructor
  · intro hexact j w' d' hj hd' hne hvalue
    obtain ⟨rfl, rfl⟩ := honly hj hd'
    rw [if_neg hvalue] at hfee
    have hsucceeds : r.success = true := by
      by_contra hfails
      exact hne (hfee ▸ hexact.kept (.inl (Bool.eq_false_of_not_eq_true hfails)))
    exact ⟨(hends.mp hsucceeds).2, hfee ▸ hexact.transferred.1⟩
  · intro hcovered
    have hmoves : ¬ (beforeFee s' p r).world.getBalance p.sender < p.stylusDataFee := by
      by_cases hzero : p.stylusDataFee = 0
      · exact transferred_of_zero s' r hzero
      · have hvalue : ¬ i.stylusCallValue < d.dataFee := fun h => hzero (hfee.trans (if_pos h))
        rw [if_neg hvalue] at hfee
        rw [hfee] at hzero ⊢
        exact (hcovered i w d hrun hdue hzero hvalue).2
    refine ⟨⟨hmoves, world_payStylusDataFee hmoves⟩, ?_, ?_⟩
    · intro j w' d' hj hd' hsucceeds
      obtain ⟨rfl, rfl⟩ := honly hj hd'
      rw [hfee, if_neg (hends.mp hsucceeds).1, committedPrograms, if_pos hsucceeds]
      exact ⟨rfl, hword⟩
    · rintro (hfails | hnothing)
      · -- A call that owes a fee and was sent it would have succeeded.
        by_contra hzero
        have hvalue : ¬ i.stylusCallValue < d.dataFee := fun h => hzero (hfee.trans (if_pos h))
        rw [if_neg hvalue] at hfee
        obtain ⟨hgas, -⟩ := hcovered i w d hrun hdue (hfee ▸ hzero) hvalue
        rw [hends.mpr ⟨hvalue, hgas⟩] at hfails
        cases hfails
      · cases (hnothing i w hrun).symm.trans hdue

/-- The fee that moves is the fee of the kept program word exactly for the calls that meet the
    condition. -/
theorem data_fee_exact_iff (e : WasmExternals) (x : Externals) (ps : Programs) (s s' : Executor)
    (t : ExecutableTx x) (call : WasmCall) (p : Pending) (r : TxResult)
    (hrevm : RunsArbWasm e x ps s.ctx) (htarget : Accessor.kind t.tx = some arbwasmAddress)
    (hcall : e.decode t.env.data = some call)
    (hok : executeTransactionWithoutCommit x s t = (s', .ok r)) (hpending : s'.pending = some p) :
    FeeExact e x ps s t call s' p r ↔ FeeCovered e x ps s t call s' p r := by
  have hnoRun : enteredRun x s t = none → ∀ i w, enteredRun x s t = some (i, w) →
      topDue e ps s.ctx i call = none := by
    intro hnone i w hi
    cases hnone.symm.trans hi
  by_cases henters : EntersEvm (ArbTxType.fromU8 t.tx.ty)
  · rcases execute_entered henters hok hpending with
      ⟨hnone, hnever⟩ | ⟨i, w, out, hrun, -, hout, hran⟩
    · exact exact_iff_of_nothing hnever.dataFee (hnoRun hnone)
    · rcases run_fee hrevm htarget hcall hrun hout with ⟨hnone, hout0⟩ | ⟨d, hdue, hword, hamount, hends⟩
      · refine exact_iff_of_nothing (hran.dataFee.trans hout0) fun j w' hj => ?_
        cases hrun.symm.trans hj
        exact hnone
      · exact exact_iff_of_due hrun hdue hword (hran.dataFee.trans hamount) (hran.success ▸ hends)
  · obtain ⟨hnone, -, hfee⟩ := execute_notEntered henters hok hpending
    exact exact_iff_of_nothing hfee (hnoRun hnone)

/-! ## Keepalive of one program -/

/-- The gas a call takes: all of it where it fails without a revert. -/
def wasmGasUsed (e : WasmExternals) (i : EvmInput) : PrecompileResult → Nat
  | .success gasUsed _ => e.initialGas i + gasUsed
  | .reverted gasUsed _ => e.initialGas i + gasUsed
  | .outOfGas => i.env.gasLimit
  | .other _ => i.env.gasLimit

/-- revm on a call of ArbWasm. -/
def arbWasmRun (e : WasmExternals) (ps : Programs) (ctx : BlockCtx) (i : EvmInput) (w : World) :
    Except String EvmOutput :=
  match e.decode i.env.data with
  | none => .error "no such method"
  | some call =>
    let o := topCall e ps ctx i call
    match revmRun (wasmGasUsed e i o.result) (fun _ w => w) i w with
    | .error err => .error err
    | .ok out => .ok { out with
        success := o.result.isSuccess
        stylusDataFee := o.scratch.takeDataFee }

theorem runsArbWasm_arbWasmRun (e : WasmExternals) (ps : Programs) (ctx : BlockCtx) :
    RunsArbWasm e (sampleExternals (arbWasmRun e ps ctx)) ps ctx := by
  have hrun : ∀ i w out call, e.decode i.env.data = some call → arbWasmRun e ps ctx i w = .ok out →
      out.success = (topCall e ps ctx i call).result.isSuccess ∧
        out.stylusDataFee = (topCall e ps ctx i call).scratch.takeDataFee := by
    intro i w out call hcall h
    rw [arbWasmRun, hcall] at h
    dsimp only at h
    split at h
    · cases h
    · cases h
      exact ⟨rfl, rfl⟩
  constructor
  · intro i w out call _ hcall hout
    exact (hrun i w out call hcall hout).1
  · intro i w out call _ hcall hout
    exact (hrun i w out call hcall hout).2

/-- A program of ten kilobytes, last kept alive 100 days before the sample block. -/
def keptProgram : Program where
  version := 1
  initCost := 100
  cachedCost := 10
  footprint := 1
  asmEstimateKb := 10
  activatedAt := hoursSinceArbitrum (1700000000 - 100 * 86400)
  ageSeconds := 0
  cached := false

/-- That program under one code hash, with the initial parameters and prices. -/
def samplePrograms : Programs where
  params := ⟨1, 128, 365, 31, 131072, 0⟩
  words := Function.update (fun _ => 0) 0xc0de keptProgram.toStorage
  moduleHashes := fun _ => 0
  dataPricer := ⟨0, 34865, arbitrumStartTime, 82928201, 21360419⟩
  activationGas := 0

/-- Every calldata asks to keep the sample program alive; no code is activated. -/
def keepaliveExternals : WasmExternals where
  codeHash _ := 0
  code _ := []
  isStylusDeployable _ _ := false
  isStylusFragment _ := false
  readWasm _ _ gasUsed _ := (gasUsed, none)
  activateProgram _ _ _ _ _ _ := none
  decode _ := some (.codehashKeepalive 0xc0de)
  initialGas i := txGas + 16 * i.env.data.length

abbrev keepaliveRun : EvmInput → World → Except String EvmOutput :=
  arbWasmRun keepaliveExternals samplePrograms sampleCtx

/-- A keepalive that sends 10^12 wei. -/
def keepaliveTransaction (gasLimit : Nat) : ArbTransactionSigned :=
  ⟨.legacy ⟨some 42161, 3, 100000000, gasLimit, some arbwasmAddress, 1000000000000,
    List.replicate 36 1⟩, ⟨1, 1, false⟩⟩

def keepaliveTx (gasLimit : Nat) : ExecutableTx (sampleExternals keepaliveRun) where
  tx := keepaliveTransaction gasLimit
  env := ⟨0, sampleSender, gasLimit, 3, some 42161, some arbwasmAddress, List.replicate 36 1, 100000000,
    none, 1000000000000, [], []⟩
  env_eq := rfl

/-- With 150000 gas the call succeeds, and its fee moves. -/
theorem data_fee_exact_keepalive :
    ∃ s' p r, executeTransactionWithoutCommit (sampleExternals keepaliveRun) (fundedExecutor false)
        (keepaliveTx 150000) = (s', .ok r) ∧ s'.pending = some p ∧ r.success = true ∧
      p.stylusDataFee = 849524449280 ∧
      FeeExact keepaliveExternals (sampleExternals keepaliveRun) samplePrograms (fundedExecutor false)
        (keepaliveTx 150000) (.codehashKeepalive 0xc0de) s' p r := by
  refine ⟨_, _, _, rfl, rfl, by decide +kernel, by decide +kernel, ?_⟩
  refine (data_fee_exact_iff keepaliveExternals (sampleExternals keepaliveRun) samplePrograms
    (fundedExecutor false) _ (keepaliveTx 150000) (.codehashKeepalive 0xc0de) _ _
    (runsArbWasm_arbWasmRun _ _ _) rfl rfl rfl rfl).mpr ?_
  decide +kernel

/-- With 80000 gas the call runs out of gas at its last comparison. The program's word is
    discarded and the fee moves all the same. -/
theorem out_of_gas_keepalive_pays :
    ∃ s' p r, executeTransactionWithoutCommit (sampleExternals keepaliveRun) (fundedExecutor false)
        (keepaliveTx 80000) = (s', .ok r) ∧ s'.pending = some p ∧ r.success = false ∧
      (beforeFee s' p r).world.getBalance 0xfee = 0 ∧
      (payStylusDataFee (beforeFee s' p r) p).world.getBalance 0xfee = 849524449280 ∧
      ¬ FeeExact keepaliveExternals (sampleExternals keepaliveRun) samplePrograms
        (fundedExecutor false) (keepaliveTx 80000) (.codehashKeepalive 0xc0de) s' p r := by
  refine ⟨_, _, _, rfl, rfl, by decide +kernel, by decide +kernel, by decide +kernel, fun h => ?_⟩
  exact absurd (h.kept (.inl (by decide +kernel))) (by decide +kernel)

end Arbreth.Stylus
